/-
  Where every event is.

  A ledger is kept of what a pipeline is seen to do: which events it took in, which it refused, and
  with which it is done and how.  It is no part of the pipeline, and nothing in the pipeline reads
  it.  The main statement, `ledger_balances`, says that at every moment the events taken in are, in
  order, those that are done with, then the one that is being worked on, then those that wait; that
  the sink holds what the ledger says was written down, and no more; and that the counts are the
  ledger's.

  1. `Exchange` is what one change of one consumer may do to the pipeline: what it had in hand and
     what waited is what it is now done with, then what it has in hand now, then what waits now.  A
     step is an exchange (`Move.exchange`), and so is an end from outside (`exchange_stop`).

  2. `Balanced` is the invariant.  An exchange keeps it (`Balanced.put`): as there is one receiver,
     no other consumer has anything in hand.

  3. `breaks_of_lost`: an event is lost only where its consumer is ended while it has the event.
-/
import Mathlib.Data.List.Induction
import ShortLink.Proofs.Pipeline.Interleaving

namespace ShortLink.Pipeline

variable {ε ρ σ : Type}

/-! ## What becomes of events -/

/-- What became of an event that was taken out. -/
inductive Fate (ρ : Type) where
  /-- Its record was written down. -/
  | persisted (record : ρ)
  /-- The sink refused its record. -/
  | failed
  /-- Its consumer was ended while it had the event. -/
  | lost

namespace Fate

/-- The record that was written down. -/
def record? : Fate ρ → Option ρ
  | persisted record => some record
  | _ => none

def isPersisted : Fate ρ → Bool
  | persisted _ => true
  | _ => false

def isFailed : Fate ρ → Bool
  | failed => true
  | _ => false

/-- What becomes of an event whose record the sink has judged. -/
def ofPersisted (record : ρ) : Persisted → Fate ρ
  | .done => persisted record
  | .failed => failed
  | .panicked => lost

end Fate

/-- What a pipeline is seen to do. -/
structure Ledger (ε ρ : Type) where
  /-- The events that were taken in, the first one first. -/
  accepted : List ε
  /-- The events that were refused. -/
  refused : List ε
  /-- The events that were taken out and are done with, the first one first. -/
  settled : List (ε × Fate ρ)

namespace Consumer

/-- The event that a consumer has in hand. -/
def inHand? (c : Consumer ε ρ) : Option ε :=
  match c.phase with
  | .processing event _ _ => some event
  | _ => none

/-- The event that the next step of a consumer takes out of the queue. -/
def picks? (c : Consumer ε ρ) (p : Pipeline ε σ) : Option ε :=
  match c.phase with
  | .taking => p.queue.head?
  | _ => none

/-- The event with which the next step of a consumer is done, and what becomes of it. -/
def settles? (stage : Stage ε ρ σ) (now : Nat) (c : Consumer ε ρ) (p : Pipeline ε σ) :
    Option (ε × Fate ρ) :=
  match c.phase with
  | .processing event record due =>
    if now < due then none
    else some (event, Fate.ofPersisted record (stage.persist record p.sink).1)
  | _ => (c.picks? p).bind fun event =>
    if (stage.enrich event).isNone then some (event, .lost) else none

end Consumer

/-- An event is lost by an act: the consumer that the act ends has it in hand, or takes it out just
now and cannot enrich it, or cannot get through with handing its record to the sink. -/
inductive World.Breaks (w : World ε ρ σ) : Act ε ρ σ → ε → Prop where
  | cut {i c event record due} (hi : w.consumers[i]? = some c)
      (hc : c.phase = .processing event record due) : Breaks w (.cut i) event
  | enriching {i stage c event} (hi : w.consumers[i]? = some c) (hc : c.phase = .taking)
      (hq : w.pipeline.queue.head? = some event) (he : stage.enrich event = none) :
      Breaks w (.work i stage) event
  | persisting {i stage c event record due} (hi : w.consumers[i]? = some c)
      (hc : c.phase = .processing event record due)
      (hs : (stage.persist record w.pipeline.sink).1 = .panicked) : Breaks w (.work i stage) event

/-- What an act adds to the ledger. -/
def Ledger.note (l : Ledger ε ρ) (w : World ε ρ σ) : Act ε ρ σ → Ledger ε ρ
  | .submit event =>
    if (w.submit event).1 then { l with accepted := l.accepted ++ [event] }
    else { l with refused := l.refused ++ [event] }
  | .work i stage =>
    let settled? := w.consumers[i]?.bind fun c => c.settles? stage w.now w.pipeline
    { l with settled := l.settled ++ settled?.toList }
  | .cut i =>
    let lost? := (w.consumers[i]?.bind Consumer.inHand?).map fun event => (event, .lost)
    { l with settled := l.settled ++ lost?.toList }
  | _ => l

namespace World

/-- The ledger of a row of acts, added to a ledger. -/
def ledgerFrom (l : Ledger ε ρ) (w : World ε ρ σ) : List (Act ε ρ σ) → Ledger ε ρ
  | [] => l
  | a :: acts => ledgerFrom (l.note w a) (w.act a) acts

/-- The ledger of a row of acts. -/
def ledger (w : World ε ρ σ) (acts : List (Act ε ρ σ)) : Ledger ε ρ :=
  ledgerFrom ⟨[], [], []⟩ w acts

theorem ledger_concat (w : World ε ρ σ) (acts : List (Act ε ρ σ)) (a : Act ε ρ σ) :
    w.ledger (acts ++ [a]) = (w.ledger acts).note (w.run acts) a := by
  have general : ∀ (l : Ledger ε ρ) (w : World ε ρ σ),
      ledgerFrom l w (acts ++ [a]) = (ledgerFrom l w acts).note (w.run acts) a := by
    induction acts with
    | nil => exact fun l w => rfl
    | cons b acts ih => exact fun l w => ih (l.note w b) (w.act b)
  exact general _ w

/-- What the consumers have in hand. -/
def inHand (w : World ε ρ σ) : List ε := w.consumers.filterMap Consumer.inHand?

end World

/-! ## One change of one consumer -/

/-- A stage whose enrichment and sink are as told: what comes out of an event is one of its records,
and the sink holds what it has written down, and nothing by a failure. -/
structure Faithful (enriches : ε → ρ → Prop) (holds : σ → List ρ) (stage : Stage ε ρ σ) :
    Prop where
  enriched : ∀ event record, stage.enrich event = some record → enriches event record
  done : ∀ record sink, (stage.persist record sink).1 = .done →
    holds (stage.persist record sink).2 = holds sink ++ [record]
  notDone : ∀ record sink, (stage.persist record sink).1 ≠ .done →
    holds (stage.persist record sink).2 = holds sink

/-- What one change of one consumer may do: `t` is what it is done with by it. -/
structure Exchange (holds : σ → List ρ) (c : Consumer ε ρ) (p : Pipeline ε σ)
    (t : List (ε × Fate ρ)) (c' : Consumer ε ρ) (p' : Pipeline ε σ) : Prop where
  events : c.inHand?.toList ++ p.queue = t.map Prod.fst ++ (c'.inHand?.toList ++ p'.queue)
  /-- A consumer without the receiver does nothing. -/
  idle : c.owns = false → t = [] ∧ c'.inHand? = none ∧ p'.queue = p.queue
  sink : holds p'.sink = holds p.sink ++ t.filterMap fun e => e.2.record?
  stats : p'.stats = { p.stats with
    persisted := p.stats.persisted + t.countP fun e => e.2.isPersisted
    failed := p.stats.failed + t.countP fun e => e.2.isFailed }
  room : p'.room + p'.queue.length = p.room + p.queue.length
  capacity : p'.capacity = p.capacity

namespace Consumer

/-- A consumer that has something in hand has the receiver. -/
theorem owns_of_inHand? {c : Consumer ε ρ} {event : ε} (h : c.inHand? = some event) :
    c.owns = true := by
  simp only [inHand?] at h
  split at h
  · next hc => simp only [owns, hc]
  · cases h

theorem inHand?_of_not_owns {c : Consumer ε ρ} (h : c.owns = false) : c.inHand? = none := by
  cases hi : c.inHand? with
  | none => rfl
  | some event => exact absurd (owns_of_inHand? hi) (by simp [h])

@[simp] theorem inHand?_stop (c : Consumer ε ρ) (p : Pipeline ε σ) :
    (c.stop p).1.inHand? = none := rfl

/-- But for the receiver, a consumer that stops leaves the pipeline as it is. -/
theorem stop_pipeline (c : Consumer ε ρ) (p : Pipeline ε σ) :
    (c.stop p).2 = { p with receiverFree := (c.stop p).2.receiverFree } := by
  simp only [stop]
  split <;> rfl

/-- A consumer that stops leaves the ledger's part of the pipeline as it is. -/
theorem exchange_stop_of {holds : σ → List ρ} {c d : Consumer ε ρ} {p q : Pipeline ε σ}
    {t : List (ε × Fate ρ)} (h : Exchange holds c p t d q) (hd : d.inHand? = none)
    (e : Consumer ε ρ) : Exchange holds c p t (e.stop q).1 (e.stop q).2 := by
  rw [stop_pipeline e q]
  exact
    { events := by rw [inHand?_stop, h.events, hd]
      idle := fun ho => ⟨(h.idle ho).1, rfl, (h.idle ho).2.2⟩
      sink := h.sink
      stats := h.stats
      room := h.room
      capacity := h.capacity }

end Consumer

/-- Nothing happens but that the consumer goes on, with empty hands. -/
theorem Exchange.quiet {holds : σ → List ρ} {c c' : Consumer ε ρ} {p : Pipeline ε σ}
    (h : c.inHand? = none) (h' : c'.inHand? = none) (receiverFree : Bool) :
    Exchange holds c p [] c' { p with receiverFree } where
  events := by rw [h, h']; rfl
  idle := fun _ => ⟨rfl, h', rfl⟩
  sink := (List.append_nil _).symm
  stats := rfl
  room := rfl
  capacity := rfl

/-- A consumer that is ended from outside loses what it has in hand. -/
theorem Consumer.exchange_cut (holds : σ → List ρ) (c : Consumer ε ρ) (p : Pipeline ε σ) :
    Exchange holds c p (c.inHand?.map fun event => (event, .lost)).toList
      (c.stop p).1 (c.stop p).2 := by
  cases hi : c.inHand? with
  | none => exact exchange_stop_of (.quiet hi hi p.receiverFree) hi c
  | some event =>
    rw [stop_pipeline c p]
    exact
      { events := by simp [hi]
        idle := fun ho => by simp [owns_of_inHand? hi] at ho
        sink := (List.append_nil _).symm
        stats := rfl
        room := rfl
        capacity := rfl }

/-- Every step is an exchange, with the event that the step settles. -/
theorem Consumer.Move.exchange {stage : Stage ε ρ σ} {enriches : ε → ρ → Prop}
    {holds : σ → List ρ} (hf : Faithful enriches holds stage) {signal : Signal} {now : Nat}
    {c c' : Consumer ε ρ} {p p' : Pipeline ε σ} (h : Move stage signal now c p c' p') :
    Exchange holds c p (c.settles? stage now p).toList c' p' := by
  -- most steps settle nothing, and leave all but the receiver as it was
  have quiet {d : Consumer ε ρ} {free : Bool} (hs : c.settles? stage now p = none)
      (hc : c.inHand? = none) (hd : d.inHand? = none) :
      Exchange holds c p (c.settles? stage now p).toList d
        { p with receiverFree := free } := by
    rw [hs]
    exact .quiet hc hd free
  cases h with
  | take hc => exact quiet (by simp [settles?, picks?, hc]) (by simp [inHand?, hc]) rfl
  | turnedAway hc => exact quiet (by simp [settles?, picks?, hc]) (by simp [inHand?, hc]) rfl
  | look hc => exact quiet (by simp [settles?, picks?, hc]) (by simp [inHand?, hc]) rfl
  | notice hc => exact quiet (by simp [settles?, picks?, hc]) (by simp [inHand?, hc]) rfl
  | turn hc => exact quiet (by simp [settles?, picks?, hc]) (by simp [inHand?, hc]) rfl
  | doze hc hq => exact quiet (by simp [settles?, picks?, hc, hq]) (by simp [inHand?, hc]) rfl
  | halt hc =>
    have empty : c.inHand? = none := by simp [inHand?, hc]
    exact exchange_stop_of (quiet (by simp [settles?, picks?, hc]) empty empty) empty c
  | close hc =>
    have empty : c.inHand? = none := by simp [inHand?, hc]
    exact exchange_stop_of (quiet (by simp [settles?, picks?, hc]) empty empty) empty c
  | @pick event queue record hc hq he =>
    have nothing : c.settles? stage now p = none := by simp [settles?, picks?, hc, hq, he]
    rw [nothing]
    exact
      { events := by simp [inHand?, enter, hc, hq, takeOut]
        idle := fun ho => by simp [owns, hc] at ho
        sink := (List.append_nil _).symm
        stats := rfl
        room := by simp only [takeOut, hq, List.length_cons]; omega
        capacity := rfl }
  | @pickBroken event queue hc hq he =>
    have lost : c.settles? stage now p = some (event, .lost) := by
      simp [settles?, picks?, hc, hq, he]
    have empty : c.inHand? = none := by simp [inHand?, hc]
    rw [lost]
    have taken : Exchange holds c p [(event, .lost)] c (p.takeOut queue) :=
      { events := by simp [empty, hq, takeOut]
        idle := fun ho => by simp [owns, hc] at ho
        sink := (List.append_nil _).symm
        stats := rfl
        room := by simp only [takeOut, hq, List.length_cons]; omega
        capacity := rfl }
    exact exchange_stop_of taken empty c
  | @settle event record due outcome sink hc hd hs ho =>
    have settled : c.settles? stage now p = some (event, .ofPersisted record outcome) := by
      simp [settles?, hc, Nat.not_lt.mpr hd, hs]
    have kept := hf.notDone record p.sink
    have written := hf.done record p.sink
    rw [hs] at kept written
    rw [settled]
    cases outcome with
    | panicked => exact absurd rfl ho
    | done =>
      exact
        { events := by simp [inHand?, enter, hc, count]
          idle := fun ho => by simp [owns, hc] at ho
          sink := by simpa [count, Fate.ofPersisted, Fate.record?] using written rfl
          stats := rfl
          room := rfl
          capacity := rfl }
    | failed =>
      exact
        { events := by simp [inHand?, enter, hc, count]
          idle := fun ho => by simp [owns, hc] at ho
          sink := by simpa [count, Fate.ofPersisted, Fate.record?] using kept (by simp)
          stats := rfl
          room := rfl
          capacity := rfl }
  | @settleBroken event record due sink hc hd hs =>
    have lost : c.settles? stage now p = some (event, .lost) := by
      simp [settles?, hc, Nat.not_lt.mpr hd, hs, Fate.ofPersisted]
    have kept := hf.notDone record p.sink
    rw [hs] at kept
    rw [lost]
    have broken : Exchange holds c p [(event, .lost)] (c.enter .ended) { p with sink } :=
      { events := by simp [inHand?, enter, hc]
        idle := fun ho => by simp [owns, hc] at ho
        sink := by simpa [Fate.record?] using kept (by simp)
        stats := rfl
        room := rfl
        capacity := rfl }
    exact exchange_stop_of broken rfl c

/-! ## The invariant -/

namespace World

/-- With one receiver, what a consumer that has it has in hand is all that anyone has in hand, and
so it is when the consumer is changed. -/
theorem inHand_put_of_owns {w : World ε ρ σ} (h : w.receivers = 1) {i : Nat} {c : Consumer ε ρ}
    (hc : w.consumers[i]? = some c) (ho : c.owns = true) :
    w.inHand = c.inHand?.toList ∧ ∀ change, (w.put i change).inHand = change.1.inHand?.toList := by
  obtain ⟨xs, ys, hl, hset⟩ := exists_split hc
  -- the one receiver is here, so those before and after have none
  have one : xs.countP Consumer.owns = 0 ∧ ys.countP Consumer.owns = 0 := by
    simp only [receivers, hl, List.countP_append, List.countP_cons, ho, if_true] at h
    omega
  have nothing {zs : List (Consumer ε ρ)} (hz : zs.countP Consumer.owns = 0) :
      zs.filterMap Consumer.inHand? = [] := by
    refine List.filterMap_eq_nil_iff.mpr fun d hd => Consumer.inHand?_of_not_owns ?_
    simpa using List.countP_eq_zero.mp hz d hd
  have all (d : Consumer ε ρ) :
      (xs ++ d :: ys).filterMap Consumer.inHand? = d.inHand?.toList := by
    rw [List.filterMap_append, List.filterMap_cons, nothing one.1, nothing one.2]
    cases d.inHand? <;> rfl
  refine ⟨?_, fun change => ?_⟩
  · rw [inHand, hl, all]
  · rw [inHand, put, hset, all]

/-- A consumer with empty hands may be changed into another one. -/
theorem inHand_put_of_empty {w : World ε ρ σ} {i : Nat} {c : Consumer ε ρ}
    {change : Consumer ε ρ × Pipeline ε σ} (hc : w.consumers[i]? = some c)
    (h : c.inHand? = none) (h' : change.1.inHand? = none) : (w.put i change).inHand = w.inHand := by
  obtain ⟨xs, ys, hl, hset⟩ := exists_split hc
  rw [inHand, put, hset, inHand, hl]
  simp only [List.filterMap_append, List.filterMap_cons, h, h']

/-- No two events are in hand. -/
theorem length_inHand_le {w : World ε ρ σ} (h : w.receivers = 1) : w.inHand.length ≤ 1 := by
  have hands : w.inHand.length ≤ w.consumers.countP Consumer.owns := by
    rw [inHand, List.length_filterMap_eq_countP]
    refine List.countP_mono_left fun c _ hc => ?_
    obtain ⟨event, he⟩ := Option.isSome_iff_exists.mp hc
    exact Consumer.owns_of_inHand? he
  simp only [receivers] at h
  omega

end World

/-- The ledger of a pipeline is right. -/
structure Balanced (enriches : ε → ρ → Prop) (holds : σ → List ρ) (capacity : Nat) (sink : σ)
    (w : World ε ρ σ) (l : Ledger ε ρ) : Prop where
  receivers : w.receivers = 1
  events : l.accepted = l.settled.map Prod.fst ++ (w.inHand ++ w.pipeline.queue)
  sink : holds w.pipeline.sink = holds sink ++ l.settled.filterMap fun e => e.2.record?
  /-- What was written down was made from the event. -/
  records : ∀ event record, (event, Fate.persisted record) ∈ l.settled → enriches event record
  /-- What will be handed to the sink was made from the event. -/
  processed : ∀ c ∈ w.consumers, ∀ event record due,
    c.phase = .processing event record due → enriches event record
  stats : w.pipeline.stats =
    ⟨l.accepted.length, l.refused.length, l.settled.countP fun e => e.2.isPersisted,
     l.settled.countP fun e => e.2.isFailed⟩
  room : w.pipeline.room + w.pipeline.queue.length = max capacity 1
  capacity : w.pipeline.capacity = max capacity 1

namespace Balanced

variable {enriches : ε → ρ → Prop} {holds : σ → List ρ} {capacity : Nat} {sink : σ}
  {w : World ε ρ σ} {l : Ledger ε ρ}

/-- The books of an empty pipeline are right. -/
theorem create (enriches : ε → ρ → Prop) (holds : σ → List ρ) (capacity : Nat) (sink : σ) :
    Balanced enriches holds capacity sink (World.create capacity sink) ⟨[], [], []⟩ where
  receivers := rfl
  events := rfl
  sink := (List.append_nil _).symm
  records := fun _ _ h => nomatch h
  processed := fun _ h => nomatch h
  stats := rfl
  room := rfl
  capacity := rfl

/-- **An exchange keeps the books right**, as no other consumer has anything in hand. -/
theorem put (h : Balanced enriches holds capacity sink w l) {i : Nat} {c : Consumer ε ρ}
    {change : Consumer ε ρ × Pipeline ε σ} {t : List (ε × Fate ρ)}
    (hc : w.consumers[i]? = some c) (he : Exchange holds c w.pipeline t change.1 change.2)
    (hr : (w.put i change).receivers = 1)
    (ht : ∀ event record, (event, Fate.persisted record) ∈ t → enriches event record)
    (hp : ∀ event record due, change.1.phase = .processing event record due →
      enriches event record) :
    Balanced enriches holds capacity sink (w.put i change)
      { l with settled := l.settled ++ t } where
  receivers := hr
  events := by
    show l.accepted = (l.settled ++ t).map Prod.fst ++ ((w.put i change).inHand ++ change.2.queue)
    rw [h.events, List.map_append, List.append_assoc]
    congr 1
    -- with the receiver, what the consumer has is all that is in hand; without it, it has nothing
    cases ho : c.owns with
    | true =>
      obtain ⟨now, later⟩ := World.inHand_put_of_owns h.receivers hc ho
      rw [now, later, he.events]
    | false =>
      obtain ⟨rfl, hands, queue⟩ := he.idle ho
      rw [World.inHand_put_of_empty hc (Consumer.inHand?_of_not_owns ho) hands, queue]
      rfl
  sink := by
    show holds change.2.sink = _
    rw [he.sink, h.sink, List.filterMap_append, List.append_assoc]
  records := fun event record hm => by
    rcases List.mem_append.mp hm with hm | hm
    · exact h.records event record hm
    · exact ht event record hm
  processed := fun d hd event record due hdp => by
    rcases List.mem_or_eq_of_mem_set hd with hd | rfl
    · exact h.processed d hd event record due hdp
    · exact hp event record due hdp
  stats := by
    show change.2.stats = _
    rw [he.stats, h.stats, List.countP_append, List.countP_append]
  room := by
    show change.2.room + change.2.queue.length = _
    rw [he.room, h.room]
  capacity := by
    show change.2.capacity = _
    rw [he.capacity, h.capacity]

end Balanced

/-- A consumer that has to wait is done with nothing. -/
theorem Consumer.settles?_of_step?_eq_none {stage : Stage ε ρ σ} {signal : Signal} {now : Nat}
    {c : Consumer ε ρ} {p : Pipeline ε σ} (h : c.step? stage signal now p = none) :
    c.settles? stage now p = none := by
  cases hc : c.phase with
  | starting => simp [settles?, picks?, hc]
  | checking => simp [settles?, picks?, hc]
  | ended => simp [settles?, picks?, hc]
  | processing event record due =>
    have early : now < due := by
      by_contra hd
      simp only [step?, hc, if_neg hd] at h
      split at h <;> cases h
    simp [settles?, hc, early]
  | waiting => simp [settles?, picks?, hc]
  | taking =>
    -- one that asks the queue never waits
    cases hq : p.queue with
    | nil => simp [step?, hc, hq] at h
    | cons event queue =>
      simp only [step?, hc, hq] at h
      split at h <;> cases h

/-- Only a record that a consumer had in hand is written down. -/
theorem Consumer.processing_of_settles? {stage : Stage ε ρ σ} {now : Nat} {c : Consumer ε ρ}
    {p : Pipeline ε σ} {event : ε} {record : ρ}
    (h : c.settles? stage now p = some (event, .persisted record)) :
    ∃ due, c.phase = .processing event record due := by
  have broken : ((c.picks? p).bind fun event =>
      if (stage.enrich event).isNone then some (event, Fate.lost) else none) ≠
        some (event, Fate.persisted record) := by
    intro hb
    obtain ⟨e, -, he⟩ := Option.bind_eq_some_iff.mp hb
    split at he <;> cases he
  simp only [settles?] at h
  split at h
  · next e r due hc =>
    split at h
    · cases h
    · obtain ⟨rfl, hr⟩ := Prod.mk.inj (Option.some.inj h)
      generalize (stage.persist r p.sink).1 = outcome at hr
      cases outcome <;> cases hr
      exact ⟨due, hc⟩
  · exact absurd h broken

/-- Only an enriched event comes into a consumer's hands. -/
theorem Consumer.Move.enrich_of_processing {stage : Stage ε ρ σ} {signal : Signal} {now : Nat}
    {c c' : Consumer ε ρ} {p p' : Pipeline ε σ} (h : Move stage signal now c p c' p')
    {event : ε} {record : ρ} {due : Nat} (hp : c'.phase = .processing event record due) :
    stage.enrich event = some record := by
  cases h with
  | pick hc hq he =>
    cases hp
    exact he
  -- no other move ends with something in hand
  | _ => cases hp

/-- The stage of an act is as told. -/
def Act.Faithful (enriches : ε → ρ → Prop) (holds : σ → List ρ) : Act ε ρ σ → Prop
  | .work _ stage => Pipeline.Faithful enriches holds stage
  | _ => True

namespace Balanced

variable {enriches : ε → ρ → Prop} {holds : σ → List ρ} {capacity : Nat} {sink : σ}
  {w : World ε ρ σ} {l : Ledger ε ρ}

/-- An event comes in, or is refused, and all else stays. -/
theorem submit (h : Balanced enriches holds capacity sink w l) (event : ε) :
    Balanced enriches holds capacity sink (w.act (.submit event)) (l.note w (.submit event)) := by
  have hr : (w.act (.submit event)).receivers = 1 := World.receivers_act _ h.receivers
  have submitted : w.act (.submit event) = { w with pipeline := (w.pipeline.submit event).2 } := by
    rw [← World.submit_of_receiver h.receivers]
    rfl
  rw [submitted] at hr ⊢
  simp only [Ledger.note, World.submit_of_receiver h.receivers]
  rcases Nat.eq_zero_or_pos w.pipeline.room with full | room
  · rw [submit_of_full full] at hr ⊢
    exact
      { receivers := hr
        events := h.events
        sink := h.sink
        records := h.records
        processed := h.processed
        stats := by simp [h.stats, drop]
        room := h.room
        capacity := h.capacity }
  · rw [submit_of_room room] at hr ⊢
    exact
      { receivers := hr
        events := by simp [h.events, World.inHand, accept]
        sink := h.sink
        records := h.records
        processed := h.processed
        stats := by simp [h.stats, accept]
        room := by
          have := h.room
          simp only [accept, List.length_append, List.length_singleton]
          omega
        capacity := h.capacity }

/-- A consumer makes a step: what it settles is noted. -/
theorem work (h : Balanced enriches holds capacity sink w l) (i : Nat) {stage : Stage ε ρ σ}
    (hf : Faithful enriches holds stage) :
    Balanced enriches holds capacity sink (w.act (.work i stage)) (l.note w (.work i stage)) := by
  have hr : (w.act (.work i stage)).receivers = 1 := World.receivers_act _ h.receivers
  cases hc : w.consumers[i]? with
  | none => simpa [World.act, World.workOf?, Ledger.note, hc] using h
  | some c =>
    rcases hs : c.step? stage (w.signals c.signal) w.now w.pipeline with _ | change
    · have nothing := Consumer.settles?_of_step?_eq_none hs
      simpa [World.act, World.workOf?, Ledger.note, hc, hs, nothing] using h
    · have hm : c.Move stage _ _ _ change.1 change.2 := .of_step? hs
      have acted : w.act (.work i stage) = w.put i change := by
        simp [World.act, World.workOf?, hc, hs]
      have noted : l.note w (.work i stage) = { l with settled := l.settled ++
          (c.settles? stage w.now w.pipeline).toList } := by
        simp [Ledger.note, hc]
      rw [acted] at hr ⊢
      rw [noted]
      -- a record is judged while it is in hand, and was enriched when it came there
      refine h.put hc (hm.exchange hf) hr ?_ ?_
      · intro event record ht
        obtain ⟨due, hp⟩ := Consumer.processing_of_settles? (Option.mem_toList.mp ht)
        exact h.processed c (List.mem_of_getElem? hc) event record due hp
      · intro event record due hp
        exact hf.enriched event record (hm.enrich_of_processing hp)

/-- A consumer is ended from outside: what it has in hand is lost. -/
theorem cut (h : Balanced enriches holds capacity sink w l) (i : Nat) :
    Balanced enriches holds capacity sink (w.act (.cut i)) (l.note w (.cut i)) := by
  have hr : (w.act (.cut i)).receivers = 1 := World.receivers_act _ h.receivers
  cases hc : w.consumers[i]? with
  | none => simpa [World.act, Ledger.note, hc] using h
  | some c =>
    have acted : w.act (.cut i) = w.put i (c.stop w.pipeline) := by simp [World.act, hc]
    have noted : l.note w (.cut i) = { l with settled := l.settled ++
        (c.inHand?.map fun event => (event, Fate.lost)).toList } := by
      simp [Ledger.note, hc]
    rw [acted] at hr ⊢
    rw [noted]
    refine h.put hc (c.exchange_cut holds w.pipeline) hr ?_ ?_
    · intro event record hm
      simp at hm
    · intro event record due hp
      cases hp

/-- Every act keeps the books right. -/
theorem act (h : Balanced enriches holds capacity sink w l) (a : Act ε ρ σ)
    (hf : a.Faithful enriches holds) :
    Balanced enriches holds capacity sink (w.act a) (l.note w a) := by
  cases a with
  | submit event => exact h.submit event
  | start k =>
    exact { h with
      receivers := World.receivers_act (.start k) h.receivers
      events := by
        have hands : (w.act (.start k)).inHand = w.inHand := by
          simp [World.act, World.inHand, Consumer.inHand?, Consumer.create]
        rw [hands]
        exact h.events
      processed := fun c hc event record due hp => by
        rcases List.mem_append.mp hc with hc | hc
        · exact h.processed c hc event record due hp
        · rw [List.mem_singleton.mp hc] at hp
          cases hp }
  | work i stage => exact h.work i hf
  | cut i => exact h.cut i
  | send k value => exact { h with }
  | close k => exact { h with }
  | pass time => exact { h with }

/-- A row of acts keeps the books right. -/
theorem run {acts : List (Act ε ρ σ)} (hf : ∀ a ∈ acts, a.Faithful enriches holds)
    (h : Balanced enriches holds capacity sink w l) :
    Balanced enriches holds capacity sink (w.run acts) (World.ledgerFrom l w acts) := by
  induction acts generalizing w l with
  | nil => exact h
  | cons a acts ih =>
    exact ih (fun b hb => hf b (List.mem_cons_of_mem a hb)) (h.act a (hf a (List.mem_cons_self ..)))

end Balanced

/-! ## Losses -/

/-- An act settles one event at most, and loses it only by breaking off work on it. -/
theorem Ledger.settled_note (l : Ledger ε ρ) (w : World ε ρ σ) (a : Act ε ρ σ) :
    ∃ t? : Option (ε × Fate ρ), (l.note w a).settled = l.settled ++ t?.toList ∧
      ∀ event, t? = some (event, .lost) → w.Breaks a event := by
  cases a with
  | submit event =>
    refine ⟨none, ?_, fun _ h => nomatch h⟩
    simp only [note]
    split <;> exact (List.append_nil _).symm
  | work i stage =>
    refine ⟨_, rfl, fun event h => ?_⟩
    obtain ⟨c, hi, hs⟩ := Option.bind_eq_some_iff.mp h
    cases hc : c.phase with
    | starting => simp [Consumer.settles?, Consumer.picks?, hc] at hs
    | checking => simp [Consumer.settles?, Consumer.picks?, hc] at hs
    | ended => simp [Consumer.settles?, Consumer.picks?, hc] at hs
    | waiting => simp [Consumer.settles?, Consumer.picks?, hc] at hs
    | taking =>
      simp only [Consumer.settles?, Consumer.picks?, hc] at hs
      obtain ⟨e, hq, he⟩ := Option.bind_eq_some_iff.mp hs
      split at he
      · next broken =>
        cases he
        exact .enriching hi hc hq (Option.isNone_iff_eq_none.mp broken)
      · cases he
    | processing e record due =>
      simp only [Consumer.settles?, hc] at hs
      split at hs
      · cases hs
      · obtain ⟨rfl, hr⟩ := Prod.mk.inj (Option.some.inj hs)
        refine .persisting hi hc ?_
        generalize (stage.persist record w.pipeline.sink).1 = outcome at hr ⊢
        cases outcome <;> cases hr
        rfl
  | cut i =>
    refine ⟨_, rfl, fun event h => ?_⟩
    obtain ⟨e, hb, he⟩ := Option.map_eq_some_iff.mp h
    obtain ⟨c, hi, hc⟩ := Option.bind_eq_some_iff.mp hb
    cases he
    simp only [Consumer.inHand?] at hc
    split at hc
    · next hc' =>
      cases hc
      exact .cut hi hc'
    · cases hc
  | start k => exact ⟨none, (List.append_nil _).symm, fun _ h => nomatch h⟩
  | send k value => exact ⟨none, (List.append_nil _).symm, fun _ h => nomatch h⟩
  | close k => exact ⟨none, (List.append_nil _).symm, fun _ h => nomatch h⟩
  | pass time => exact ⟨none, (List.append_nil _).symm, fun _ h => nomatch h⟩

namespace World

/-- An event is lost only at the moment at which its consumer is ended while it has it.  The
induction is on the last act: what is settled by then ends with what that act settles. -/
theorem breaks_of_lost (w : World ε ρ σ) (acts : List (Act ε ρ σ)) :
    ∀ {before after : List (ε × Fate ρ)} {event : ε},
      (w.ledger acts).settled = before ++ (event, .lost) :: after →
      ∃ pre a post, acts = pre ++ a :: post ∧ (w.ledger pre).settled = before ∧
        (w.run pre).Breaks a event := by
  induction acts using List.reverseRecOn with
  | nil =>
    intro before after event h
    exact absurd h.symm (by simp [ledger, ledgerFrom])
  | append_singleton acts a ih =>
    intro before after event h
    obtain ⟨t?, ht, hb⟩ := (w.ledger acts).settled_note (w.run acts) a
    rw [ledger_concat, ht] at h
    -- a loss that was there before the last act is a loss of the acts before it
    have earlier (after' : List (ε × Fate ρ))
        (h : (w.ledger acts).settled = before ++ (event, .lost) :: after') :
        ∃ pre b post, acts ++ [a] = pre ++ b :: post ∧ (w.ledger pre).settled = before ∧
          (w.run pre).Breaks b event := by
      obtain ⟨pre, b, post, rfl, hs, hbreaks⟩ := ih h
      exact ⟨pre, b, post ++ [a], by simp, hs, hbreaks⟩
    cases t? with
    | none => exact earlier after (by simpa using h)
    | some t =>
      rcases List.eq_nil_or_concat after with rfl | ⟨after', last, rfl⟩
      · obtain ⟨hs, ht⟩ := List.append_inj' h rfl
        exact ⟨acts, a, [], rfl, hs, hb event (by simpa using ht)⟩
      · refine earlier after' ?_
        rw [List.concat_eq_append, ← List.cons_append, ← List.append_assoc] at h
        exact (List.append_inj' h rfl).1

/-! ## The books are right -/

/-- **Where every event is.** After any acts, with any enrichment and any sink: the events taken in
are, in order, those done with, the one in hand and those that wait; an event was lost only where
its consumer was ended while it had it; the sink holds, in order, the records of the events that
were written down, each made from its event; the counts are the ledger's; the queue is as long as
the room that is left tells, and never longer than the pipeline was made for; and an event is
refused only by a full queue. -/
theorem ledger_balances (enriches : ε → ρ → Prop) (holds : σ → List ρ) (capacity : Nat) (sink : σ)
    (acts : List (Act ε ρ σ)) (hf : ∀ a ∈ acts, a.Faithful enriches holds) :
    let start : World ε ρ σ := create capacity sink
    let w := start.run acts
    let l := start.ledger acts
    let p := w.pipeline
    l.accepted = l.settled.map Prod.fst ++ w.inHand ++ p.queue ∧ w.inHand.length ≤ 1 ∧
    (∀ before event after, l.settled = before ++ (event, .lost) :: after →
      ∃ pre a post, acts = pre ++ a :: post ∧ (start.ledger pre).settled = before ∧
        (start.run pre).Breaks a event) ∧
    holds p.sink = holds sink ++ l.settled.filterMap (fun e => e.2.record?) ∧
    (∀ event record, (event, Fate.persisted record) ∈ l.settled → enriches event record) ∧
    p.stats = ⟨l.accepted.length, l.refused.length, l.settled.countP fun e => e.2.isPersisted,
      l.settled.countP fun e => e.2.isFailed⟩ ∧
    p.queued = p.queue.length ∧ p.queue.length ≤ p.capacity ∧ p.room ≤ p.capacity ∧
    p.capacity = max capacity 1 ∧
    ∀ event, (w.submit event).1 = true ↔ p.queue.length < p.capacity := by
  intro start w l p
  have h : Balanced enriches holds capacity sink w l :=
    (Balanced.create enriches holds capacity sink).run hf
  have room : p.room + p.queue.length = p.capacity := by rw [h.room, h.capacity]
  refine ⟨?_, length_inHand_le h.receivers, ?_, h.sink, h.records, h.stats, ?_, ?_, ?_, h.capacity,
    ?_⟩
  · rw [List.append_assoc]
    exact h.events
  · exact fun before event after hs => breaks_of_lost start acts hs
  · simp only [Pipeline.queued]
    omega
  · omega
  · omega
  · intro event
    rw [submit_of_receiver h.receivers]
    rcases Nat.eq_zero_or_pos p.room with full | free
    · rw [submit_of_full full]
      simp only [Bool.false_eq_true, false_iff]
      omega
    · rw [submit_of_room free]
      simp only [true_iff]
      omega

/-- A stage that doubles numbers, breaks down over a 3 and whose sink refuses an 8. -/
def sampleStage : Stage Nat Nat (List Nat) where
  enrich n := if n = 3 then none else some (2 * n)
  delay := 0
  persist r sink := if r = 8 then (.failed, sink) else (.done, sink ++ [r])

/-- Three consumers: one that is cut off over its second event, one that breaks down over the third,
and one that works on. -/
def sampleActs : List (Act Nat Nat (List Nat)) :=
  let work i := Act.work i sampleStage
  [.submit 1, .submit 2, .submit 9, .start 0, work 0, work 0, work 0, work 0, work 0, .submit 3,
   work 0, work 0, work 0, .cut 0, .submit 4, .start 0, work 1, work 1, work 1, work 1, .submit 5,
   .start 1, work 2, work 2, work 2, work 2, work 2, work 2, work 2, work 2, .submit 6]

theorem sampleStage_faithful : Faithful (fun n r => r = 2 * n) id sampleStage where
  enriched n r h := by
    simp only [sampleStage] at h
    split at h
    · cases h
    · exact (Option.some.inj h).symm
  done r sink := by
    simp only [sampleStage]
    split <;> simp
  notDone r sink := by
    simp only [sampleStage]
    split <;> simp

theorem sampleActs_faithful : ∀ a ∈ sampleActs, a.Faithful (fun n r => r = 2 * n) id := by
  simp [sampleActs, Act.Faithful, sampleStage_faithful]

theorem ledger_balances_three_consumers :
    let start : World Nat Nat (List Nat) := create 2 []
    let w := start.run sampleActs
    let l := start.ledger sampleActs
    (∀ a ∈ sampleActs, a.Faithful (fun n r => r = 2 * n) id) ∧
    l.accepted = [1, 2, 3, 4, 5, 6] ∧ l.settled.map Prod.fst = [1, 2, 3, 4] ∧ w.inHand = [5] ∧
    w.pipeline.queue = [6] ∧
    l.accepted = l.settled.map Prod.fst ++ w.inHand ++ w.pipeline.queue ∧
    w.pipeline.sink = [2] ∧ w.pipeline.stats = ⟨6, 1, 1, 1⟩ :=
  ⟨sampleActs_faithful, by decide +kernel, by decide +kernel, by decide +kernel, by decide +kernel,
   (ledger_balances (fun n r => r = 2 * n) id 2 [] sampleActs sampleActs_faithful).1,
   by decide +kernel, by decide +kernel⟩

end World

end ShortLink.Pipeline
