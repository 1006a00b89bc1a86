/-
  Who takes what.

  1. `World.Turn` says what one act does to one consumer: it leaves it alone, lets it make its next
     step, or ends it (`exists_turn`).  What is said below of a consumer is said turn by turn.

  2. A step takes out of the queue what stood at its front, or nothing (`Move.queue`), and only a
     consumer with the receiver takes anything.  `World.taken` lists who took which event in a row of
     acts.  Over any row, what waited at first and what came in are what was taken, in order, and
     what waits at the end (`queue_run`); so each event that is taken is the first one that was not
     taken before.

  3. What a consumer had in hand and what it took is what it is done with and what it has in hand
     then (`hands_run`).

  4. A consumer that has ended does nothing any more (`run_ended`).
-/
import ShortLink.Proofs.Pipeline.Ledger

namespace ShortLink.Pipeline

variable {ε ρ σ : Type}

/-! ## One act and one consumer -/

namespace World

/-- What an act does to the consumer with a number. -/
inductive Turn (w : World ε ρ σ) (i : Nat) (c : Consumer ε ρ) : Act ε ρ σ → Consumer ε ρ → Prop where
  /-- It is left as it is: the act is not its own, or it has to wait. -/
  | rest {a} (hw : ∀ stage, a = .work i stage →
      c.step? stage (w.signals c.signal) w.now w.pipeline = none) (hc : a ≠ .cut i) : Turn w i c a c
  /-- It makes a step. -/
  | move {stage c' p'} (hm : c.Move stage (w.signals c.signal) w.now w.pipeline c' p')
      (ha : w.act (.work i stage) = w.put i (c', p')) : Turn w i c (.work i stage) c'
  /-- It is ended. -/
  | cut (ha : w.act (.cut i) = w.put i (c.stop w.pipeline)) :
      Turn w i c (.cut i) (c.stop w.pipeline).1

@[simp] theorem pipeline_put (w : World ε ρ σ) (i : Nat) (change : Consumer ε ρ × Pipeline ε σ) :
    (w.put i change).pipeline = change.2 := rfl

theorem consumers_put (w : World ε ρ σ) (i : Nat) (change : Consumer ε ρ × Pipeline ε σ) (j : Nat) :
    (w.put i change).consumers[j]? =
      if i = j then w.consumers[j]?.map fun _ => change.1 else w.consumers[j]? := by
  show (w.consumers.set i change.1)[j]? = _
  rw [List.getElem?_set']
  rfl

theorem consumers_put_self {w : World ε ρ σ} {i : Nat} {c : Consumer ε ρ}
    (hc : w.consumers[i]? = some c) (change : Consumer ε ρ × Pipeline ε σ) :
    (w.put i change).consumers[i]? = some change.1 := by
  rw [consumers_put, if_pos rfl, hc, Option.map_some]

theorem act_work {w : World ε ρ σ} {i : Nat} {c : Consumer ε ρ} (hc : w.consumers[i]? = some c)
    (stage : Stage ε ρ σ) :
    w.act (.work i stage) =
      ((c.step? stage (w.signals c.signal) w.now w.pipeline).map (w.put i)).getD w := by
  simp only [act, workOf?, hc, Option.bind_some]

/-- A move that a consumer can make is what its turn does. -/
theorem act_of_move {w : World ε ρ σ} {i : Nat} {c c' : Consumer ε ρ} {stage : Stage ε ρ σ}
    {p' : Pipeline ε σ} (hc : w.consumers[i]? = some c)
    (hm : c.Move stage (w.signals c.signal) w.now w.pipeline c' p') :
    w.act (.work i stage) = w.put i (c', p') := by
  rw [act_work hc, hm.step?, Option.map_some, Option.getD_some]

theorem act_cut {w : World ε ρ σ} {i : Nat} {c : Consumer ε ρ} (hc : w.consumers[i]? = some c) :
    w.act (.cut i) = w.put i (c.stop w.pipeline) := by
  simp only [act, hc, Option.map_some, Option.getD_some]

/-- An act of another consumer leaves a consumer as it is. -/
theorem consumers_act_of_ne (w : World ε ρ σ) {i : Nat} {a : Act ε ρ σ}
    (hw : ∀ stage, a ≠ .work i stage) (hc : a ≠ .cut i) {c : Consumer ε ρ}
    (h : w.consumers[i]? = some c) : (w.act a).consumers[i]? = some c := by
  refine act_cases (motive := fun v => v.consumers[i]? = some c) w a h ?submit ?start ?work ?cut
    ?around
  case submit => exact fun _ _ => h
  case start =>
    intro k _
    show (w.consumers ++ _)[i]? = some c
    rw [List.getElem?_append_left (List.getElem?_eq_some_iff.mp h).1, h]
  case work =>
    intro j stage d d' p' ha _ _
    have other : j ≠ i := by
      rintro rfl
      exact hw stage ha
    rw [consumers_put, if_neg other, h]
  case cut =>
    intro j d ha _
    have other : j ≠ i := by
      rintro rfl
      exact hc ha
    rw [consumers_put, if_neg other, h]
  case around => exact fun _ _ => h

/-- **An act leaves a consumer alone, lets it make a step or ends it.** -/
theorem exists_turn {w : World ε ρ σ} {i : Nat} {c : Consumer ε ρ} (h : w.consumers[i]? = some c)
    (a : Act ε ρ σ) : ∃ c', (w.act a).consumers[i]? = some c' ∧ w.Turn i c a c' := by
  by_cases hw : ∃ stage, a = .work i stage
  · obtain ⟨stage, rfl⟩ := hw
    have acted := act_work h stage
    cases hs : c.step? stage (w.signals c.signal) w.now w.pipeline with
    | none =>
      rw [hs] at acted
      refine ⟨c, by rw [acted]; exact h, .rest ?_ nofun⟩
      intro stage' ha
      cases ha
      exact hs
    | some change =>
      rw [hs] at acted
      exact ⟨change.1, by rw [acted]; exact consumers_put_self h change, .move (.of_step? hs) acted⟩
  · by_cases hc : a = .cut i
    · subst hc
      exact ⟨_, by rw [act_cut h]; exact consumers_put_self h _, .cut (act_cut h)⟩
    · have hw : ∀ stage, a ≠ .work i stage := fun stage ha => hw ⟨stage, ha⟩
      exact ⟨c, consumers_act_of_ne w hw hc h, .rest (fun stage ha => absurd ha (hw stage)) hc⟩

end World

/-! ## What a step takes -/

namespace Consumer

variable {stage : Stage ε ρ σ} {signal : Signal} {now : Nat} {c c' : Consumer ε ρ}
  {p p' : Pipeline ε σ}

/-- Only a consumer that asks the queue takes an event, which is the first of the queue. -/
theorem picks?_eq_some_iff {event : ε} :
    c.picks? p = some event ↔ c.phase = .taking ∧ p.queue.head? = some event := by
  cases hc : c.phase <;> simp [picks?, hc]

theorem owns_of_picks? {event : ε} (h : c.picks? p = some event) : c.owns = true := by
  simp [owns, (picks?_eq_some_iff.mp h).1]

/-- A consumer keeps its signal. -/
theorem Move.signal_eq (h : Move stage signal now c p c' p') : c'.signal = c.signal := by
  cases h <;> rfl

/-- **What a step takes out of the queue stood at its front.** -/
theorem Move.queue (h : Move stage signal now c p c' p') :
    p.queue = (c.picks? p).toList ++ p'.queue := by
  cases h with
  | take hc => simp [picks?, hc, takeReceiver]
  | turnedAway hc => simp [picks?, hc]
  | look hc => simp [picks?, hc]
  | halt hc => simp [picks?, hc, queue_stop]
  | notice hc => simp [picks?, hc]
  | close hc => simp [picks?, hc, queue_stop]
  | turn hc => simp [picks?, hc]
  | doze hc hq => simp [picks?, hc, hq]
  | pick hc hq => simp [picks?, hc, hq, takeOut]
  | pickBroken hc hq => simp [picks?, hc, hq, takeOut, queue_stop]
  | settle hc => simp [picks?, hc, queue_count]
  | settleBroken hc => simp [picks?, hc, queue_stop]

theorem room_stop (c : Consumer ε ρ) (p : Pipeline ε σ) : (c.stop p).2.room = p.room := by
  rw [stop_pipeline]

theorem room_count (p : Pipeline ε σ) (outcome : Persisted) : (p.count outcome).room = p.room := by
  cases outcome <;> rfl

/-- A step makes as much room as it takes out of the queue. -/
theorem Move.room (h : Move stage signal now c p c' p') :
    p'.room + p'.queue.length = p.room + p.queue.length := by
  cases h with
  | take => rfl
  | turnedAway => rfl
  | look => rfl
  | halt => rw [room_stop, queue_stop]
  | notice => rfl
  | close => rw [room_stop, queue_stop]
  | turn => rfl
  | doze => rfl
  | pick hc hq =>
    rw [hq]
    exact Nat.add_right_comm ..
  | pickBroken hc hq =>
    rw [room_stop, queue_stop, hq]
    exact Nat.add_right_comm ..
  | settle => rw [room_count, queue_count]
  | settleBroken => rw [room_stop, queue_stop]

/-- A consumer that has to wait takes nothing. -/
theorem picks?_of_step?_eq_none (h : c.step? stage signal now p = none) :
    c.picks? p = none := by
  cases hp : c.picks? p with
  | none => rfl
  | some event =>
    obtain ⟨hc, hq⟩ := picks?_eq_some_iff.mp hp
    obtain ⟨queue, hq⟩ := List.head?_eq_some_iff.mp hq
    simp only [step?, hc, hq] at h
    cases he : stage.enrich event <;> simp [he] at h

/-- What a consumer had in hand and what it takes is what it is done with and what it has then. -/
theorem Move.hands (h : Move stage signal now c p c' p') :
    c.inHand?.toList ++ (c.picks? p).toList =
      ((c.settles? stage now p).map Prod.fst).toList ++ c'.inHand?.toList := by
  cases h with
  | take hc => simp [picks?, settles?, inHand?, enter, hc]
  | turnedAway hc => simp [picks?, settles?, inHand?, enter, hc]
  | look hc => simp [picks?, settles?, inHand?, seeing, hc]
  | halt hc => simp [picks?, settles?, inHand?, stop, enter, hc]
  | notice hc => simp [picks?, settles?, inHand?, seeing, hc]
  | close hc => simp [picks?, settles?, inHand?, stop, enter, hc]
  | turn hc => simp [picks?, settles?, inHand?, enter, hc]
  | doze hc hq => simp [picks?, settles?, inHand?, enter, hc, hq]
  | pick hc hq he => simp [picks?, settles?, inHand?, enter, hc, hq, he]
  | pickBroken hc hq he => simp [picks?, settles?, inHand?, stop, enter, hc, hq, he]
  | settle hc hd => simp [picks?, settles?, inHand?, enter, hc, Nat.not_lt.mpr hd]
  | settleBroken hc hd => simp [picks?, settles?, inHand?, stop, enter, hc, Nat.not_lt.mpr hd]

end Consumer

/-! ## What a row of acts takes -/

namespace World

/-- The event that an act brings into the queue. -/
def accepted? (w : World ε ρ σ) : Act ε ρ σ → Option ε
  | .submit event => if (w.submit event).1 then some event else none
  | _ => none

/-- The event that an act takes out of the queue, after the number of the consumer that takes it. -/
def taken? (w : World ε ρ σ) : Act ε ρ σ → Option (Nat × ε)
  | .work i _ => (w.consumers[i]?.bind fun c => c.picks? w.pipeline).map
      fun event => (i, event)
  | _ => none

/-- The events that a row of acts takes out of the queue, the first one first. -/
def taken (w : World ε ρ σ) : List (Act ε ρ σ) → List (Nat × ε)
  | [] => []
  | a :: acts => (w.taken? a).toList ++ (w.act a).taken acts

theorem run_append (w : World ε ρ σ) (acts more : List (Act ε ρ σ)) :
    w.run (acts ++ more) = (w.run acts).run more := by
  simp [run]

/-- A row of acts adds what its acts add, one after the other. -/
structure Accrues {β : Type} (one : World ε ρ σ → Act ε ρ σ → List β)
    (row : World ε ρ σ → List (Act ε ρ σ) → List β) : Prop where
  nil : ∀ w, row w [] = []
  cons : ∀ w a acts, row w (a :: acts) = one w a ++ row (w.act a) acts

namespace Accrues

variable {β : Type} {one : World ε ρ σ → Act ε ρ σ → List β}
  {row : World ε ρ σ → List (Act ε ρ σ) → List β}

theorem append (h : Accrues one row) (w : World ε ρ σ) (acts more : List (Act ε ρ σ)) :
    row w (acts ++ more) = row w acts ++ row (w.run acts) more := by
  induction acts generalizing w with
  | nil => rw [h.nil, List.nil_append, List.nil_append]; rfl
  | cons a acts ih =>
    rw [List.cons_append, h.cons, h.cons, ih, List.append_assoc]
    rfl

theorem concat (h : Accrues one row) (w : World ε ρ σ) (acts : List (Act ε ρ σ))
    (a : Act ε ρ σ) : row w (acts ++ [a]) = row w acts ++ one (w.run acts) a := by
  rw [h.append, h.cons, h.nil, List.append_nil]

/-- What a row of acts adds is added by one of them. -/
theorem exists_of_mem (h : Accrues one row) {w : World ε ρ σ} {acts : List (Act ε ρ σ)} {t : β}
    (ht : t ∈ row w acts) : ∃ pre a, pre ++ [a] <+: acts ∧ t ∈ one (w.run pre) a := by
  induction acts generalizing w with
  | nil => rw [h.nil] at ht; cases ht
  | cons a acts ih =>
    rw [h.cons] at ht
    rcases List.mem_append.mp ht with ht | ht
    · exact ⟨[], a, List.cons_prefix_cons.mpr ⟨rfl, List.nil_prefix⟩, ht⟩
    · obtain ⟨pre, b, hp, hb⟩ := ih ht
      exact ⟨a :: pre, b, List.cons_prefix_cons.mpr ⟨rfl, hp⟩, hb⟩

end Accrues

theorem taken_accrues :
    Accrues (fun (w : World ε ρ σ) a => (w.taken? a).toList) World.taken :=
  ⟨fun _ => rfl, fun _ _ _ => rfl⟩

theorem accepted_note (l : Ledger ε ρ) (w : World ε ρ σ) (a : Act ε ρ σ) :
    (l.note w a).accepted = l.accepted ++ (w.accepted? a).toList := by
  cases a with
  | submit event =>
    simp only [Ledger.note, accepted?]
    split <;> simp
  | _ => exact (List.append_nil _).symm

/-- An event that is taken was waited for by a consumer that has the receiver. -/
theorem taken?_eq_some_iff {w : World ε ρ σ} {a : Act ε ρ σ} {i : Nat} {event : ε} :
    w.taken? a = some (i, event) ↔ ∃ stage c, a = .work i stage ∧ w.consumers[i]? = some c ∧
      c.picks? w.pipeline = some event := by
  constructor
  · intro h
    cases a with
    | work j stage =>
      obtain ⟨e, he, hj⟩ := Option.map_eq_some_iff.mp h
      obtain ⟨c, hc, hp⟩ := Option.bind_eq_some_iff.mp he
      cases hj
      exact ⟨stage, c, rfl, hc, hp⟩
    | _ => cases h
  · rintro ⟨stage, c, rfl, hc, hp⟩
    simp [taken?, hc, hp]

/-- An act takes what is first in the queue, or brings something to its end, or leaves it. -/
theorem queue_act (w : World ε ρ σ) (a : Act ε ρ σ) :
    w.pipeline.queue ++ (w.accepted? a).toList =
      ((w.taken? a).map Prod.snd).toList ++ (w.act a).pipeline.queue := by
  cases a with
  | submit event =>
    show w.pipeline.queue ++ (if (w.submit event).1 then some event else none).toList =
      (w.submit event).2.queue
    exact offer_cases (motive := fun r =>
        w.pipeline.queue ++ (if r.1 then some event else none).toList = r.2.queue)
      (w.receivers = 0) w.pipeline event (fun _ _ => rfl) (fun _ => List.append_nil _)
  | work i stage =>
    have nothing : (w.accepted? (.work i stage)).toList = [] := rfl
    rw [nothing, List.append_nil]
    cases hc : w.consumers[i]? with
    | none => simp [taken?, act, workOf?, hc]
    | some c =>
      rw [act_work hc]
      cases hs : c.step? stage (w.signals c.signal) w.now w.pipeline with
      | none => simp [taken?, hc, Consumer.picks?_of_step?_eq_none hs]
      | some change =>
        have moved := (Consumer.Move.of_step? hs).queue
        simpa [taken?, hc, Function.comp_def] using moved
  | cut i =>
    cases hc : w.consumers[i]? with
    | none => simp [accepted?, taken?, act, hc]
    | some c =>
      rw [act_cut hc]
      simp [accepted?, taken?, Consumer.queue_stop]
  | _ => simp [accepted?, taken?, act, signalled]

/-- **Events are taken in order.** Those that waited and those that came in are those that were
taken, then those that wait. -/
theorem queue_run (w : World ε ρ σ) (acts : List (Act ε ρ σ)) :
    w.pipeline.queue ++ (w.ledger acts).accepted =
      (w.taken acts).map Prod.snd ++ (w.run acts).pipeline.queue := by
  induction acts using List.reverseRecOn with
  | nil => exact List.append_nil _
  | append_singleton acts a ih =>
    have last := (w.run acts).queue_act a
    rw [ledger_concat, accepted_note, taken_accrues.concat, run_concat, ← List.append_assoc, ih,
      List.append_assoc, last, List.map_append, List.append_assoc]
    cases (w.run acts).taken? a <;> rfl

/-- Without the receiver nobody takes anything. -/
theorem owns_of_taken? {w : World ε ρ σ} {a : Act ε ρ σ} {i : Nat} {event : ε}
    (h : w.taken? a = some (i, event)) : ∃ c, w.consumers[i]? = some c ∧ c.owns = true := by
  obtain ⟨stage, c, -, hc, hp⟩ := taken?_eq_some_iff.mp h
  exact ⟨c, hc, Consumer.owns_of_picks? hp⟩

/-! ## What one consumer is done with -/

/-- The event with which an act makes the consumer with a number be done, and what becomes of it. -/
def settledBy? (w : World ε ρ σ) (i : Nat) : Act ε ρ σ → Option (ε × Fate ρ)
  | .work j stage =>
    if j = i then
      w.consumers[i]?.bind fun c => c.settles? stage w.now w.pipeline
    else none
  | .cut j =>
    if j = i then (w.consumers[i]?.bind Consumer.inHand?).map fun event => (event, .lost) else none
  | _ => none

/-- The events with which a consumer is done in a row of acts, and what becomes of them. -/
def settledBy (w : World ε ρ σ) (i : Nat) : List (Act ε ρ σ) → List (ε × Fate ρ)
  | [] => []
  | a :: acts => (w.settledBy? i a).toList ++ (w.act a).settledBy i acts

theorem settledBy_accrues (i : Nat) :
    Accrues (fun (w : World ε ρ σ) a => (w.settledBy? i a).toList) fun w => w.settledBy i :=
  ⟨fun _ => rfl, fun _ _ _ => rfl⟩

/-- The events that a consumer takes in a row of acts. -/
def takenBy (w : World ε ρ σ) (i : Nat) (acts : List (Act ε ρ σ)) : List ε :=
  ((w.taken acts).filter fun t => t.1 == i).map Prod.snd

theorem takenBy_cons (w : World ε ρ σ) (i : Nat) (a : Act ε ρ σ) (acts : List (Act ε ρ σ)) :
    w.takenBy i (a :: acts) = w.takenBy i [a] ++ (w.act a).takenBy i acts := by
  simp [takenBy, taken]

theorem takenBy_eq_nil_iff {w : World ε ρ σ} {i : Nat} {acts : List (Act ε ρ σ)} :
    w.takenBy i acts = [] ↔ ∀ event, (i, event) ∉ w.taken acts := by
  rw [takenBy, List.map_eq_nil_iff, List.filter_eq_nil_iff]
  constructor
  · intro h event ht
    exact h _ ht (beq_self_eq_true i)
  · rintro h ⟨j, event⟩ ht hj
    obtain rfl := beq_iff_eq.mp hj
    exact h event ht

theorem takenBy_singleton_eq_nil_iff {w : World ε ρ σ} {i : Nat} {a : Act ε ρ σ} :
    w.takenBy i [a] = [] ↔ ∀ event, w.taken? a ≠ some (i, event) := by
  simp [takenBy_eq_nil_iff, taken]

/-- A consumer takes nothing by an act that is not its own. -/
theorem takenBy_of_ne {w : World ε ρ σ} {i : Nat} {a : Act ε ρ σ} (hw : ∀ stage, a ≠ .work i stage) :
    w.takenBy i [a] = [] := by
  rw [takenBy_singleton_eq_nil_iff]
  intro event ht
  obtain ⟨stage, -, ha, -, -⟩ := taken?_eq_some_iff.mp ht
  exact hw stage ha

/-- A consumer without the receiver takes nothing. -/
theorem takenBy_of_not_owns {w : World ε ρ σ} {i : Nat} {c : Consumer ε ρ}
    (hc : w.consumers[i]? = some c) (ho : c.owns = false) (a : Act ε ρ σ) :
    w.takenBy i [a] = [] := by
  rw [takenBy_singleton_eq_nil_iff]
  intro event ht
  obtain ⟨d, hd, owns⟩ := owns_of_taken? ht
  obtain rfl : c = d := Option.some.inj (hc.symm.trans hd)
  rw [ho] at owns
  cases owns

theorem takenBy_work {w : World ε ρ σ} {i : Nat} {c : Consumer ε ρ} (hc : w.consumers[i]? = some c)
    (stage : Stage ε ρ σ) :
    w.takenBy i [.work i stage] = (c.picks? w.pipeline).toList := by
  simp only [takenBy, taken, taken?, hc, Option.bind_some]
  cases c.picks? w.pipeline <;> simp

theorem settledBy?_work {w : World ε ρ σ} {i : Nat} {c : Consumer ε ρ}
    (hc : w.consumers[i]? = some c) (stage : Stage ε ρ σ) :
    w.settledBy? i (.work i stage) = c.settles? stage w.now w.pipeline := by
  simp only [settledBy?, if_true, hc, Option.bind_some]

theorem settledBy?_of_ne {w : World ε ρ σ} {i : Nat} {a : Act ε ρ σ}
    (hw : ∀ stage, a ≠ .work i stage) (hc : a ≠ .cut i) : w.settledBy? i a = none := by
  cases a with
  | work j stage =>
    refine if_neg ?_
    rintro rfl
    exact hw stage rfl
  | cut j =>
    refine if_neg ?_
    rintro rfl
    exact hc rfl
  | _ => rfl

/-- One act: what a consumer had and takes is what it is done with and what it has then. -/
theorem Turn.hands {w : World ε ρ σ} {i : Nat} {c c' : Consumer ε ρ} {a : Act ε ρ σ}
    (h : w.Turn i c a c') (hc : w.consumers[i]? = some c) :
    c.inHand?.toList ++ w.takenBy i [a] =
      ((w.settledBy? i a).map Prod.fst).toList ++ c'.inHand?.toList := by
  cases h with
  | rest hw hcut =>
    by_cases own : ∃ stage, a = .work i stage
    · obtain ⟨stage, rfl⟩ := own
      have waits := hw stage rfl
      rw [takenBy_work hc, settledBy?_work hc, Consumer.picks?_of_step?_eq_none waits,
        Consumer.settles?_of_step?_eq_none waits]
      exact List.append_nil _
    · have other : ∀ stage, a ≠ .work i stage := fun stage ha => own ⟨stage, ha⟩
      rw [takenBy_of_ne other, settledBy?_of_ne other hcut]
      exact List.append_nil _
  | move hm =>
    rw [takenBy_work hc, settledBy?_work hc]
    exact hm.hands
  | cut =>
    have lost : w.settledBy? i (.cut i) = c.inHand?.map fun event => (event, .lost) := by
      simp only [settledBy?, if_true, hc, Option.bind_some]
    have other : ∀ stage : Stage ε ρ σ, Act.cut i ≠ .work i stage := by simp
    rw [takenBy_of_ne other, lost]
    cases c.inHand? <;> rfl

/-- **What a consumer has in hand and takes is what it is done with and what it has at the end.** -/
theorem hands_run {w : World ε ρ σ} {i : Nat} {c : Consumer ε ρ} (hc : w.consumers[i]? = some c)
    (acts : List (Act ε ρ σ)) : ∃ c', (w.run acts).consumers[i]? = some c' ∧
      c.inHand?.toList ++ w.takenBy i acts =
        (w.settledBy i acts).map Prod.fst ++ c'.inHand?.toList := by
  induction acts generalizing w c with
  | nil => exact ⟨c, hc, List.append_nil _⟩
  | cons a acts ih =>
    obtain ⟨d, hd, turn⟩ := exists_turn hc a
    obtain ⟨c', hc', rest⟩ := ih hd
    refine ⟨c', hc', ?_⟩
    have first := turn.hands hc
    rw [takenBy_cons, ← List.append_assoc, first, List.append_assoc, rest, settledBy,
      List.map_append, List.append_assoc]
    cases w.settledBy? i a <;> rfl

/-! ## The end of a consumer -/

theorem Turn.signal_eq {w : World ε ρ σ} {i : Nat} {c c' : Consumer ε ρ} {a : Act ε ρ σ}
    (h : w.Turn i c a c') : c'.signal = c.signal := by
  cases h with
  | rest => rfl
  | move hm => exact hm.signal_eq
  | cut => rfl

/-- A consumer that has ended does nothing any more. -/
theorem Turn.eq_of_ended {w : World ε ρ σ} {i : Nat} {c c' : Consumer ε ρ} {a : Act ε ρ σ}
    (h : w.Turn i c a c') (he : c.phase = .ended) : c' = c := by
  cases h with
  | rest => rfl
  | move hm => cases hm <;> simp_all
  | cut => rw [Consumer.stop, Consumer.enter, ← he]

theorem run_ended {w : World ε ρ σ} {i : Nat} {c : Consumer ε ρ} (hc : w.consumers[i]? = some c)
    (he : c.phase = .ended) (acts : List (Act ε ρ σ)) :
    (w.run acts).consumers[i]? = some c ∧ w.takenBy i acts = [] := by
  induction acts generalizing w with
  | nil => exact ⟨hc, rfl⟩
  | cons a acts ih =>
    obtain ⟨c', hc', turn⟩ := exists_turn hc a
    rw [turn.eq_of_ended he] at hc'
    obtain ⟨same, rest⟩ := ih hc'
    refine ⟨same, ?_⟩
    have idle : c.owns = false := by simp only [Consumer.owns, he]
    rw [takenBy_cons, takenBy_of_not_owns hc idle, rest, List.append_nil]

end World

end ShortLink.Pipeline
