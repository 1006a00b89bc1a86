/-
  To be told to stop, and to be told to go on.

  The main statement, `stops_when_told`, says that a consumer takes no event from the moment on at
  which its signal says "stop" for good or has lost its sender, be it before the consumer has begun or
  while it works, unless it has asked its signal already and is about to ask the queue; that one that
  does so takes one event at most, which may have come in after it was told; that it is done with that
  event or with the one in its hands, and ends; and that the others wait on, in order, for the next one
  that finds the receiver free.  A signal that says "go on" ends nobody, and how often it is said makes
  no difference to anything that can be seen.

  Most of this is put together from what is known of such a consumer (`Stopping`) and of reassurances
  (`Reassurance`).  What is added here: until it ends, a consumer that has the receiver keeps all
  others from the queue (`queue_until_end`), and one that is told to go on ends only by a breakdown,
  from outside, or for want of the receiver (`reason_of_end`).
-/
import Mathlib.Data.List.Infix
import ShortLink.Proofs.Pipeline.Reassurance

namespace ShortLink.Pipeline

variable {ε ρ σ : Type}

namespace World

variable {w : World ε ρ σ} {i : Nat} {c c' : Consumer ε ρ} {a : Act ε ρ σ}

/-- The consumer with a number has ended. -/
def HasEnded (w : World ε ρ σ) (i : Nat) : Prop :=
  ∃ c, w.consumers[i]? = some c ∧ c.phase = .ended

theorem HasEnded.run (h : w.HasEnded i) (acts : List (Act ε ρ σ)) : (w.run acts).HasEnded i := by
  obtain ⟨c, hc, he⟩ := h
  exact ⟨c, (run_ended hc he acts).1, he⟩

/-- A consumer that has not ended yet had the receiver all the time since it got it. -/
theorem owns_of_not_ended (hc : w.consumers[i]? = some c) (ho : c.owns = true)
    {acts pre : List (Act ε ρ σ)} (hp : pre <+: acts) (he : ¬ (w.run acts).HasEnded i) :
    ∃ d, (w.run pre).consumers[i]? = some d ∧ d.owns = true := by
  obtain ⟨d, hd, owns | ended⟩ := owns_or_ended hc (.inl ho) pre
  · exact ⟨d, hd, owns⟩
  · obtain ⟨post, rfl⟩ := hp
    rw [run_append] at he
    exact absurd (HasEnded.run ⟨d, hd, ended⟩ post) he

/-- **Until a consumer ends, the queue loses only what it takes**, and when it ends, the receiver is
free. -/
theorem queue_until_end (hr : w.receivers = 1) (hc : w.consumers[i]? = some c)
    (ho : c.owns = true) {acts : List (Act ε ρ σ)} (he : ¬ (w.run acts).HasEnded i) :
    w.pipeline.queue ++ (w.ledger (acts ++ [a])).accepted =
        w.takenBy i (acts ++ [a]) ++ (w.run (acts ++ [a])).pipeline.queue ∧
      ((w.run (acts ++ [a])).HasEnded i →
        (w.run (acts ++ [a])).pipeline.receiverFree = true) := by
  constructor
  · rw [w.queue_run (acts ++ [a])]
    congr 1
    refine taken_of_owned hr fun pre b hp => owns_of_not_ended hc ho ?_ he
    -- what comes before an act of the row comes before its last one
    have shorter := hp.length_le
    refine List.prefix_of_prefix_length_le ((List.prefix_append pre [b]).trans hp)
      (List.prefix_append acts [a]) ?_
    simpa using shorter
  · rintro ⟨c', hc', ended⟩
    obtain ⟨d, hd, owns⟩ := owns_of_not_ended hc ho (List.prefix_refl acts) he
    rw [run_concat] at hc' ⊢
    exact receiverFree_of_ending (receivers_of_run hr acts) hd owns
      ((ended_iff hd owns).mp ⟨c', hc', ended⟩)

/-- **A consumer that is told to go on ends only for want of the receiver, by a breakdown or from
outside.** -/
theorem reason_of_end (hc : w.consumers[i]? = some c) (hs : ¬ (w.signals c.signal).Stops)
    (he : c.phase ≠ .ended) (h : (w.act a).HasEnded i) :
    c.phase = .starting ∧ w.pipeline.receiverFree = false ∨ a = .cut i ∨
      ∃ stage event, a = .work i stage ∧ w.Breaks a event := by
  obtain ⟨c', hc', ended⟩ := h
  obtain ⟨d, hd, turn⟩ := exists_turn hc a
  obtain rfl : d = c' := Option.some.inj (hd.symm.trans hc')
  cases turn with
  | rest => exact absurd ended he
  | cut => exact .inr (.inl rfl)
  | @move stage d p hm =>
    cases hm with
    | turnedAway hp hf => exact .inl ⟨hp, hf⟩
    | halt hp hv => exact absurd (.inl hv) hs
    | close hp hn hl => exact absurd (.inr hl) hs
    | pickBroken hp hq hb =>
      exact .inr (.inr ⟨stage, _, rfl, .enriching hc hp (by rw [hq, List.head?_cons]) hb⟩)
    | settleBroken hp hd hb => exact .inr (.inr ⟨stage, _, rfl, .persisting hc hp (by rw [hb])⟩)
    -- all other steps go on
    | _ => cases ended

theorem stopsThrough_iff {k : Nat} {acts : List (Act ε ρ σ)} :
    w.StopsThrough k acts ↔ ∀ pre ∈ acts.inits, ((w.run pre).signals k).Stops := by
  simp only [StopsThrough, List.mem_inits]

instance {k : Nat} {acts : List (Act ε ρ σ)} : Decidable (w.StopsThrough k acts) :=
  decidable_of_iff _ stopsThrough_iff.symm

/-! ## What becomes of the event in hand -/

/-- A consumer loses an event only by breaking off work on it. -/
theorem breaks_of_settledBy? {event : ε} (h : w.settledBy? i a = some (event, .lost)) :
    w.Breaks a event := by
  obtain ⟨t?, ht, hb⟩ := Ledger.settled_note ⟨[], [], []⟩ w a
  have noted : ((⟨[], [], []⟩ : Ledger ε ρ).note w a).settled = [(event, .lost)] := by
    cases a with
    | work j stage =>
      simp only [settledBy?] at h
      split at h
      · next hj =>
        subst hj
        simp [Ledger.note, h]
      · cases h
    | cut j =>
      simp only [settledBy?] at h
      split at h
      · next hj =>
        subst hj
        simp [Ledger.note, h]
      · cases h
    | _ => cases h
  refine hb event ?_
  rw [ht] at noted
  exact Option.toList_eq_singleton_iff.mp noted

/-! ## When consumers end -/

/-- **A consumer stops when it is told to, and not before.** Take any moment of any run. If from then
on, through any acts, the signal of a consumer that has begun or not yet begun says "stop" or has no
sender, then: unless the consumer asks the queue just then, it takes nothing from the queue; if it
does, it takes nothing after its next step; it is done with one event at most, the one in its hands or
the one that it still takes, which it loses only by a breakdown or when it is ended from outside; with
three turns for which it need not wait, or four if it asks the queue, it has ended; if it had the
receiver, then up to the act with which it ends what was in the queue and came in, in order, is what it
took and what is still in the queue, and then the receiver is free; and whoever takes events later on
takes them in that order.

To set a signal changes neither the consumers nor the pipeline. As long as a signal says "go on" and
has its sender, a consumer that listens to it ends only for want of the receiver, by a breakdown over
an event, or from outside. Whatever was set in between, the events that came in so far are those that
were taken, in order, and those that wait. And all that was done so far has the same effect without
the settings to "go on" of signals that said so already: for the same acts but for the consumers' own
steps, and without such settings, the pipeline with its queue, what came in, what was taken by whom,
what became of it, and what the consumers have in hand, are the same. -/
theorem stops_when_told (capacity : Nat) (sink : σ) (before : List (Act ε ρ σ)) :
    let start : World ε ρ σ := create capacity sink
    let w := start.run before
    (∀ (i : Nat) (c : Consumer ε ρ) (acts : List (Act ε ρ σ)), w.consumers[i]? = some c →
      w.StopsThrough c.signal acts →
      (c.phase ≠ .taking → w.takenBy i acts = []) ∧
      (∀ pre stage post, acts = pre ++ .work i stage :: post →
        (w.run (pre ++ [.work i stage])).takenBy i post = []) ∧
      (c.inHand?.toList ++ w.takenBy i acts).length ≤ 1 ∧
      (∃ c', (w.run acts).consumers[i]? = some c' ∧
        c.inHand?.toList ++ w.takenBy i acts =
          (w.settledBy i acts).map Prod.fst ++ c'.inHand?.toList) ∧
      (∀ event, (event, .lost) ∈ w.settledBy i acts →
        ∃ pre a, pre ++ [a] <+: acts ∧ (w.run pre).Breaks a event) ∧
      ((c.phase ≠ .taking → 3 ≤ w.turns i acts → (w.run acts).HasEnded i) ∧
        (4 ≤ w.turns i acts → (w.run acts).HasEnded i)) ∧
      (c.owns = true → ∀ pre a, pre ++ [a] <+: acts → ¬ (w.run pre).HasEnded i →
        let v := w.run (pre ++ [a])
        w.pipeline.queue ++ (w.ledger (pre ++ [a])).accepted =
            w.takenBy i (pre ++ [a]) ++ v.pipeline.queue ∧
          (v.HasEnded i → v.pipeline.receiverFree = true)) ∧
      w.pipeline.queue ++ (w.ledger acts).accepted =
        (w.taken acts).map Prod.snd ++ (w.run acts).pipeline.queue) ∧
    (∀ k value, let v := w.act (.send k value)
      v.consumers = w.consumers ∧ v.pipeline = w.pipeline) ∧
    (∀ (i : Nat) (c : Consumer ε ρ) (a : Act ε ρ σ), w.consumers[i]? = some c →
      ¬ (w.signals c.signal).Stops → c.phase ≠ .ended → (w.act a).HasEnded i →
      c.phase = .starting ∧ w.pipeline.receiverFree = false ∨ a = .cut i ∨
        ∃ stage event, a = .work i stage ∧ w.Breaks a event) ∧
    (start.ledger before).accepted = (start.taken before).map Prod.snd ++ w.pipeline.queue ∧
    ∃ quiet : List (Act ε ρ σ), (∀ b ∈ quiet, b ∈ before) ∧
      quiet.filter (fun b => !b.isWork) = start.orders before ∧
      start.orders quiet = start.orders before ∧
      (start.run quiet).pipeline = w.pipeline ∧ start.ledger quiet = start.ledger before ∧
      start.taken quiet = start.taken before ∧
      (start.run quiet).consumers.map (fun c => (c.inHand?, c.owns, c.hasEnded)) =
        w.consumers.map fun c => (c.inHand?, c.owns, c.hasEnded) := by
  intro start w
  have attentive : w.Attentive := attentive_run capacity sink before
  refine ⟨fun i c acts hc hs => ?_, fun k value => ⟨rfl, rfl⟩,
    fun i c a hc hs he h => reason_of_end hc hs he h, start.queue_run before,
    start.exists_quiet_run (attentive_run capacity sink []) before⟩
  refine ⟨fun ha => takenBy_of_stops attentive hc (Consumer.asks_eq_false ha) hs, ?once,
    length_takenBy_le attentive hc hs, hands_run hc acts, ?lost, ⟨?three, ?four⟩, ?queue,
    w.queue_run acts⟩
  case once =>
    rintro pre stage post rfl
    obtain ⟨d, hd, same⟩ := exists_consumer_run hc pre
    rw [run_concat]
    refine takenBy_of_step (attentive_of_run attentive pre) hd ?_
    rw [same]
    exact hs.drop
  case lost =>
    intro event he
    obtain ⟨pre, a, hp, ht⟩ := (settledBy_accrues i).exists_of_mem he
    exact ⟨pre, a, hp, breaks_of_settledBy? (Option.mem_toList.mp ht)⟩
  case three =>
    intro ha ht
    refine ended_of_turns attentive hc hs ?_
    rw [Consumer.asks_eq_false ha]
    exact ht
  case four =>
    intro ht
    have most := Bool.toNat_le c.asks
    exact ended_of_turns attentive hc hs (by omega)
  case queue =>
    intro ho pre a _ he
    exact queue_until_end (receivers_run capacity sink before) hc ho he

/-- A consumer is told again to go on, looks at its signal and takes the first of two events; then it
is told to stop. Another one comes meanwhile, which listens to another signal. -/
def stoppedActs : List (Act Nat Nat (List Nat)) :=
  let work i := Act.work i sampleStage
  [.submit 1, .submit 2, .start 0, work 0, .send 0 false, work 0, work 0, work 0, .start 1,
    .send 0 true]

/-- The first one goes on until it ends, and one more event comes in. -/
def endingActs : List (Act Nat Nat (List Nat)) :=
  let work i := Act.work i sampleStage
  [work 0, .submit 4, work 0, work 0]

theorem stops_when_told_with_one_in_hand :
    let start : World Nat Nat (List Nat) := create 2 []
    let w := start.run stoppedActs
    let v := w.run endingActs
    w.consumers[0]? = some ⟨0, 1, .processing 1 2 0⟩ ∧ w.StopsThrough 0 endingActs ∧
    w.turns 0 endingActs = 3 ∧ w.takenBy 0 endingActs = [] ∧ v.HasEnded 0 ∧
    w.pipeline.queue = [2] ∧ v.pipeline.queue = [2, 4] ∧ v.pipeline.sink = [2] ∧
    (w.consumers[1]? = some (Consumer.create 1) ∧ (w.act (.work 1 sampleStage)).HasEnded 1 ∧
      w.pipeline.receiverFree = false) ∧
    ∃ quiet : List (Act Nat Nat (List Nat)), start.orders quiet = start.orders stoppedActs ∧
      (start.run quiet).pipeline = w.pipeline := by
  have told := stops_when_told 2 [] stoppedActs
  have first := told.1 0 ⟨0, 1, .processing 1 2 0⟩ endingActs (by decide +kernel) (by decide +kernel)
  have nothing := first.1 (by simp)
  have ended := first.2.2.2.2.2.1.1 (by simp) (by decide +kernel)
  have turnedAway : (((create 2 [] : World Nat Nat (List Nat)).run stoppedActs).act
      (.work 1 sampleStage)).HasEnded 1 := ⟨⟨1, 0, .ended⟩, by decide +kernel, rfl⟩
  have taken := told.2.2.1 1 (Consumer.create 1) (.work 1 sampleStage) (by decide +kernel)
    (by decide +kernel) (by simp [Consumer.create]) turnedAway
  obtain ⟨quiet, -, -, orders, same, -⟩ := told.2.2.2.2
  dsimp only at nothing ended taken orders same ⊢
  refine ⟨by decide +kernel, by decide +kernel, by decide +kernel, nothing, ended,
    by decide +kernel, by decide +kernel, by decide +kernel, ⟨by decide +kernel, turnedAway, ?_⟩,
    quiet, orders, same⟩
  rcases taken with ⟨-, busy⟩ | cut | ⟨stage, event, -, broken⟩
  · exact busy
  · cases cut
  · decide +kernel

/-- A consumer has taken the receiver, looked at its signal, and asked it once more. -/
def askingActs : List (Act Nat Nat (List Nat)) :=
  let work i := Act.work i sampleStage
  [.start 0, work 0, work 0, work 0]

/-- **A consumer may take an event that came in after it was told to stop, and the next one may be too
early.** In the first run the signal says "stop" from the first of the last acts on, when the consumer
has asked its signal and not yet the queue. In the second run the next consumer comes while the one that
was told to stop is still at work: it is turned away, and the event that waits is left to another one. -/
theorem taken_though_told_and_left_by_the_next :
    let work i := Act.work i sampleStage
    let w := (create 2 [] : World Nat Nat (List Nat)).run (askingActs ++ [.send 0 true])
    let acts := [.submit 1, work 0]
    let busy := (create 2 [] : World Nat Nat (List Nat)).run
      (askingActs ++ [.submit 1, .submit 2, work 0, .send 0 true, .start 1])
    let ending := [work 1, work 0, work 0]
    (w.consumers[0]? = some ⟨0, 0, .taking⟩ ∧ w.pipeline.queue = [] ∧ w.StopsThrough 0 acts ∧
      w.takenBy 0 acts = [1]) ∧
    busy.consumers[0]? = some ⟨0, 0, .processing 1 2 0⟩ ∧ busy.pipeline.queue = [2] ∧
      busy.StopsThrough 0 ending ∧ ¬ (busy.signals 1).Stops ∧
      ((busy.run ending).consumers.map fun c => c.hasEnded) = [true, true] ∧
      (busy.run ending).pipeline.queue = [2] ∧ (busy.run ending).pipeline.sink = [2] := by
  decide +kernel

end World

end ShortLink.Pipeline
