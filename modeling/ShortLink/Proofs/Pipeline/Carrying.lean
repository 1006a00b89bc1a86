/-
  One event on its way through a consumer.

  A consumer that has an event in hand hands its record to the sink when the time has come, whatever its
  signal says in the meantime: it looks at the signal only between events.  So an event that was taken
  out is written, even if the consumer is told to stop while it has it.

  `Carried` says how far the event is.  It is kept by each move of the consumer (`Carried.move`), so by
  all that it does without waiting (`Carried.poll`), and so while time passes (`Carries.advance`); after
  the time for which the consumer waits the event is done (`Carries.finish`).
-/
import ShortLink.Proofs.Pipeline.Draining

namespace ShortLink.Pipeline

variable {ε ρ σ : Type}

/-- An event on its way: the consumer has it in hand until `limit` at most, or its record was handed to
the sink and counted as written. No other event waits. -/
inductive Carried (limit : Nat) (record : ρ) (sink written : σ) (c : Consumer ε ρ)
    (p : Pipeline ε σ) : Prop
  | inHand {event : ε} {due : Nat} (phase : c.phase = .processing event record due)
      (soon : due ≤ limit) (queue : p.queue = []) (before : p.sink = sink)
      (persisted : p.stats.persisted = 0) : Carried limit record sink written c p
  | done (phase : c.phase = .checking ∨ c.phase = .waiting ∨ c.phase = .taking ∨ c.phase = .ended)
      (queue : p.queue = []) (after : p.sink = written) (persisted : p.stats.persisted = 1) :
      Carried limit record sink written c p

/-- An event was handed to the sink. -/
structure Delivered (written : σ) (p : Pipeline ε σ) : Prop where
  sink : p.sink = written
  persisted : p.stats.persisted = 1

namespace Carried

variable {stage : Stage ε ρ σ} {signal : Signal} {now limit : Nat} {record : ρ} {sink written : σ}
  {c c' : Consumer ε ρ} {p p' : Pipeline ε σ}

/-- A consumer that stops when it is done leaves all as it is. -/
theorem stop (queue : p.queue = []) (after : p.sink = written) (persisted : p.stats.persisted = 1) :
    Carried limit record sink written (c.stop p).1 (c.stop p).2 := by
  rw [Consumer.stop_pipeline]
  exact .done (.inr (.inr (.inr rfl))) queue after persisted

/-- **Each move brings the event on, or leaves it where it is.** -/
theorem move (writes : stage.persist record sink = (.done, written))
    (h : Carried limit record sink written c p) (hm : c.Move stage signal now p c' p') :
    Carried limit record sink written c' p' := by
  cases h with
  | inHand phase soon queue before persisted =>
    -- the only move is to hand the record to the sink, which takes it
    cases hm with
    | settle hc hd hs ho =>
      rw [phase] at hc
      cases hc
      rw [before, writes] at hs
      cases hs
      exact .done (.inl rfl) queue rfl (congrArg (· + 1) persisted)
    | settleBroken hc hd hs =>
      rw [phase] at hc
      cases hc
      rw [before, writes] at hs
      cases hs
    | take hc | turnedAway hc | look hc | halt hc | notice hc | close hc | turn hc | doze hc
    | pick hc | pickBroken hc =>
      rw [phase] at hc
      cases hc
  | done phase queue after persisted =>
    cases hm with
    | look hc hv => exact .done (.inr (.inl rfl)) queue after persisted
    | halt hc hv => exact stop queue after persisted
    | notice hc hs => exact .done (.inl rfl) queue after persisted
    | close hc hs hl => exact stop queue after persisted
    | turn hc hs hl => exact .done (.inr (.inr (.inl rfl))) queue after persisted
    | doze hc hq => exact .done (.inr (.inl rfl)) queue after persisted
    | pick hc hq he =>
      rw [queue] at hq
      cases hq
    | pickBroken hc hq he =>
      rw [queue] at hq
      cases hq
    | take hc | turnedAway hc | settle hc | settleBroken hc =>
      rw [hc] at phase
      rcases phase with h | h | h | h <;> cases h

/-- All that a consumer does without waiting keeps the event on its way. -/
theorem poll (writes : stage.persist record sink = (.done, written))
    (h : Carried limit record sink written c p) :
    Carried limit record sink written (c.poll stage signal now p).1
      (c.poll stage signal now p).2 := by
  fun_induction Consumer.poll stage signal now c p with
  | case1 c p c' p' hs _ ih => exact ih (h.move writes (.of_step? (Consumer.step?_of_next? hs)))
  | case2 c p hs => exact h

/-- What a consumer that takes the event out does without waiting. -/
theorem poll_pick {event : ε} (writes : stage.persist record p.sink = (.done, written))
    (hc : c.phase = .waiting) (hs : signal.changedSince c.seen = false)
    (hl : signal.closed = false) (hq : p.queue = [event]) (he : stage.enrich event = some record)
    (hp : p.stats.persisted = 0) :
    Carried (now + stage.delay) record p.sink written (c.poll stage signal now p).1
      (c.poll stage signal now p).2 := by
  rw [Consumer.poll_pick hc hs hl hq he]
  exact poll writes (.inHand rfl (Nat.le_refl _) rfl rfl hp)

end Carried

/-- Where a consumer stays, there is no step to make without waiting. -/
theorem Consumer.next?_poll (stage : Stage ε ρ σ) (signal : Signal) (now : Nat) (c : Consumer ε ρ)
    (p : Pipeline ε σ) :
    (c.poll stage signal now p).1.next? stage signal now (c.poll stage signal now p).2 = none := by
  fun_induction Consumer.poll stage signal now c p with
  | case1 c p c' p' hs _ ih => exact ih
  | case2 c p hs => exact hs

/-- **When the time has come the event is done.** -/
theorem Carried.delivered_poll {stage : Stage ε ρ σ} {signal : Signal} {now limit : Nat} {record : ρ}
    {sink written : σ} {c : Consumer ε ρ} {p : Pipeline ε σ}
    (writes : stage.persist record sink = (.done, written))
    (h : Carried limit record sink written c p) (late : limit ≤ now) :
    Delivered written (c.poll stage signal now p).2 := by
  have polled : Carried limit record sink written (c.poll stage signal now p).1
      (c.poll stage signal now p).2 := h.poll writes
  cases polled with
  | inHand phase soon queue before persisted =>
    have stays := Consumer.next?_poll stage signal now c p
    have due : ¬ now < _ := Nat.not_lt.mpr (Nat.le_trans soon late)
    simp [Consumer.next?, Consumer.isAsleep, Consumer.step?, phase, due, before, writes] at stays
  | done phase queue after persisted => exact ⟨after, persisted⟩

namespace Run

/-- A run with a single consumer and a single event on its way. -/
def Carries (limit : Nat) (record : ρ) (sink written : σ) (r : Run ε ρ σ) : Prop :=
  ∃ c, r.consumers = [c] ∧ Carried limit record sink written c r.pipeline

namespace Carries

variable {stage : Stage ε ρ σ} {limit : Nat} {record : ρ} {sink written : σ} {r : Run ε ρ σ}

theorem settle (writes : stage.persist record sink = (.done, written))
    (h : r.Carries limit record sink written) :
    (r.settle stage).Carries limit record sink written := by
  obtain ⟨c, hc, hp⟩ := h
  rw [settle_singleton hc]
  exact ⟨_, rfl, hp.poll writes⟩

/-- **Time passes**, and the event stays on its way. -/
theorem advanceTo (writes : stage.persist record sink = (.done, written))
    (h : r.Carries limit record sink written) (target : Nat) :
    (r.advanceTo stage target).Carries limit record sink written := by
  fun_induction Run.advanceTo stage target r with
  | case1 r t ht hl ih => exact ih (settle (r := { r with now := t }) writes h)
  | case2 r t ht hl => exact h
  | case3 r ht => exact h

theorem advance (writes : stage.persist record sink = (.done, written))
    (h : r.Carries limit record sink written) (duration : Nat) :
    (r.advance stage duration).Carries limit record sink written :=
  ((h.settle writes).advanceTo writes _).settle writes

theorem send (writes : stage.persist record sink = (.done, written))
    (h : r.Carries limit record sink written) (value : Bool) :
    (r.send stage value).2.Carries limit record sink written :=
  settle (r := { r with signals := (r.signals.send value).2 }) writes h

/-- When the time for the event is over, it is done. -/
theorem delivered_advance (writes : stage.persist record sink = (.done, written))
    (h : r.Carries limit record sink written) {duration : Nat} (late : limit ≤ r.now + duration) :
    Delivered written (r.advance stage duration).pipeline := by
  obtain ⟨c, hc, hp⟩ := (h.settle writes).advanceTo writes (r.now + duration)
  rw [Run.advance, settle_singleton hc]
  refine hp.delivered_poll writes ?_
  rw [now_advanceTo]
  exact late

/-- **A consumer that is waited for has written the event.** -/
theorem finish (writes : stage.persist record sink = (.done, written))
    (h : r.Carries limit record sink written) : Delivered written (r.finish stage).pipeline := by
  obtain ⟨c, hc, hp⟩ := h
  cases hp with
  | @inHand event due phase soon queue before persisted =>
    -- the time that is let pass is the one for which this consumer waits
    have waits : (r.consumers.filterMap Consumer.due?).max? = some due := by
      simp [hc, Consumer.due?, phase]
    have here : r.Carries due record sink written :=
      ⟨c, hc, .inHand phase (Nat.le_refl due) queue before persisted⟩
    rw [Run.finish, waits]
    exact here.delivered_advance writes (by rw [Option.getD_some]; omega)
  | done phase queue after persisted =>
    have here : r.Carries 0 record sink written := ⟨c, hc, .done phase queue after persisted⟩
    exact here.delivered_advance writes (Nat.zero_le _)

end Carries

/-- A consumer that was started on an empty queue waits for an event. -/
theorem start_create (stage : Stage ε ρ σ) (capacity : Nat) (sink : σ) :
    (create capacity sink).start stage =
      (⟨0, Signals.start, (Pipeline.create capacity sink).takeReceiver, [⟨0, 0, .waiting⟩]⟩ :
        Run ε ρ σ) := by
  have begun : (Consumer.create 0 : Consumer ε ρ).poll stage Signal.fresh 0
      (Pipeline.create capacity sink) =
      (⟨0, 0, .waiting⟩, (Pipeline.create capacity sink).takeReceiver) := by
    rw [Consumer.poll_of_move rfl (.take rfl rfl), Consumer.poll_of_move rfl (.look rfl rfl),
      Consumer.poll_of_wait rfl]
    rfl
  rw [start, settle_singleton rfl]
  exact congrArg (fun worked => Run.mk 0 Signals.start worked.2 [worked.1]) begun

/-- **An event that waits is on its way** as soon as its consumer may work. -/
theorem carries_of_queued {stage : Stage ε ρ σ} {record : ρ} {written : σ} {r : Run ε ρ σ} {event : ε}
    {c : Consumer ε ρ} (writes : stage.persist record r.pipeline.sink = (.done, written))
    (hc : r.consumers = [c]) (waits : c.phase = .waiting)
    (hs : (r.signals.get c.signal).changedSince c.seen = false)
    (hl : (r.signals.get c.signal).closed = false) (hq : r.pipeline.queue = [event])
    (he : stage.enrich event = some record) (h0 : r.pipeline.stats.persisted = 0) :
    (r.settle stage).Carries (r.now + stage.delay) record r.pipeline.sink written := by
  rw [settle_singleton hc]
  exact ⟨_, rfl, .poll_pick writes waits hs hl hq he h0⟩

end Run

end ShortLink.Pipeline
