/-
  A pipeline whose consumers work in any order.

  `Run` has its consumers work in turn under one clock.  Here nothing is said about who is next:
  events are submitted, consumers are started and cut off, signals are set and closed, time passes,
  and any consumer makes its next step, each at any moment.  What a stage makes of an event, and
  what the sink says of a record, may differ from step to step.

  1. `Move` lists what one step of a consumer can do, guards included; `step?_eq_some_iff` says that
     this is all, so that no later proof takes `Consumer.step?` apart again.

  2. `World.act` is one act of the program on the whole, and `World.run` a row of them.

  3. There is one receiver.  It is free or with one consumer, whatever happens: `receivers` counts
     the places where it is, and `receivers_run` says that they are always one.
-/
import ShortLink.Pipeline.Consumer

namespace ShortLink.Pipeline

variable {ε ρ σ : Type}

namespace Consumer

/-! ## One step of a consumer -/

/-- What one step of a consumer does, by what it finds. -/
inductive Move (stage : Stage ε ρ σ) (signal : Signal) (now : Nat) :
    Consumer ε ρ → Pipeline ε σ → Consumer ε ρ → Pipeline ε σ → Prop where
  /-- It takes the receiver. -/
  | take {c p} (hc : c.phase = .starting) (hf : p.receiverFree = true) :
      Move stage signal now c p (c.enter .checking) p.takeReceiver
  /-- It finds the receiver taken. -/
  | turnedAway {c p} (hc : c.phase = .starting) (hf : p.receiverFree = false) :
      Move stage signal now c p (c.enter .ended) p
  /-- It is told to go on. -/
  | look {c p} (hc : c.phase = .checking) (hv : signal.value = false) :
      Move stage signal now c p (c.seeing signal .waiting) p
  /-- It is told to stop. -/
  | halt {c p} (hc : c.phase = .checking) (hv : signal.value = true) :
      Move stage signal now c p (c.stop p).1 (c.stop p).2
  /-- It has to look at its signal again. -/
  | notice {c p} (hc : c.phase = .waiting) (hs : signal.changedSince c.seen = true) :
      Move stage signal now c p (c.seeing signal .checking) p
  /-- Its signal's sender is gone. -/
  | close {c p} (hc : c.phase = .waiting) (hs : signal.changedSince c.seen = false)
      (hl : signal.closed = true) :
      Move stage signal now c p (c.stop p).1 (c.stop p).2
  /-- Its signal has nothing new for it. -/
  | turn {c p} (hc : c.phase = .waiting) (hs : signal.changedSince c.seen = false)
      (hl : signal.closed = false) : Move stage signal now c p (c.enter .taking) p
  /-- The queue has nothing for it. -/
  | doze {c p} (hc : c.phase = .taking) (hq : p.queue = []) :
      Move stage signal now c p (c.enter .waiting) p
  /-- It takes an event out. -/
  | pick {c p event queue record} (hc : c.phase = .taking) (hq : p.queue = event :: queue)
      (he : stage.enrich event = some record) :
      Move stage signal now c p (c.enter (.processing event record (now + stage.delay)))
        (p.takeOut queue)
  /-- It takes an event out and breaks down over it. -/
  | pickBroken {c p event queue} (hc : c.phase = .taking) (hq : p.queue = event :: queue)
      (he : stage.enrich event = none) :
      Move stage signal now c p (c.stop (p.takeOut queue)).1 (c.stop (p.takeOut queue)).2
  /-- It hands a record to the sink. -/
  | settle {c p event record due outcome sink} (hc : c.phase = .processing event record due)
      (hd : due ≤ now) (hs : stage.persist record p.sink = (outcome, sink))
      (ho : outcome ≠ .panicked) :
      Move stage signal now c p (c.enter .checking) ({ p with sink }.count outcome)
  /-- It hands a record to the sink and breaks down over it. -/
  | settleBroken {c p event record due sink} (hc : c.phase = .processing event record due)
      (hd : due ≤ now) (hs : stage.persist record p.sink = (.panicked, sink)) :
      Move stage signal now c p (c.stop { p with sink }).1 (c.stop { p with sink }).2

variable {stage : Stage ε ρ σ} {signal : Signal} {now : Nat} {c c' : Consumer ε ρ}
  {p p' : Pipeline ε σ}

/-- Every step is one of the listed moves: the cases follow the branches of `step?`. -/
theorem Move.of_step? (h : step? stage signal now c p = some (c', p')) :
    Move stage signal now c p c' p' := by
  unfold step? at h
  split at h
  · next hc =>
    split at h
    · next hf =>
      cases h
      exact .take hc hf
    · next hf =>
      cases h
      exact .turnedAway hc (by simpa using hf)
  · next hc =>
    split at h
    · next hv =>
      cases h
      exact .halt hc hv
    · next hv =>
      cases h
      exact .look hc (by simpa using hv)
  · next hc =>
    split at h
    · next hs =>
      cases h
      exact .notice hc hs
    · next hs =>
      have hs : signal.changedSince c.seen = false := by simpa using hs
      split at h
      · next hl =>
        cases h
        exact .close hc hs hl
      · next hl =>
        cases h
        exact .turn hc hs (by simpa using hl)
  · next hc =>
    split at h
    · next hq =>
      cases h
      exact .doze hc hq
    · next event queue hq =>
      split at h
      · next record he =>
        cases h
        exact .pick hc hq he
      · next he =>
        cases h
        exact .pickBroken hc hq he
  · next event record due hc =>
    split at h
    · cases h
    · next hd =>
      have hd : due ≤ now := by omega
      rcases hs : stage.persist record p.sink with ⟨outcome, sink⟩
      rw [hs] at h
      dsimp only at h
      split at h
      · next ho =>
        cases h
        subst ho
        exact .settleBroken hc hd hs
      · next ho =>
        cases h
        exact .settle hc hd hs ho
  · cases h

/-- Every move is a step: the guards pick the branch. -/
theorem Move.step? (h : Move stage signal now c p c' p') :
    c.step? stage signal now p = some (c', p') := by
  cases h with
  | take hc hf => simp only [Consumer.step?, hc, hf, if_true]
  | turnedAway hc hf => simp [Consumer.step?, hc, hf]
  | look hc hv => simp [Consumer.step?, hc, hv]
  | halt hc hv => simp only [Consumer.step?, hc, hv, if_true]
  | notice hc hs => simp only [Consumer.step?, hc, hs, if_true]
  | close hc hs hl => simp [Consumer.step?, hc, hs, hl]
  | turn hc hs hl => simp [Consumer.step?, hc, hs, hl]
  | doze hc hq => simp [Consumer.step?, hc, hq]
  | pick hc hq he => simp [Consumer.step?, hc, hq, he]
  | pickBroken hc hq he => simp [Consumer.step?, hc, hq, he]
  | settle hc hd hs ho => simp [Consumer.step?, hc, Nat.not_lt.mpr hd, hs, ho]
  | settleBroken hc hd hs => simp [Consumer.step?, hc, Nat.not_lt.mpr hd, hs, count]

/-- **What a step can do.** -/
theorem step?_eq_some_iff :
    step? stage signal now c p = some (c', p') ↔ Move stage signal now c p c' p' :=
  ⟨Move.of_step?, Move.step?⟩

end Consumer

/-! ## The whole -/

/-- A pipeline, the consumers started so far, the signals there are, by number, and the time. -/
structure World (ε ρ σ : Type) where
  now : Nat
  signals : Nat → Signal
  pipeline : Pipeline ε σ
  consumers : List (Consumer ε ρ)

/-- What may happen next. -/
inductive Act (ε ρ σ : Type) where
  | submit (event : ε)
  /-- A consumer is started, which listens to a signal. -/
  | start (signal : Nat)
  /-- A consumer makes its next step, with the stage as it is then. -/
  | work (consumer : Nat) (stage : Stage ε ρ σ)
  /-- A consumer is ended from outside, wherever it is. -/
  | cut (consumer : Nat)
  | send (signal : Nat) (value : Bool)
  | close (signal : Nat)
  | pass (time : Nat)

namespace World

/-- A pipeline without consumers; all signals say "go on". -/
def create (capacity : Nat) (sink : σ) : World ε ρ σ :=
  ⟨0, fun _ => Signal.fresh, Pipeline.create capacity sink, []⟩

/-- A consumer and the pipeline are changed together. -/
def put (w : World ε ρ σ) (i : Nat) (change : Consumer ε ρ × Pipeline ε σ) : World ε ρ σ :=
  { w with pipeline := change.2, consumers := w.consumers.set i change.1 }

/-- A signal is changed. -/
def signalled (w : World ε ρ σ) (k : Nat) (f : Signal → Signal) : World ε ρ σ :=
  { w with signals := fun j => if j = k then f (w.signals j) else w.signals j }

/-- In how many places the receiver is. -/
def receivers (w : World ε ρ σ) : Nat :=
  w.consumers.countP Consumer.owns + w.pipeline.receiverFree.toNat

/-- An event is taken in or dropped; the queue is closed when the receiver is nowhere. -/
def submit (w : World ε ρ σ) (event : ε) : Bool × Pipeline ε σ :=
  w.pipeline.offer (w.receivers = 0) event

/-- The next step of a consumer and what becomes of the pipeline by it, if it can make one. -/
def workOf? (w : World ε ρ σ) (i : Nat) (stage : Stage ε ρ σ) :
    Option (Consumer ε ρ × Pipeline ε σ) :=
  w.consumers[i]?.bind fun c => c.step? stage (w.signals c.signal) w.now w.pipeline

/-- One act; one that cannot be done now changes nothing. -/
def act (w : World ε ρ σ) : Act ε ρ σ → World ε ρ σ
  | .submit event => { w with pipeline := (w.submit event).2 }
  | .start signal => { w with consumers := w.consumers ++ [Consumer.create signal] }
  | .work i stage => ((w.workOf? i stage).map (w.put i)).getD w
  | .cut i => (w.consumers[i]?.map fun c => w.put i (c.stop w.pipeline)).getD w
  | .send k value => w.signalled k fun s => s.send value
  | .close k => w.signalled k Signal.close
  | .pass time => { w with now := w.now + time }

/-- A row of acts. -/
def run (w : World ε ρ σ) (acts : List (Act ε ρ σ)) : World ε ρ σ := acts.foldl act w

theorem run_concat (w : World ε ρ σ) (acts : List (Act ε ρ σ)) (a : Act ε ρ σ) :
    w.run (acts ++ [a]) = (w.run acts).act a := by
  simp [run]

/-- **Consumers come in by two doors.** What holds of the whole and is kept by all that leaves the
consumers there are as they were, and by each change of one consumer, is kept by every act. -/
theorem act_cases {motive : World ε ρ σ → Prop} (w : World ε ρ σ) (a : Act ε ρ σ)
    (same : motive w)
    (submit : ∀ event, a = .submit event → motive { w with pipeline := (w.submit event).2 })
    (start : ∀ k, a = .start k → motive { w with consumers := w.consumers ++ [Consumer.create k] })
    (work : ∀ i stage c c' p', a = .work i stage → w.consumers[i]? = some c →
      c.Move stage (w.signals c.signal) w.now w.pipeline c' p' → motive (w.put i (c', p')))
    (cut : ∀ i c, a = .cut i → w.consumers[i]? = some c → motive (w.put i (c.stop w.pipeline)))
    (around : ∀ now signals, motive { w with now, signals }) : motive (w.act a) := by
  cases a with
  | submit event => exact submit event rfl
  | start k => exact start k rfl
  | work i stage =>
    show motive (((w.workOf? i stage).map (w.put i)).getD w)
    rcases hw : w.workOf? i stage with _ | ⟨c', p'⟩
    · exact same
    · obtain ⟨c, hc, hs⟩ := Option.bind_eq_some_iff.mp hw
      exact work i stage c c' p' rfl hc (.of_step? hs)
  | cut i =>
    show motive ((w.consumers[i]?.map fun c => w.put i (c.stop w.pipeline)).getD w)
    rcases hc : w.consumers[i]? with _ | c
    · exact same
    · exact cut i c rfl hc
  | send k value => exact around w.now _
  | close k => exact around w.now _
  | pass time => exact around _ w.signals

/-- What every act keeps, every row of acts keeps. -/
theorem run_induction {P : World ε ρ σ → Prop} {w : World ε ρ σ} (start : P w)
    (step : ∀ w a, P w → P (w.act a)) (acts : List (Act ε ρ σ)) : P (w.run acts) := by
  induction acts generalizing w with
  | nil => exact start
  | cons a acts ih => exact ih (step w a start)

end World

/-! ## One receiver -/

namespace Consumer

@[simp] theorem owns_create (signal : Nat) : (create signal : Consumer ε ρ).owns = false := rfl

@[simp] theorem owns_stop (c : Consumer ε ρ) (p : Pipeline ε σ) : (c.stop p).1.owns = false := rfl

/-- A consumer that stops hands the receiver back if it has it. -/
theorem receiver_stop {c : Consumer ε ρ} {p : Pipeline ε σ}
    (hf : c.owns = true → p.receiverFree = false) :
    (c.stop p).1.owns.toNat + (c.stop p).2.receiverFree.toNat =
      c.owns.toNat + p.receiverFree.toNat := by
  rw [owns_stop]
  cases ho : c.owns with
  | false => simp [stop, ho]
  | true => simp [stop, ho, hf ho, handBack]

/-- A step neither makes a receiver nor lets one go. -/
theorem Move.receiver {stage : Stage ε ρ σ} {signal : Signal} {now : Nat} {c c' : Consumer ε ρ}
    {p p' : Pipeline ε σ} (h : Move stage signal now c p c' p')
    (hf : c.owns = true → p.receiverFree = false) :
    c'.owns.toNat + p'.receiverFree.toNat = c.owns.toNat + p.receiverFree.toNat := by
  cases h with
  | take hc hfree => simp [owns, enter, hc, hfree, takeReceiver]
  | turnedAway hc => simp [owns, enter, hc]
  | look hc => simp [owns, seeing, hc]
  | halt => exact receiver_stop hf
  | notice hc => simp [owns, seeing, hc]
  | close => exact receiver_stop hf
  | turn hc => simp [owns, enter, hc]
  | doze hc => simp [owns, enter, hc]
  | pick hc => simp [owns, enter, hc, takeOut]
  | @pickBroken event queue => exact receiver_stop (p := p.takeOut queue) hf
  | @settle event record due outcome sink hc =>
    cases outcome <;> simp [owns, enter, hc, count]
  | @settleBroken event record due sink => exact receiver_stop (p := { p with sink }) hf

end Consumer

/-- A consumer in a row, and the row with another in its place. -/
theorem exists_split {α : Type} {l : List α} {i : Nat} {a : α} (h : l[i]? = some a) :
    ∃ xs ys, l = xs ++ a :: ys ∧ ∀ b, l.set i b = xs ++ b :: ys := by
  obtain ⟨hi, ha⟩ := List.getElem?_eq_some_iff.mp h
  refine ⟨l.take i, l.drop (i + 1), ?_, fun b => ?_⟩
  · rw [← ha, List.getElem_cons_drop, List.take_append_drop]
  · rw [List.set_eq_take_append_cons_drop, if_pos hi]

namespace World

/-- Where there is a receiver the queue is not closed. -/
theorem submit_of_receiver {w : World ε ρ σ} (h : w.receivers = 1) (event : ε) :
    w.submit event = w.pipeline.submit event := by
  rw [submit, h]
  rfl

/-- If there is one receiver, a consumer that has it leaves none free. -/
theorem not_receiverFree_of_owns {w : World ε ρ σ} (h : w.receivers = 1) {i : Nat}
    {c : Consumer ε ρ} (hc : w.consumers[i]? = some c) (ho : c.owns = true) :
    w.pipeline.receiverFree = false := by
  have : 0 < w.consumers.countP Consumer.owns :=
    List.countP_pos_iff.mpr ⟨c, List.mem_of_getElem? hc, ho⟩
  simp only [receivers] at h
  cases hf : w.pipeline.receiverFree with
  | false => rfl
  | true =>
    rw [hf, Bool.toNat_true] at h
    omega

/-- One consumer may change as long as it has what it had. -/
theorem receivers_put {w : World ε ρ σ} {i : Nat} {c : Consumer ε ρ}
    {change : Consumer ε ρ × Pipeline ε σ} (hc : w.consumers[i]? = some c)
    (h : change.1.owns.toNat + change.2.receiverFree.toNat =
      c.owns.toNat + w.pipeline.receiverFree.toNat) :
    (w.put i change).receivers = w.receivers := by
  obtain ⟨xs, ys, hl, hset⟩ := exists_split hc
  have count (c : Consumer ε ρ) : (xs ++ c :: ys).countP Consumer.owns =
      xs.countP Consumer.owns + ys.countP Consumer.owns + c.owns.toNat := by
    rw [List.countP_append, List.countP_cons, Nat.add_assoc]
    cases c.owns <;> rfl
  have before := count c
  have after := count change.1
  rw [← hl] at before
  rw [← hset] at after
  simp only [receivers, put]
  omega

/-- No act makes a second receiver or loses the only one. -/
theorem receivers_act {w : World ε ρ σ} (a : Act ε ρ σ) (h : w.receivers = 1) :
    (w.act a).receivers = 1 := by
  refine act_cases (motive := fun w => w.receivers = 1) w a h ?submit ?start ?work ?cut ?around
  case submit =>
    intro event _
    exact offer_cases (motive := fun r => receivers { w with pipeline := r.2 } = 1)
      (w.receivers = 0) w.pipeline event (fun _ _ => h) (fun _ => h)
  case start =>
    intro k _
    simpa [receivers, List.countP_append] using h
  case work =>
    intro i stage c c' p' _ hc hm
    rw [receivers_put hc (hm.receiver (not_receiverFree_of_owns h hc))]
    exact h
  case cut =>
    intro i c _ hc
    rw [receivers_put hc (Consumer.receiver_stop (not_receiverFree_of_owns h hc))]
    exact h
  case around =>
    intro now signals
    exact h

/-- **There is one receiver**, after any acts. -/
theorem receivers_run (capacity : Nat) (sink : σ) (acts : List (Act ε ρ σ)) :
    ((create capacity sink).run acts).receivers = 1 :=
  run_induction (P := fun w => w.receivers = 1) rfl (fun _ a h => receivers_act a h) acts

end World

end ShortLink.Pipeline
