/-
  Consumers.

  A consumer that finds the receiver free takes it and works until its signal tells it to stop.  Before
  each event it looks at the signal, and it asks the signal again whether it was set since before it asks
  the queue for an event.  These are two questions: what the signal says after the first one does not keep
  the consumer from the event that the second one finds.  A consumer ends by handing the receiver back,
  whatever the reason.

  `step?` is one step between two moments at which something else may happen; `poll` makes all the steps
  that need no waiting, with nothing happening in between.
-/
import ShortLink.Pipeline.Basic
import ShortLink.Signal

namespace ShortLink.Pipeline

/-- What a consumer is about to do. -/
inductive Phase (ε ρ : Type) where
  /-- Take the receiver. -/
  | starting
  /-- Look at the signal. -/
  | checking
  /-- Ask the signal whether it was set since. This is what it does first when it is woken up. -/
  | waiting
  /-- Ask the queue for an event. -/
  | taking
  /-- Hand a record to the sink when the time has come. -/
  | processing (event : ε) (record : ρ) (due : Nat)
  /-- Nothing any more. -/
  | ended
  deriving DecidableEq, Repr

/-- A consumer. -/
structure Consumer (ε ρ : Type) where
  /-- The number of its signal. -/
  signal : Nat
  /-- How many settings of the signal it has seen. -/
  seen : Nat
  phase : Phase ε ρ
  deriving DecidableEq, Repr

namespace Consumer

variable {ε ρ σ : Type}

/-- A consumer that listens to a signal. -/
def create (signal : Nat) : Consumer ε ρ := ⟨signal, 0, .starting⟩

/-- A consumer that has the receiver. -/
def owns (c : Consumer ε ρ) : Bool :=
  match c.phase with
  | .checking => true
  | .waiting => true
  | .taking => true
  | .processing .. => true
  | _ => false

/-- Whether a consumer has ended. -/
def hasEnded (c : Consumer ε ρ) : Bool :=
  match c.phase with
  | .ended => true
  | _ => false

/-- A consumer goes on with another phase. -/
def enter (c : Consumer ε ρ) (phase : Phase ε ρ) : Consumer ε ρ := { c with phase }

/-- A consumer has seen all settings of its signal and goes on. -/
def seeing (c : Consumer ε ρ) (signal : Signal) (phase : Phase ε ρ) : Consumer ε ρ :=
  { c with seen := signal.sent, phase }

/-- A consumer ends; the event in its hands is lost, and a receiver it has is handed back. -/
def stop (c : Consumer ε ρ) (p : Pipeline ε σ) : Consumer ε ρ × Pipeline ε σ :=
  (c.enter .ended, if c.owns then p.handBack else p)

/-- The next step of a consumer, if there is one now. One that finds the queue empty falls asleep, and
may be woken up at any time. -/
def step? (stage : Stage ε ρ σ) (signal : Signal) (now : Nat) (c : Consumer ε ρ)
    (p : Pipeline ε σ) : Option (Consumer ε ρ × Pipeline ε σ) :=
  match c.phase with
  | .starting =>
    if p.receiverFree then some (c.enter .checking, p.takeReceiver) else some (c.enter .ended, p)
  | .checking =>
    if signal.value then some (c.stop p) else some (c.seeing signal .waiting, p)
  | .waiting =>
    if signal.changedSince c.seen then some (c.seeing signal .checking, p)
    else if signal.closed then some (c.stop p)
    else some (c.enter .taking, p)
  | .taking =>
    match p.queue with
    | [] => some (c.enter .waiting, p)
    | event :: queue =>
      match stage.enrich event with
      | some record =>
        some (c.enter (.processing event record (now + stage.delay)), p.takeOut queue)
      | none => some (c.stop (p.takeOut queue))
  | .processing _ record due =>
    if now < due then none
    else
      let (outcome, sink) := stage.persist record p.sink
      let p := { p with sink }.count outcome
      if outcome = .panicked then some (c.stop p) else some (c.enter .checking, p)
  | .ended => none

/-! ## Working until there is nothing to do -/

/-- A consumer is asleep: neither the signal nor the queue has anything for it. -/
def isAsleep (signal : Signal) (c : Consumer ε ρ) (p : Pipeline ε σ) : Bool :=
  match c.phase with
  | .waiting => !signal.changedSince c.seen && !signal.closed && p.queue.isEmpty
  | _ => false

/-- The next step of a consumer, if it need not wait. -/
def next? (stage : Stage ε ρ σ) (signal : Signal) (now : Nat) (c : Consumer ε ρ)
    (p : Pipeline ε σ) : Option (Consumer ε ρ × Pipeline ε σ) :=
  if c.isAsleep signal p then none else c.step? stage signal now p

theorem step?_of_next? {stage : Stage ε ρ σ} {signal : Signal} {now : Nat} {c c' : Consumer ε ρ}
    {p p' : Pipeline ε σ} (h : next? stage signal now c p = some (c', p')) :
    step? stage signal now c p = some (c', p') := by
  unfold next? at h
  split at h
  · cases h
  · exact h

/-- How many steps a consumer may make before it has to wait, at most. -/
def weight (signal : Signal) (c : Consumer ε ρ) (p : Pipeline ε σ) : Nat :=
  4 * p.queue.length +
    match c.phase with
    | .starting => 4
    | .checking => 3
    | .waiting => if signal.changedSince c.seen then 4 else 2
    | .taking => if p.queue.isEmpty then 5 else 1
    | .processing .. => 4
    | .ended => 0

theorem queue_count (p : Pipeline ε σ) (outcome : Persisted) : (p.count outcome).queue = p.queue := by
  cases outcome <;> rfl

theorem queue_stop (c : Consumer ε ρ) (p : Pipeline ε σ) : (c.stop p).2.queue = p.queue := by
  simp only [stop]
  split <;> rfl

/-- A consumer that stopped has no weight but the queue's. -/
theorem weight_stop (signal : Signal) (c : Consumer ε ρ) (p : Pipeline ε σ) :
    weight signal (c.stop p).1 (c.stop p).2 = 4 * p.queue.length := by
  simp only [weight, queue_stop]
  simp [stop, enter]

/-- Each step that needs no waiting makes the weight less. -/
theorem weight_of_next? {stage : Stage ε ρ σ} {signal : Signal} {now : Nat} {c c' : Consumer ε ρ}
    {p p' : Pipeline ε σ} (h : next? stage signal now c p = some (c', p')) :
    weight signal c' p' < weight signal c p := by
  have stopped : ∀ q : Pipeline ε σ, (c.stop q) = (c', p') →
      weight signal c' p' = 4 * q.queue.length := by
    intro q hq
    have := weight_stop signal c q
    rwa [hq] at this
  unfold next? at h
  split at h
  · cases h
  next awake =>
  unfold step? at h
  split at h
  · next hp =>
    split at h
    · cases h
      simp [weight, enter, hp, takeReceiver]
    · cases h
      simp [weight, enter, hp]
  · next hp =>
    split at h
    · rw [stopped p (Option.some.inj h)]
      simp [weight, hp]
    · cases h
      simp [weight, seeing, hp, Signal.changedSince]
  · next hp =>
    split at h
    · next hc =>
      cases h
      simp [weight, seeing, hp, hc]
    · next hc =>
      split at h
      · rw [stopped p (Option.some.inj h)]
        simp [weight, hp, hc]
      · next hl =>
        -- whoever is awake here has an event to ask for
        have some : p.queue.isEmpty = false := by simpa [isAsleep, hp, hc, hl] using awake
        cases h
        simp [weight, enter, hp, hc, some]
  · next hp =>
    split at h
    · next hq =>
      cases h
      cases hn : signal.changedSince c.seen <;> simp [weight, enter, hp, hq, hn]
    · next event queue hq =>
      split at h
      · cases h
        simp only [weight, enter, takeOut, hp, hq, List.length_cons, List.isEmpty_cons]
        simp
        omega
      · rw [stopped (p.takeOut queue) (Option.some.inj h)]
        simp only [weight, takeOut, hp, hq, List.length_cons, List.isEmpty_cons]
        omega
  · next hp =>
    split at h
    · cases h
    · dsimp only at h
      split at h
      · rw [stopped _ (Option.some.inj h)]
        simp [weight, hp, queue_count]
      · cases h
        simp [weight, enter, hp, queue_count]
  · cases h

/-- All the steps of a consumer until it has to wait. -/
def poll (stage : Stage ε ρ σ) (signal : Signal) (now : Nat) (c : Consumer ε ρ)
    (p : Pipeline ε σ) : Consumer ε ρ × Pipeline ε σ :=
  match h : next? stage signal now c p with
  | some (c', p') =>
    have := weight_of_next? h
    poll stage signal now c' p'
  | none => (c, p)
termination_by weight signal c p

/-- When a consumer that waits for a time goes on. -/
def due? (c : Consumer ε ρ) : Option Nat :=
  match c.phase with
  | .processing _ _ due => some due
  | _ => none

end Consumer

end ShortLink.Pipeline
