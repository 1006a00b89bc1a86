/-
  A pipeline with its consumers under a clock.

  Consumers are listed in the order in which they were started, and work in that order whenever
  something has happened.  Time stands still but for `advance` and `runFor`, which stop on their way
  at each moment for which a consumer waits.
-/
import ShortLink.Pipeline.Consumer

namespace ShortLink.Pipeline

/-- A pipeline, its consumers, the signals they listen to and the time. -/
structure Run (ε ρ σ : Type) where
  now : Nat
  signals : Signals
  pipeline : Pipeline ε σ
  consumers : List (Consumer ε ρ)

namespace Run

variable {ε ρ σ : Type}

/-- A pipeline without consumers. -/
def create (capacity : Nat) (sink : σ) : Run ε ρ σ :=
  ⟨0, Signals.start, Pipeline.create capacity sink, []⟩

/-- A pipeline without consumers, if there is a queue for it. -/
def make (capacity : Nat) (sink : σ) : Except Breakdown (Run ε ρ σ) :=
  (Pipeline.make capacity sink).map fun pipeline => ⟨0, Signals.start, pipeline, []⟩

theorem make_of_le {capacity : Nat} (fits : max capacity 1 ≤ channelLimit) (sink : σ) :
    (make capacity sink : Except Breakdown (Run ε ρ σ)) = .ok (create capacity sink) := by
  rw [make, Pipeline.make_eq, if_neg (Nat.not_lt.mpr fits)]
  rfl

/-- Take in events; no consumer works meanwhile. -/
def submitAll (r : Run ε ρ σ) (events : List ε) : List Bool × Run ε ρ σ :=
  let (taken, pipeline) := r.pipeline.submitAll events
  (taken, { r with pipeline })

/-- Consumers make the steps that need no waiting, one after the other. -/
def pollAll (stage : Stage ε ρ σ) (signals : Signals) (now : Nat) :
    List (Consumer ε ρ) → Pipeline ε σ → List (Consumer ε ρ) × Pipeline ε σ
  | [], p => ([], p)
  | c :: cs, p =>
    let (c, p) := c.poll stage (signals.get c.signal) now p
    let (cs, p) := pollAll stage signals now cs p
    (c :: cs, p)

/-- All consumers make the steps that need no waiting. -/
def settle (stage : Stage ε ρ σ) (r : Run ε ρ σ) : Run ε ρ σ :=
  let (consumers, pipeline) := pollAll stage r.signals r.now r.consumers r.pipeline
  { r with consumers, pipeline }

/-- Start a consumer. -/
def start (stage : Stage ε ρ σ) (r : Run ε ρ σ) : Run ε ρ σ :=
  settle stage { r with consumers := r.consumers ++ [Consumer.create r.signals.index] }

/-- End the consumer with a number wherever it is. -/
def abort (stage : Stage ε ρ σ) (r : Run ε ρ σ) (i : Nat) : Run ε ρ σ :=
  match r.consumers[i]? with
  | some c =>
    let (c, pipeline) := c.stop r.pipeline
    settle stage { r with consumers := r.consumers.set i c, pipeline }
  | none => settle stage r

/-- Set the current signal: whether its sender is there, and the run. -/
def send (stage : Stage ε ρ σ) (r : Run ε ρ σ) (value : Bool) : Bool × Run ε ρ σ :=
  let (there, signals) := r.signals.send value
  (there, settle stage { r with signals })

/-- The sender of the current signal goes away. -/
def dropSignal (stage : Stage ε ρ σ) (r : Run ε ρ σ) : Run ε ρ σ :=
  settle stage { r with signals := r.signals.drop }

/-- A new signal for the consumers to come. -/
def newSignal (stage : Stage ε ρ σ) (r : Run ε ρ σ) : Run ε ρ σ :=
  settle stage { r with signals := r.signals.renew }

/-- The first moment after now, up to a time, for which a consumer waits. -/
def nextDue? (r : Run ε ρ σ) (limit : Nat) : Option Nat :=
  ((r.consumers.filterMap Consumer.due?).filter fun t => r.now < t && t ≤ limit).min?

/-- Let time pass up to `target`. -/
def advanceTo (stage : Stage ε ρ σ) (target : Nat) (r : Run ε ρ σ) : Run ε ρ σ :=
  match r.nextDue? target with
  | some t =>
    if r.now < t ∧ t ≤ target then advanceTo stage target (settle stage { r with now := t })
    else { r with now := target }
  | none => { r with now := target }
termination_by target - r.now
decreasing_by simp only [settle]; omega

/-- Let time pass; what can be done now is done first. -/
def advance (stage : Stage ε ρ σ) (duration : Nat) (r : Run ε ρ σ) : Run ε ρ σ :=
  settle stage (advanceTo stage (r.now + duration) (settle stage r))

/-- Time has passed up to `target`. -/
theorem now_advanceTo (stage : Stage ε ρ σ) (target : Nat) (r : Run ε ρ σ) :
    (advanceTo stage target r).now = target := by
  fun_induction advanceTo stage target r with
  | case1 r t ht h ih => exact ih
  | case2 r t ht h => rfl
  | case3 r h => rfl

theorem now_advance (stage : Stage ε ρ σ) (duration : Nat) (r : Run ε ρ σ) :
    (advance stage duration r).now = r.now + duration :=
  now_advanceTo stage _ _

/-- Consumers finish what they have in hand. -/
def finish (stage : Stage ε ρ σ) (r : Run ε ρ σ) : Run ε ρ σ :=
  advance stage ((r.consumers.filterMap Consumer.due?).max?.getD r.now - r.now) r

/-- Run a consumer in place for a time at most: whether it ended by itself, and the run. One that did
not is ended then, and the event in its hands is lost. -/
def runFor (stage : Stage ε ρ σ) (duration : Nat) (r : Run ε ρ σ) : Bool × Run ε ρ σ :=
  let signal := r.signals.index
  let (c, pipeline) :=
    (Consumer.create signal).poll stage (r.signals.get signal) r.now r.pipeline
  if c.hasEnded then (true, settle stage { r with pipeline })
  else
    let others := r.consumers.length
    let r := advance stage duration { r with pipeline, consumers := r.consumers ++ [c] }
    match r.consumers[others]? with
    | some c =>
      (c.hasEnded,
       settle stage
         { r with consumers := r.consumers.take others, pipeline := (c.stop r.pipeline).2 })
    | none => (false, r)

/-- A consumer works until nothing more can be done without waiting, and is ended then. -/
def drain (stage : Stage ε ρ σ) (r : Run ε ρ σ) : Run ε ρ σ :=
  abort stage (start stage r) r.consumers.length

end Run

end ShortLink.Pipeline
