/-
  Periodic tasks under a clock.

  A task acts once in every period from its start on, until it finds that its signal says "stop" or is
  closed.  It finds that when it looks, and what was set between two looks is one setting to it, with the
  last value.  Time stands still but for `advance`, which stops at every tick on its way: the tasks whose
  ticks are due act in the order in which they were started, and each is due again one period later.  A
  task that has no period cannot be scheduled and ends at once.

  `startOn`, `signal` and `look` do one thing each; what is done with the current signal (`start`, `send`
  and the like) has all tasks look then.
-/
import ShortLink.Signal

namespace ShortLink.Periodic

/-- A periodic task. -/
structure Task (π : Type) where
  /-- How many tasks were started before it. -/
  number : Nat
  /-- What the task acts with. -/
  payload : π
  period : Nat
  /-- When it acts next. -/
  next : Nat
  /-- The number of its signal. -/
  signal : Nat
  /-- How many settings of the signal it has seen. -/
  seen : Nat
  finished : Bool
  deriving Repr

/-- The tasks of a program, the state they act on, the signals they listen to and the time. -/
structure World (π σ : Type) where
  now : Nat
  state : σ
  /-- The signals, by number. -/
  signals : Nat → Signal
  /-- The number of the signal that new tasks are given, if they are not given another one. -/
  current : Nat
  tasks : List (Task π)

/-- Look at the signal: a closed one ends the task, and so does a change to "stop"; a change to "go
on" is noted. -/
def Task.look {π : Type} (signals : Nat → Signal) (t : Task π) : Task π :=
  let s := signals t.signal
  if t.finished then t
  else if s.closed || (s.changedSince t.seen && s.value) then { t with finished := true }
  else { t with seen := s.sent }

namespace World

variable {π σ : Type}

/-- A program without tasks. -/
def create (state : σ) : World π σ := ⟨0, state, fun _ => Signal.fresh, 0, []⟩

/-- Start a task that listens to a signal, of which it has seen nothing yet. -/
def startOn (w : World π σ) (signal : Nat) (payload : π) (period : Nat) : World π σ :=
  { w with
    tasks := w.tasks ++
      [{ number := w.tasks.length, payload, period, next := w.now + period, signal, seen := 0
         finished := period = 0 }] }

/-- Something is done with a signal. -/
def signal (w : World π σ) (i : Nat) (f : Signal → Signal) : World π σ :=
  { w with signals := fun j => if j = i then f (w.signals j) else w.signals j }

/-- The task with a number looks at its signal. -/
def look (w : World π σ) (number : Nat) : World π σ :=
  { w with tasks := w.tasks.map fun t => if t.number = number then t.look w.signals else t }

/-- Every task looks at its signal. -/
def settle (w : World π σ) : World π σ := { w with tasks := w.tasks.map (Task.look w.signals) }

/-- Start a task that listens to the current signal. -/
def start (w : World π σ) (payload : π) (period : Nat) : World π σ :=
  (w.startOn w.current payload period).settle

/-- Set the current signal: whether its sender is there, and the program. -/
def send (w : World π σ) (value : Bool) : Bool × World π σ :=
  (!(w.signals w.current).closed, (w.signal w.current fun s => s.send value).settle)

/-- The sender of the current signal goes away. -/
def dropSignal (w : World π σ) : World π σ := (w.signal w.current Signal.close).settle

/-- A new signal for the tasks to come; the sender of the one before it goes away. -/
def newSignal (w : World π σ) : World π σ := { w.dropSignal with current := w.current + 1 }

/-- Whether a task acts at a time. -/
def isDue (now : Nat) (t : Task π) : Bool := !t.finished && t.next = now

/-- The earliest tick after now, up to a time. -/
def nextTick? (w : World π σ) (limit : Nat) : Option Nat :=
  ((w.tasks.filter fun t => !t.finished && w.now < t.next && t.next ≤ limit).map (·.next)).min?

/-- All tasks that are due act. -/
def tick (act : π → σ → σ) (now : Nat) (w : World π σ) : World π σ :=
  { w with
    now := now
    state := (w.tasks.filter (isDue now)).foldl (fun s t => act t.payload s) w.state
    tasks := w.tasks.map fun t => if isDue now t then { t with next := t.next + t.period } else t }

/-- Let time pass up to `target`. -/
def advanceTo (act : π → σ → σ) (target : Nat) (w : World π σ) : World π σ :=
  match w.nextTick? target with
  | some t =>
    if w.now < t ∧ t ≤ target then advanceTo act target (w.tick act t) else { w with now := target }
  | none => { w with now := target }
termination_by target - w.now
decreasing_by simp only [tick]; omega

/-- Let time pass. -/
def advance (act : π → σ → σ) (duration : Nat) (w : World π σ) : World π σ :=
  w.advanceTo act (w.now + duration)

end World

end ShortLink.Periodic
