/-
  Stop signals.

  A signal holds a truth value that its sender may set again and again; a sender that goes away
  closes it.  A listener remembers how many settings it has seen: several settings between two looks
  are one change to it, with the last value.
-/

namespace ShortLink

/-- A signal. -/
structure Signal where
  value : Bool
  /-- How often the value was set. -/
  sent : Nat
  closed : Bool
  deriving DecidableEq, Repr

namespace Signal

/-- A signal that says "go on". -/
def fresh : Signal := ⟨false, 0, false⟩

/-- Set the value, if the sender is still there. -/
def send (s : Signal) (value : Bool) : Signal :=
  if s.closed then s else { s with value := value, sent := s.sent + 1 }

/-- The sender goes away. -/
def close (s : Signal) : Signal := { s with closed := true }

/-- Whether something was set that a listener has not seen. -/
def changedSince (s : Signal) (seen : Nat) : Bool := s.sent != seen

theorem le_sent_send (s : Signal) (value : Bool) : s.sent ≤ (s.send value).sent := by
  rw [send]
  split
  · exact Nat.le_refl _
  · exact Nat.le_succ _

/-- A setting is one that no listener has seen before. -/
theorem changedSince_send {s : Signal} {seen : Nat} (le : seen ≤ s.sent) (value : Bool)
    (isOpen : s.closed = false) : (s.send value).changedSince seen = true := by
  simp only [send, isOpen, Bool.false_eq_true, if_false, changedSince, bne_iff_ne]
  omega

/-- A signal that has its listeners end: it says "stop", or its sender is gone. -/
def Stops (s : Signal) : Prop := s.value = true ∨ s.closed = true

instance (s : Signal) : Decidable s.Stops := inferInstanceAs (Decidable (_ ∨ _))

end Signal

/-- The signals of a program, oldest first; new tasks listen to the last one. -/
structure Signals where
  closed : List Signal
  current : Signal
  deriving DecidableEq, Repr

namespace Signals

/-- One signal that says "go on". -/
def start : Signals := ⟨[], Signal.fresh⟩

/-- The number of the signal that new tasks listen to. -/
def index (s : Signals) : Nat := s.closed.length

/-- The signal with a number. -/
def get (s : Signals) (i : Nat) : Signal := s.closed[i]?.getD s.current

/-- Set the value of the current signal: whether its sender is there, and the signals. -/
def send (s : Signals) (value : Bool) : Bool × Signals :=
  (!s.current.closed, { s with current := s.current.send value })

/-- The sender of the current signal goes away. -/
def drop (s : Signals) : Signals := { s with current := s.current.close }

/-- A new signal takes the place of the current one, whose sender goes away. -/
def renew (s : Signals) : Signals := ⟨s.closed ++ [s.current.close], Signal.fresh⟩

end Signals

end ShortLink
