/-
  Eviction in the background.

  A cleanup task has a threshold; at each of its ticks the limiter forgets its clients if it knows
  more of them than that.  Between ticks the tasks change nothing.
-/
import ShortLink.Limiter
import ShortLink.Periodic

namespace ShortLink.Limiter

/-- A limiter with its cleanup tasks, each with its threshold. -/
abbrev Eviction (α : Type) := Periodic.World Nat (Limiter α)

namespace Eviction

variable {α : Type} [Amount α]

/-- A limiter without cleanup tasks. -/
def create (rate : α) (burst : Nat) : Eviction α := Periodic.World.create (Limiter.create rate burst)

/-- What a cleanup task does. -/
def act (threshold : Nat) (l : Limiter α) : Limiter α := (l.evictIfOver threshold).2

/-- A request of a client at a time of the limiter's own clock. -/
def request (w : Eviction α) (key : String) (now : Nat) : Bool × Eviction α :=
  let (passed, l) := w.state.request key now
  (passed, { w with state := l })

/-- Requests of several clients at one time. -/
def requests (w : Eviction α) (keys : List String) (now : Nat) : Eviction α :=
  keys.foldl (fun w key => (w.request key now).2) w

end Eviction

end ShortLink.Limiter
