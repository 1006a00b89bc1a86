/-
  Time that passes is made of instants.

  The clock of a program jumps: letting time pass stops only where a task acts.  Yet it is the same as if
  every instant on the way came by itself (`advance_succ`), so a wait that is divided in any way is the
  same wait (`advance_sum`).  Nothing is asked of the tasks: this holds of every program.

  1. An instant at which no task is due changes nothing but the time (`tick_of_none_due`).

  2. `advanceTo` may take the next instant by itself (`advanceTo_eq_instant`): a task that is due there
     is the one it would stop at, and without one its next stop stays where it was.
-/
import Mathlib.Algebra.Ring.Nat
import ShortLink.Periodic

namespace ShortLink.Periodic.World

variable {π σ : Type} {act : π → σ → σ} {w : World π σ}

/-! ## Due tasks -/

theorem isDue_iff {now : Nat} {t : Task π} :
    isDue now t = true ↔ t.finished = false ∧ t.next = now := by
  simp [isDue]

theorem tick_of_none_due {now : Nat} (h : ∀ t ∈ w.tasks, isDue now t = false) :
    w.tick act now = { w with now := now } := by
  have none : w.tasks.filter (isDue now) = [] :=
    List.filter_eq_nil_iff.mpr fun t ht => by simp [h t ht]
  have same : (w.tasks.map fun t => if isDue now t then { t with next := t.next + t.period } else t) =
      w.tasks := by
    refine (List.map_congr_left fun t ht => ?_).trans (List.map_id _)
    rw [h t ht]
    rfl
  rw [tick, none, same]
  rfl

/-! ## The next stop -/

/-- A task that may be the next stop. -/
def Ahead (w : World π σ) (limit : Nat) (t : Task π) : Prop :=
  t.finished = false ∧ w.now < t.next ∧ t.next ≤ limit

theorem nextTick?_eq_some_iff {limit n : Nat} :
    w.nextTick? limit = some n ↔
      (∃ t ∈ w.tasks, w.Ahead limit t ∧ t.next = n) ∧
        ∀ t ∈ w.tasks, w.Ahead limit t → n ≤ t.next := by
  simp [nextTick?, List.min?_eq_some_iff, Ahead, and_assoc]
  grind

theorem nextTick?_eq_none_iff {limit : Nat} :
    w.nextTick? limit = none ↔ ∀ t ∈ w.tasks, ¬ w.Ahead limit t := by
  simp [nextTick?, Ahead, List.min?_eq_none_iff]

/-- Who is due at the next instant may be the next stop, and nothing comes before it. -/
theorem nextTick?_of_due {limit : Nat} {t : Task π} (ht : t ∈ w.tasks)
    (due : isDue (w.now + 1) t = true) (hl : w.now < limit) :
    w.nextTick? limit = some (w.now + 1) := by
  obtain ⟨unfinished, next⟩ := isDue_iff.mp due
  refine nextTick?_eq_some_iff.mpr ⟨⟨t, ht, ⟨unfinished, by omega, by omega⟩, next⟩, ?_⟩
  intro other _ ⟨_, later, _⟩
  omega

/-- Where no task is due at the next instant, the next stop is what it is from there. -/
theorem nextTick?_of_none_due (limit : Nat)
    (none : ∀ t ∈ w.tasks, isDue (w.now + 1) t = false) :
    { w with now := w.now + 1 }.nextTick? limit = w.nextTick? limit := by
  have same : ∀ t ∈ w.tasks,
      (!t.finished && decide (w.now + 1 < t.next) && decide (t.next ≤ limit)) =
        (!t.finished && decide (w.now < t.next) && decide (t.next ≤ limit)) := by
    intro t ht
    rw [Bool.eq_iff_iff]
    have notDue := none t ht
    simp only [isDue, Bool.and_eq_false_iff, Bool.not_eq_false', decide_eq_false_iff_not] at notDue
    simp only [Bool.and_eq_true, Bool.not_eq_true', decide_eq_true_eq]
    rcases notDue with finished | other
    · simp [finished]
    · have later : w.now + 1 < t.next ↔ w.now < t.next := by omega
      rw [later]
  rw [nextTick?, nextTick?, List.filter_congr same]

/-! ## Instants -/

theorem advanceTo_now (act : π → σ → σ) (w : World π σ) : w.advanceTo act w.now = w := by
  have stop : w.nextTick? w.now = none :=
    nextTick?_eq_none_iff.mpr fun t _ ⟨_, after, upTo⟩ => by omega
  rw [advanceTo, stop]

/-- **The next instant may be taken by itself.** -/
theorem advanceTo_eq_instant {target : Nat} (h : w.now < target) :
    w.advanceTo act target = (w.tick act (w.now + 1)).advanceTo act target := by
  by_cases due : ∃ t ∈ w.tasks, isDue (w.now + 1) t = true
  · obtain ⟨t, ht, due⟩ := due
    rw [advanceTo, nextTick?_of_due ht due h]
    exact if_pos ⟨Nat.lt_succ_self _, h⟩
  · have none : ∀ t ∈ w.tasks, isDue (w.now + 1) t = false := fun t ht =>
      Bool.eq_false_iff.mpr fun hd => due ⟨t, ht, hd⟩
    rw [tick_of_none_due none, advanceTo, advanceTo, nextTick?_of_none_due target none]
    cases stop : w.nextTick? target with
    | none => rfl
    | some n =>
      obtain ⟨⟨t, ht, ⟨unfinished, after, upTo⟩, rfl⟩, -⟩ := nextTick?_eq_some_iff.mp stop
      have later : w.now + 1 < t.next := by
        have notNext : t.next ≠ w.now + 1 := fun hn =>
          Bool.eq_false_iff.mp (none t ht) (isDue_iff.mpr ⟨unfinished, hn⟩)
        omega
      show (if w.now < t.next ∧ t.next ≤ target then _ else _) =
        if w.now + 1 < t.next ∧ t.next ≤ target then _ else _
      rw [if_pos ⟨after, upTo⟩, if_pos ⟨later, upTo⟩]
      rfl

theorem now_advanceTo (act : π → σ → σ) (target : Nat) (w : World π σ) :
    (w.advanceTo act target).now = target := by
  induction w using advanceTo.induct act target with
  | case1 w t stop h ih =>
    rw [advanceTo, stop]
    exact (congrArg now (if_pos h)).trans ih
  | case2 w t stop h =>
    rw [advanceTo, stop]
    exact congrArg now (if_neg h)
  | case3 w stop => rw [advanceTo, stop]

theorem now_advance (act : π → σ → σ) (duration : Nat) (w : World π σ) :
    (w.advance act duration).now = w.now + duration := now_advanceTo act _ w

theorem advance_zero (act : π → σ → σ) (w : World π σ) : w.advance act 0 = w := advanceTo_now act w

/-- The world at the next instant. -/
theorem advance_succ (act : π → σ → σ) (duration : Nat) (w : World π σ) :
    w.advance act (duration + 1) = (w.tick act (w.now + 1)).advance act duration := by
  rw [advance, advanceTo_eq_instant (by omega), advance]
  show _ = (w.tick act (w.now + 1)).advanceTo act (w.now + 1 + duration)
  rw [Nat.add_assoc, Nat.add_comm 1 duration]

/-- **A wait may be divided.** -/
theorem advance_add (act : π → σ → σ) (first second : Nat) (w : World π σ) :
    w.advance act (first + second) = (w.advance act first).advance act second := by
  induction first generalizing w with
  | zero => rw [Nat.zero_add, advance_zero]
  | succ first ih => rw [Nat.add_right_comm, advance_succ, ih, advance_succ]

/-- **However a wait is divided, it is the same wait.** -/
theorem advance_sum (act : π → σ → σ) (durations : List Nat) (w : World π σ) :
    durations.foldl (fun w d => w.advance act d) w = w.advance act durations.sum := by
  induction durations generalizing w with
  | nil => exact (advance_zero act w).symm
  | cons d durations ih => rw [List.foldl_cons, ih, List.sum_cons, advance_add]

/-- The last instant of a wait. -/
theorem advance_one (act : π → σ → σ) (w : World π σ) :
    w.advance act 1 = w.tick act (w.now + 1) := by
  rw [advance_succ, advance_zero]

end ShortLink.Periodic.World
