/-
  The timetable of periodic tasks.

  A program of periodic tasks is compared with a timetable that knows nothing of its clock or of what
  its tasks remember.  The timetable is read off what happens to the program: a task has its turns at
  the multiples of its period after its start, up to the look with which it ends.  The main statement,
  `World.run_eq_timetable`, says that the program does what is on its timetable, in that order, and
  nothing else.

  1. A `Duty` is what a task is to do, and `duties` reads it off the acts that follow the start of the
     task.

  2. `Matches` relates a task to its duty, with what is still to happen: a task that is finished has no
     turn left, and one that runs has its next turn within a period, and notices it if its signal says
     "stop".  It is kept by what the task does not notice (`Matches.past`), by a look (`Matches.look`)
     and by an instant (`Matches.tick`), and who is due is whose turn it is (`Matches.isDue_eq`).

  3. Each act keeps all tasks matched and does what is on the timetable (`World.matched_act`), and so
     does a row of acts (`World.matched_run`).
-/
import Mathlib.Data.List.Forall2
import ShortLink.Proofs.Periodic.Acts

namespace ShortLink.Periodic

variable {π γ σ : Type}

/-! ## The timetable -/

/-- What a task is to do. -/
structure Duty (π : Type) where
  /-- The number of the task among all that are started. -/
  number : Nat
  payload : π
  period : Nat
  began : Nat
  /-- The last instant at which it may have a turn. -/
  last : Nat
  /-- Whether it comes to an end. -/
  ended : Bool

/-- Whether a task has a turn at an instant. -/
def Duty.isTurn (d : Duty π) (t : Nat) : Bool := d.began < t && t ≤ d.last && d.period ∣ t - d.began

/-- Whether a task that has not come to an end has a turn at an instant after it began. -/
def Duty.isDue (d : Duty π) (t : Nat) : Bool := !d.ended && d.period ∣ t - d.began

/-- What stands on a timetable. -/
inductive Deed (π γ : Type) where
  | change (c : γ)
  /-- The turn of a task, by its number, at an instant. -/
  | turn (time number : Nat) (payload : π)

namespace Act

/-- The duty of the task that is started, when these acts follow. -/
def duty? (s : Nat → Signal) (number now : Nat) (acts : List (Act π γ)) : Act π γ → Option (Duty π)
  | start i payload period =>
    some {
      number, payload, period
      began := now
      last := now + runningTime s i number acts
      ended := comesToEnd s i number acts }
  | _ => none

end Act

theorem Act.duty?_eq_none {a : Act π γ} (h : a.starts = false) {s : Nat → Signal}
    {number now : Nat} {acts : List (Act π γ)} : a.duty? s number now acts = none := by
  cases a with
  | start => cases h
  | _ => rfl

/-- The duties of all tasks that are started in a row of acts. -/
def duties (s : Nat → Signal) (number now : Nat) : List (Act π γ) → List (Duty π)
  | [] => []
  | a :: acts =>
    (a.duty? s number now acts).toList ++
      duties (a.signals s) (number + if a.starts then 1 else 0) (now + a.duration) acts

/-- The turns at an instant. -/
def turnsAt (ds : List (Duty π)) (t : Nat) : List (Deed π γ) :=
  (ds.filter fun d => d.isTurn t).map fun d => .turn t d.number d.payload

/-- What is done in an act. -/
def Act.deeds (ds : List (Duty π)) (now : Nat) : Act π γ → List (Deed π γ)
  | change c => [.change c]
  | advance duration => (List.range' (now + 1) duration).flatMap (turnsAt ds)
  | _ => []

/-- What is done in a row of acts. -/
def deeds (ds : List (Duty π)) (now : Nat) : List (Act π γ) → List (Deed π γ)
  | [] => []
  | a :: acts => a.deeds ds now ++ deeds ds (now + a.duration) acts

/-- The timetable of a row of acts, before which some tasks were started already. -/
def timetable (s : Nat → Signal) (first now : Nat) (acts : List (Act π γ)) : List (Deed π γ) :=
  deeds (duties s first now acts) now acts

/-- Do what stands on a timetable. -/
def Deed.perform (does : π → σ → σ) (alters : γ → σ → σ) (s : σ) : Deed π γ → σ
  | change c => alters c s
  | turn _ _ payload => does payload s

/-! ## Tasks and their duties -/

/-- A task that runs as its duty says, when these acts are still to come. -/
structure Runs (s : Nat → Signal) (now : Nat) (acts : List (Act π γ)) (t : Task π) (d : Duty π) :
    Prop where
  unfinished : t.finished = false
  payload : t.payload = d.payload
  period : t.period = d.period
  positive : 0 < d.period
  began : d.began ≤ now
  last : d.last = now + runningTime s t.signal t.number acts
  ended : d.ended = comesToEnd s t.signal t.number acts
  /-- The next turn is the next multiple of the period after the start. -/
  after : now < t.next
  within : t.next ≤ now + d.period
  multiple : d.period ∣ t.next - d.began
  seen : t.seen ≤ (s t.signal).sent
  /-- If the signal says "stop", there is something that the task has not seen. -/
  told : (s t.signal).changedSince t.seen = false → (s t.signal).value = false

/-- A task and its duty. -/
inductive Matches (s : Nat → Signal) (now : Nat) (acts : List (Act π γ)) (t : Task π) (d : Duty π) :
    Prop where
  | atRest (finished : t.finished = true) (last : d.last ≤ now) (ended : d.ended = true)
  | running (runs : Runs s now acts t d)

section Matches

variable {s : Nat → Signal} {now : Nat} {a : Act π γ} {acts : List (Act π γ)} {t : Task π}
  {d : Duty π} {n : Nat}

/-- Whatever is done with its signal, a task has seen no more than there was, and notices it if the
signal says "stop". -/
theorem Act.attended_signals (a : Act π γ) {i seen : Nat} (le : seen ≤ (s i).sent)
    (told : (s i).changedSince seen = false → (s i).value = false) :
    seen ≤ (a.signals s i).sent ∧
      ((a.signals s i).changedSince seen = false → (a.signals s i).value = false) := by
  cases a with
  | send j value =>
    by_cases hj : i = j
    · simp only [Act.signals, if_pos hj]
      refine ⟨Nat.le_trans le (Signal.le_sent_send _ value), fun same => ?_⟩
      cases closed : (s i).closed with
      | true =>
        rw [Signal.send, if_pos closed] at same ⊢
        exact told same
      | false =>
        rw [Signal.changedSince_send le value closed] at same
        cases same
    · simpa only [Act.signals, if_neg hj] using And.intro le told
  | close j =>
    by_cases hj : i = j
    · simp only [Act.signals, if_pos hj]
      exact ⟨le, told⟩
    · simpa only [Act.signals, if_neg hj] using And.intro le told
  | _ => exact ⟨le, told⟩

/-- An act that takes no time and does not end the task is past. -/
theorem Runs.past (h : Runs s now (a :: acts) t d) (still : a.duration = 0)
    (goesOn : a.ends s t.signal t.number = false) : Runs (a.signals s) now acts t d := by
  obtain ⟨seen, told⟩ := a.attended_signals h.seen h.told
  refine { h with last := ?_, ended := ?_, seen, told }
  · rw [h.last, runningTime_cons goesOn, still, Nat.zero_add]
  · rw [h.ended, comesToEnd, goesOn, Bool.false_or]

theorem Matches.past (h : Matches s now (a :: acts) t d) (still : a.duration = 0)
    (goesOn : a.ends s t.signal t.number = false) : Matches (a.signals s) now acts t d := by
  cases h with
  | atRest finished last ended => exact .atRest finished last ended
  | running h => exact .running (h.past still goesOn)

/-- A task that runs notices it if its signal says "stop" or has lost its sender. -/
theorem Runs.finished_look (h : Runs s now acts t d) (stops : (s t.signal).Stops) :
    (t.look s).finished = true := by
  have noticed : ((s t.signal).closed ||
      ((s t.signal).changedSince t.seen && (s t.signal).value)) = true := by
    rcases stops with value | closed
    · have changed : (s t.signal).changedSince t.seen = true := by
        cases changed : (s t.signal).changedSince t.seen with
        | true => rfl
        | false => rw [h.told changed] at value; cases value
      rw [changed, value, Bool.and_true, Bool.or_true]
    · rw [closed, Bool.true_or]
  simp only [Task.look, h.unfinished, noticed, Bool.false_eq_true, if_false, if_true]

/-- **A task looks.** -/
theorem Matches.look (h : Matches s now (.look n :: acts) t d) :
    Matches s now acts (if t.number = n then t.look s else t) d := by
  cases h with
  | atRest finished last ended =>
    have same : t.look s = t := by simp [Task.look, finished]
    rw [same, ite_self]
    exact .atRest finished last ended
  | running h =>
    by_cases own : t.number = n
    · subst own
      rw [if_pos rfl]
      by_cases stops : (s t.signal).Stops
      · have ends : (Act.look t.number : Act π γ).ends s t.signal t.number = true :=
          Act.ends_eq_true_iff.mpr ⟨rfl, stops⟩
        refine .atRest (h.finished_look stops) ?_ ?_
        · rw [h.last, runningTime_cons_of_ends ends]
          exact Nat.le_refl now
        · rw [h.ended, comesToEnd, ends, Bool.true_or]
      · obtain ⟨value, isOpen⟩ : (s t.signal).value = false ∧ (s t.signal).closed = false := by
          simpa [Signal.Stops] using stops
        have looked : t.look s = { t with seen := (s t.signal).sent } := by
          simp [Task.look, h.unfinished, isOpen, value]
        have past := h.past rfl (by simp [Act.ends, stops])
        rw [looked]
        exact .running { past with seen := Nat.le_refl _, told := fun _ => value }
    · rw [if_neg own]
      exact .running (h.past rfl (by simp [Act.ends, Ne.symm own]))

/-- The next instant is a multiple of the period after the start if it is that of the next turn. -/
theorem Runs.multiple_iff (h : Runs s now acts t d) :
    d.period ∣ now + 1 - d.began ↔ t.next = now + 1 := by
  have began := h.began
  have after := h.after
  have within := h.within
  constructor
  · intro multiple
    have rest : d.period ∣ t.next - (now + 1) := by
      have between := Nat.dvd_sub h.multiple multiple
      rwa [show t.next - d.began - (now + 1 - d.began) = t.next - (now + 1) by omega] at between
    have none := Nat.eq_zero_of_dvd_of_lt rest (by omega)
    omega
  · intro next
    rw [← next]
    exact h.multiple

/-- **Who is due is whose turn it is.** -/
theorem Matches.isDue_eq (h : Matches s now (.advance (n + 1) :: acts) t d) :
    World.isDue (now + 1) t = d.isTurn (now + 1) := by
  cases h with
  | atRest finished last ended =>
    have past : ¬ now + 1 ≤ d.last := by omega
    simp [World.isDue, finished, Duty.isTurn, past]
  | running h =>
    have last := h.last
    rw [runningTime_advance] at last
    have upTo : now + 1 ≤ d.last := by omega
    have since : d.began < now + 1 := Nat.lt_succ_of_le h.began
    rw [World.isDue, Duty.isTurn, h.unfinished, decide_eq_true since, decide_eq_true upTo,
      decide_eq_decide.mpr h.multiple_iff]
    rfl

/-- **An instant passes for a task.** -/
theorem Matches.tick (h : Matches s now (.advance (n + 1) :: acts) t d) :
    Matches s (now + 1) (.advance n :: acts)
      (if World.isDue (now + 1) t then { t with next := t.next + t.period } else t) d := by
  cases h with
  | atRest finished last ended =>
    have idle : World.isDue (now + 1) t = false := by simp [World.isDue, finished]
    rw [idle, if_neg Bool.false_ne_true]
    exact .atRest finished (Nat.le_succ_of_le last) ended
  | running h =>
    have last : d.last = now + 1 + runningTime s t.signal t.number (.advance n :: acts) := by
      rw [h.last, runningTime_advance, runningTime_advance]
      omega
    have began := Nat.le_succ_of_le h.began
    by_cases due : t.next = now + 1
    · rw [World.isDue_iff.mpr ⟨h.unfinished, due⟩, if_pos rfl]
      refine .running { h with last, began, after := ?_, within := ?_, multiple := ?_ }
      · show now + 1 < t.next + t.period
        rw [h.period, due]
        exact Nat.lt_add_of_pos_right h.positive
      · show t.next + t.period ≤ now + 1 + d.period
        exact Nat.le_of_eq (by rw [h.period, due])
      · show d.period ∣ t.next + t.period - d.began
        rw [h.period, Nat.sub_add_comm (by omega)]
        exact Nat.dvd_add h.multiple (Nat.dvd_refl d.period)
    · have idle : World.isDue (now + 1) t = false := by simp [World.isDue, due]
      rw [idle, if_neg Bool.false_ne_true]
      have later : now + 1 < t.next := Nat.lt_of_le_of_ne h.after (Ne.symm due)
      have within : t.next ≤ now + 1 + d.period := Nat.le_trans h.within (by omega)
      exact .running { h with last, began, after := later, within }

/-- When nothing is to come, a task acts in the next instant if it has not come to an end, and if a
number of periods has passed since it began. -/
theorem Matches.isDue_next (h : Matches s now ([] : List (Act π γ)) t d) :
    World.isDue (now + 1) t = d.isDue (now + 1) := by
  cases h with
  | atRest finished last ended => simp [World.isDue, finished, Duty.isDue, ended]
  | running h =>
    have goesOn : d.ended = false := h.ended
    rw [World.isDue, Duty.isDue, h.unfinished, goesOn, decide_eq_decide.mpr h.multiple_iff]

theorem Matches.payload_of_isDue (h : Matches s now acts t d)
    (due : World.isDue n t = true) : t.payload = d.payload := by
  cases h with
  | atRest finished last ended => simp [World.isDue, finished] at due
  | running h => exact h.payload

/-- A task that is started matches its duty. -/
theorem matches_started {i period : Nat} {payload : π}
    (ok : (Act.start i payload period : Act π γ).IsOrderly s) (number : Nat)
    (acts : List (Act π γ)) :
    Matches s now acts ⟨number, payload, period, now + period, i, 0, decide (period = 0)⟩
      ⟨number, payload, period, now, now + runningTime s i number acts,
        comesToEnd s i number acts⟩ := by
  obtain ⟨positive, value⟩ := ok
  refine .running {
    unfinished := decide_eq_false (Nat.ne_of_gt positive)
    payload := rfl, period := rfl, positive
    began := Nat.le_refl now
    last := rfl, ended := rfl
    after := Nat.lt_add_of_pos_right positive
    within := Nat.le_refl _
    multiple := ?_
    seen := Nat.zero_le _, told := fun _ => value }
  show period ∣ now + period - now
  exact ⟨1, by omega⟩

end Matches

/-! ## Programs and their timetables -/

section Deeds

variable {ds later : List (Duty π)} {now : Nat} {a : Act π γ} {acts : List (Act π γ)}

theorem turnsAt_append (ds later : List (Duty π)) (t : Nat) :
    (turnsAt (ds ++ later) t : List (Deed π γ)) = turnsAt ds t ++ turnsAt later t := by
  rw [turnsAt, List.filter_append, List.map_append, turnsAt, turnsAt]

theorem turnsAt_eq_nil {t : Nat} (h : ∀ d ∈ ds, d.isTurn t = false) :
    (turnsAt ds t : List (Deed π γ)) = [] := by
  rw [turnsAt, List.filter_eq_nil_iff.mpr fun d hd => by simp [h d hd], List.map_nil]

/-- Duties that begin after an act have no turn in it. -/
theorem deeds_append_of_later (h : ∀ d ∈ later, now + a.duration ≤ d.began) :
    a.deeds (ds ++ later) now = a.deeds ds now := by
  cases a with
  | advance duration =>
    refine List.flatMap_congr fun t ht => ?_
    have upTo := (List.mem_range'_1.mp ht).2
    have none : (turnsAt later t : List (Deed π γ)) = [] := by
      refine turnsAt_eq_nil fun d hd => ?_
      have began : now + duration ≤ d.began := h d hd
      have notYet : ¬ d.began < t := by omega
      simp [Duty.isTurn, notYet]
    rw [turnsAt_append, none, List.append_nil]
  | _ => rfl

/-- Duties that are over have no turn at all. -/
theorem deeds_append_of_over (h : ∀ d ∈ ds, d.last ≤ d.began) (later : List (Duty π)) (now : Nat)
    (acts : List (Act π γ)) : deeds (ds ++ later) now acts = deeds later now acts := by
  have none (t : Nat) : (turnsAt ds t : List (Deed π γ)) = [] := by
    refine turnsAt_eq_nil fun d hd => ?_
    have ended := h d hd
    have past : ¬ (d.began < t ∧ t ≤ d.last) := by omega
    simp only [Duty.isTurn, ← Bool.decide_and, decide_eq_false past, Bool.false_and]
  have same : (turnsAt (ds ++ later) : Nat → List (Deed π γ)) = turnsAt later :=
    funext fun t => by rw [turnsAt_append, none, List.nil_append]
  induction acts generalizing now with
  | nil => rfl
  | cons a acts ih =>
    rw [deeds, deeds, ih]
    cases a with
    | advance duration => rw [Act.deeds, Act.deeds, same]
    | _ => rfl

theorem began_of_duty? {s : Nat → Signal} {number : Nat} {d : Duty π}
    (h : a.duty? s number now acts = some d) : d.began = now + a.duration := by
  cases a with
  | start => cases h; rfl
  | _ => cases h

/-- Nothing begins before its time. -/
theorem le_began {s : Nat → Signal} {number : Nat} :
    ∀ d ∈ duties s number now acts, now ≤ d.began := by
  induction acts generalizing s number now with
  | nil => nofun
  | cons a acts ih =>
    intro d hd
    rcases List.mem_append.mp hd with hd | hd
    · rw [began_of_duty? (Option.mem_toList.mp hd)]
      exact Nat.le_add_right now a.duration
    · exact Nat.le_trans (Nat.le_add_right now a.duration) (ih d hd)

/-- Nothing begins before the end of the act in which it is started. -/
theorem le_began_cons {s : Nat → Signal} {number : Nat} :
    ∀ d ∈ duties s number now (a :: acts), now + a.duration ≤ d.began := by
  intro d hd
  rcases List.mem_append.mp hd with hd | hd
  · exact Nat.le_of_eq (began_of_duty? (Option.mem_toList.mp hd)).symm
  · exact le_began d hd

end Deeds

namespace World

variable {does : π → σ → σ} {alters : γ → σ → σ} {w : World π σ} {a : Act π γ}
  {acts : List (Act π γ)} {ds : List (Duty π)}

/-- Each task of a program matches a duty. -/
def Matched (w : World π σ) (acts : List (Act π γ)) (ds : List (Duty π)) : Prop :=
  List.Forall₂ (Matches w.signals w.now acts) w.tasks ds

/-- An act that takes no time, and is no look, is past. -/
theorem Matched.past (h : w.Matched (a :: acts) ds) (still : a.duration = 0)
    (noLook : ∀ s i number, a.ends s i number = false) :
    World.Matched { w with signals := a.signals w.signals } acts ds :=
  h.imp fun _ _ hm => hm.past still (noLook _ _ _)

/-- Those tasks act whose duties say so. -/
theorem foldl_due {tasks : List (Task π)} {n : Nat} {p : Duty π → Bool}
    (h : List.Forall₂ (fun t d => isDue n t = p d ∧ (isDue n t = true → t.payload = d.payload))
      tasks ds) (state : σ) :
    (tasks.filter (isDue n)).foldl (fun s t => does t.payload s) state =
      (ds.filter p).foldl (fun s d => does d.payload s) state := by
  induction h generalizing state with
  | nil => rfl
  | @cons t d tasks ds ht _ ih =>
    obtain ⟨same, payload⟩ := ht
    rw [List.filter_cons, List.filter_cons, ← same]
    cases due : isDue n t with
    | false => exact ih state
    | true =>
      rw [if_pos rfl, if_pos rfl, List.foldl_cons, List.foldl_cons, payload due]
      exact ih _

/-- **An instant passes.** -/
theorem Matched.tick {n : Nat} (h : w.Matched (.advance (n + 1) :: acts) ds) :
    (w.tick does (w.now + 1)).Matched (.advance n :: acts) ds ∧
      (w.tick does (w.now + 1)).state =
        (turnsAt ds (w.now + 1)).foldl (Deed.perform does alters) w.state :=
  ⟨List.forall₂_map_left_iff.mpr (h.imp fun _ _ hm => hm.tick), by
    rw [turnsAt, List.foldl_map]
    exact foldl_due (h.imp fun _ _ hm => ⟨hm.isDue_eq, hm.payload_of_isDue⟩) w.state⟩

theorem signals_advance (does : π → σ → σ) (n : Nat) (w : World π σ) :
    (w.advance does n).signals = w.signals := by
  induction n generalizing w with
  | zero => rw [advance_zero]
  | succ n ih => exact (congrArg signals (advance_succ does n w)).trans (ih _)

variable (does alters)

/-- **Time passes.** -/
theorem Matched.advance {n : Nat} (h : w.Matched (.advance n :: acts) ds) :
    (w.advance does n).Matched acts ds ∧
      (w.advance does n).state =
        ((Act.advance n : Act π γ).deeds ds w.now).foldl (Deed.perform does alters) w.state := by
  induction n generalizing w with
  | zero =>
    rw [advance_zero]
    exact ⟨h.past rfl fun _ _ _ => rfl, rfl⟩
  | succ n ih =>
    obtain ⟨matched, state⟩ := h.tick
    obtain ⟨matched', state'⟩ := ih matched
    rw [advance_succ]
    refine ⟨matched', state'.trans ?_⟩
    rw [state, Act.deeds, Act.deeds, List.range'_succ, List.flatMap_cons, List.foldl_append]
    rfl

/-- **An act keeps the tasks matched and does what is on the timetable.** -/
theorem matched_act (h : w.Matched (a :: acts) ds) (ok : a.IsOrderly w.signals) :
    (w.act does alters a).Matched acts
        (ds ++ (a.duty? w.signals w.tasks.length w.now acts).toList) ∧
      (w.act does alters a).state =
        (a.deeds ds w.now).foldl (Deed.perform does alters) w.state ∧
      (w.act does alters a).signals = a.signals w.signals ∧
      (w.act does alters a).now = w.now + a.duration := by
  cases a with
  | change c =>
    rw [Act.duty?_eq_none rfl, Option.toList_none, List.append_nil]
    exact ⟨h.past rfl fun _ _ _ => rfl, rfl, rfl, rfl⟩
  | start i payload period =>
    refine ⟨List.rel_append (h.past rfl fun _ _ _ => rfl) (.cons ?_ .nil), rfl, rfl, rfl⟩
    exact matches_started ok w.tasks.length acts
  | send i value =>
    rw [Act.duty?_eq_none rfl, Option.toList_none, List.append_nil]
    exact ⟨h.past rfl fun _ _ _ => rfl, rfl, rfl, rfl⟩
  | close i =>
    rw [Act.duty?_eq_none rfl, Option.toList_none, List.append_nil]
    exact ⟨h.past rfl fun _ _ _ => rfl, rfl, rfl, rfl⟩
  | look number =>
    rw [Act.duty?_eq_none rfl, Option.toList_none, List.append_nil]
    exact ⟨List.forall₂_map_left_iff.mpr (h.imp fun _ _ hm => hm.look), rfl, rfl, rfl⟩
  | advance n =>
    rw [Act.duty?_eq_none rfl, Option.toList_none, List.append_nil]
    obtain ⟨matched, state⟩ := h.advance does alters
    exact ⟨matched, state, signals_advance does n w, now_advance does n w⟩

theorem length_tasks_advance (n : Nat) (w : World π σ) :
    (w.advance does n).tasks.length = w.tasks.length := by
  induction n generalizing w with
  | zero => rw [advance_zero]
  | succ n ih => rw [advance_succ, ih, tick, List.length_map]

theorem length_tasks_act (a : Act π γ) (w : World π σ) :
    (w.act does alters a).tasks.length = w.tasks.length + if a.starts then 1 else 0 := by
  cases a with
  | start => exact List.length_append
  | look => exact List.length_map _
  | advance n => exact length_tasks_advance does n w
  | _ => rfl

/-- **A row of acts keeps the tasks matched and does what is on the timetable.** -/
theorem matched_run (h : w.Matched acts ds) (ok : Orderly w.signals acts) :
    let all := ds ++ duties w.signals w.tasks.length w.now acts
    (w.run does alters acts).Matched ([] : List (Act π γ)) all ∧
      (w.run does alters acts).state =
        (deeds all w.now acts).foldl (Deed.perform does alters) w.state ∧
      (w.run does alters acts).now = w.now + elapsed acts := by
  induction acts generalizing w ds with
  | nil => exact ⟨by rwa [duties, List.append_nil], rfl, rfl⟩
  | cons a acts ih =>
    intro all
    obtain ⟨okNow, okLater⟩ := ok
    obtain ⟨matched, state, signals, now⟩ := matched_act does alters h okNow
    rw [← signals] at okLater
    obtain ⟨matched', state', now'⟩ := ih matched okLater
    rw [signals, now, length_tasks_act, List.append_assoc] at matched' state'
    have here : a.deeds all w.now = a.deeds ds w.now := deeds_append_of_later le_began_cons
    refine ⟨matched', state'.trans ?_, now'.trans ?_⟩
    · rw [state, ← here, deeds, List.foldl_append]
      rfl
    · rw [now, elapsed_cons, Nat.add_assoc]

/-- When nothing is to come, those tasks are finished that come to an end. -/
theorem Matched.finished_eq (h : w.Matched ([] : List (Act π γ)) ds) :
    w.tasks.map (fun t => t.finished) = ds.map fun d => d.ended := by
  have same : List.Forall₂ (fun t d => t.finished = d.ended) w.tasks ds := by
    refine List.Forall₂.imp (fun t d hm => ?_) h
    cases hm with
    | atRest finished last ended => exact finished.trans ended.symm
    | running hm => exact hm.unfinished.trans hm.ended.symm
  rw [← List.forall₂_eq_eq_eq, List.forall₂_map_left_iff, List.forall₂_map_right_iff]
  exact same

/-- The duty of a task that is over. -/
def dutyOver (now : Nat) (t : Task π) : Duty π := ⟨0, t.payload, t.period, now, now, true⟩

theorem matched_dutyOver (atRest : ∀ t ∈ w.tasks, t.finished = true) (acts : List (Act π γ)) :
    w.Matched acts (w.tasks.map (dutyOver w.now)) :=
  List.forall₂_map_right_iff.mpr (List.forall₂_same.mpr fun t ht =>
    .atRest (atRest t ht) (Nat.le_refl w.now) rfl)

section Fresh

variable (atRest : ∀ t ∈ w.tasks, t.finished = true) (ok : Orderly w.signals acts)
include atRest ok

/-- **A program does what is on its timetable, in that order, and nothing else.** -/
theorem run_eq_timetable :
    (w.run does alters acts).state =
        (timetable w.signals w.tasks.length w.now acts).foldl (Deed.perform does alters) w.state ∧
      (w.run does alters acts).tasks.map (fun t => t.finished) =
        (w.tasks.map fun _ => true) ++
          (duties w.signals w.tasks.length w.now acts).map (fun d => d.ended) ∧
      (w.run does alters acts).now = w.now + elapsed acts := by
  obtain ⟨matched, state, now⟩ := matched_run does alters (matched_dutyOver atRest acts) ok
  refine ⟨?_, ?_, now⟩
  · rw [state, deeds_append_of_over, timetable]
    intro d hd
    obtain ⟨t, -, rfl⟩ := List.mem_map.mp hd
    exact Nat.le_refl w.now
  · rw [matched.finished_eq, List.map_append, List.map_map]
    rfl

/-- **What is done in the next instant**: those tasks act that have not come to an end, and for which a
number of periods has passed since they began. -/
theorem run_next_instant :
    ((w.run does alters acts).advance does 1).state =
      ((duties w.signals w.tasks.length w.now acts).filter fun d =>
        d.isDue (w.now + elapsed acts + 1)).foldl (fun s d => does d.payload s)
          (w.run does alters acts).state := by
  obtain ⟨matched, -, now⟩ := matched_run does alters (matched_dutyOver atRest acts) ok
  have none : (w.tasks.map (dutyOver w.now)).filter
      (fun d => d.isDue (w.now + elapsed acts + 1)) = [] := by
    refine List.filter_eq_nil_iff.mpr fun d hd => ?_
    obtain ⟨t, -, rfl⟩ := List.mem_map.mp hd
    simp [Duty.isDue, dutyOver]
  have due : List.Forall₂ (fun t d => isDue (w.now + elapsed acts + 1) t =
        d.isDue (w.now + elapsed acts + 1) ∧
        (isDue (w.now + elapsed acts + 1) t = true → t.payload = d.payload))
      (w.run does alters acts).tasks (w.tasks.map (dutyOver w.now) ++
        duties w.signals w.tasks.length w.now acts) := by
    rw [← now]
    exact List.Forall₂.imp (fun _ _ hm => ⟨hm.isDue_next, hm.payload_of_isDue⟩) matched
  rw [advance_one, now]
  refine (foldl_due due _).trans ?_
  rw [List.filter_append, none, List.nil_append]

end Fresh

end World

end ShortLink.Periodic
