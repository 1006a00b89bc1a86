/-
  What stands on a timetable.

  A timetable holds the turns of all tasks and the changes from outside.  Here it is taken apart.

  1. The turns of one task are its start and one period, its start and two periods, and so on, as many as
     there are whole periods in the time for which it runs (`turnsOf_timetable`).

  2. At every moment the timetable falls into what was before and what comes after
     (`exists_timetable_append`).

  3. Of what is done with the signals only what they say in the end is on a timetable
     (`timetable_replace`).
-/
import Mathlib.Data.List.Sort
import ShortLink.Proofs.Periodic.Timetable

namespace ShortLink.Periodic

variable {π γ : Type}

/-! ## The duty of one task -/

section Duties

variable {s : Nat → Signal} {number now : Nat} {a : Act π γ} {acts : List (Act π γ)}

theorem number_of_duty? {d : Duty π} (h : a.duty? s number now acts = some d) :
    a.starts = true ∧ d.number = number := by
  cases a with
  | start => cases h; exact ⟨rfl, rfl⟩
  | _ => cases h

theorem length_duty? : (a.duty? s number now acts).toList.length = if a.starts then 1 else 0 := by
  cases a <;> rfl

/-- Tasks are numbered from the first number on. -/
theorem number_bounds :
    ∀ d ∈ duties s number now acts, number ≤ d.number ∧ d.number < number + started acts := by
  induction acts generalizing s number now with
  | nil => nofun
  | cons a acts ih =>
    intro d hd
    rw [started_cons]
    rcases List.mem_append.mp hd with hd | hd
    · obtain ⟨starts, rfl⟩ := number_of_duty? (Option.mem_toList.mp hd)
      rw [if_pos starts]
      omega
    · have bounds := ih d hd
      omega

/-- The duties of a row of acts are those of its beginning and then those of the rest. -/
theorem exists_duties_append (s : Nat → Signal) (number now : Nat) (before rest : List (Act π γ)) :
    ∃ earlier, duties s number now (before ++ rest) =
        earlier ++ duties (signalsAfter s before) (number + started before)
          (now + elapsed before) rest ∧
      earlier.length = started before ∧ ∀ d ∈ earlier, d.number < number + started before := by
  induction before generalizing s number now with
  | nil => exact ⟨[], rfl, rfl, nofun⟩
  | cons a before ih =>
    obtain ⟨earlier, eq, length, below⟩ := ih (a.signals s)
      (number + if a.starts then 1 else 0) (now + a.duration)
    refine ⟨(a.duty? s number now (before ++ rest)).toList ++ earlier, ?_, ?_, fun d hd => ?_⟩
    · rw [List.cons_append, duties, eq, List.append_assoc, started_cons, elapsed_cons, Nat.add_assoc,
        Nat.add_assoc]
      rfl
    · rw [List.length_append, length_duty?, length, started_cons]
    · rw [started_cons, ← Nat.add_assoc]
      rcases List.mem_append.mp hd with hd | hd
      · obtain ⟨starts, rfl⟩ := number_of_duty? (Option.mem_toList.mp hd)
        rw [if_pos starts]
        omega
      · exact below d hd

/-- The duty of such a task. -/
def Duty.between (s : Nat → Signal) (first now : Nat) (before : List (Act π γ)) (i : Nat)
    (payload : π) (period : Nat) (after : List (Act π γ)) : Duty π where
  number := first + started before
  payload := payload
  period := period
  began := now + elapsed before
  last := now + elapsed before + runningTime (signalsAfter s before) i (first + started before) after
  ended := comesToEnd (signalsAfter s before) i (first + started before) after

variable (s) (first now : Nat) (before : List (Act π γ)) (i : Nat) (payload : π) (period : Nat)
  (after : List (Act π γ))

/-- The duty of a task stands between those of the tasks before and after it. -/
theorem exists_duties_eq :
    ∃ earlier later,
      duties s first now (before ++ .start i payload period :: after) =
        earlier ++ .between s first now before i payload period after :: later ∧
      earlier.length = started before ∧
      (∀ d ∈ earlier, d.number ≠ first + started before) ∧
      ∀ d ∈ later, d.number ≠ first + started before := by
  obtain ⟨earlier, eq, length, below⟩ :=
    exists_duties_append s first now before (.start i payload period :: after)
  refine ⟨earlier, duties (signalsAfter s before) (first + started before + 1)
    (now + elapsed before) after, eq, length, fun d hd => Nat.ne_of_lt (below d hd), fun d hd => ?_⟩
  have above : first + started before + 1 ≤ d.number := (number_bounds d hd).1
  omega

/-- Whether a task comes to an end stands at its number. -/
theorem ended_duties :
    ((duties s first now (before ++ .start i payload period :: after)).map
      fun d => d.ended)[started before]? =
        some (comesToEnd (signalsAfter s before) i (first + started before) after) := by
  obtain ⟨earlier, later, eq, length, -, -⟩ :=
    exists_duties_eq s first now before i payload period after
  rw [eq, List.map_append, List.map_cons, List.getElem?_append_right (by simp [length])]
  simp [Duty.between, length]

end Duties

/-- Every duty is that of a task that is started. -/
theorem exists_of_mem_duties {s : Nat → Signal} {first now : Nat} {acts : List (Act π γ)}
    {d : Duty π} (h : d ∈ duties s first now acts) :
    ∃ before i payload period after, acts = before ++ .start i payload period :: after ∧
      d.payload = payload ∧ d.period = period ∧ d.began = now + elapsed before ∧
      d.ended = comesToEnd (signalsAfter s before) i (first + started before) after := by
  induction acts generalizing s first now with
  | nil => cases h
  | cons a acts ih =>
    rcases List.mem_append.mp h with h | h
    · cases a with
      | start i payload period =>
        cases Option.mem_toList.mp h
        exact ⟨[], i, payload, period, acts, rfl, rfl, rfl, rfl, rfl⟩
      | _ => cases h
    · obtain ⟨before, i, payload, period, after, rfl, hp, hd, hb, he⟩ := ih h
      refine ⟨a :: before, i, payload, period, after, rfl, hp, hd, ?_, ?_⟩
      · rw [hb, elapsed_cons, Nat.add_assoc]
      · rw [he, started_cons, Nat.add_assoc]
        rfl
/-! ## Turns -/

/-- The turns of a task on a timetable: when, and with what. -/
def turnsOf (number : Nat) (table : List (Deed π γ)) : List (Nat × π) :=
  table.filterMap fun
    | .change _ => none
    | .turn t n payload => if n = number then some (t, payload) else none

section Turns

variable {number now : Nat} {ds earlier later : List (Duty π)} {d : Duty π}

theorem turnsOf_append (number : Nat) (table more : List (Deed π γ)) :
    turnsOf number (table ++ more) = turnsOf number table ++ turnsOf number more :=
  List.filterMap_append

theorem turnsOf_turnsAt_of_others (h : ∀ d ∈ ds, d.number ≠ number) (t : Nat) :
    turnsOf number (turnsAt ds t : List (Deed π γ)) = [] := by
  refine List.filterMap_eq_nil_iff.mpr fun deed hd => ?_
  obtain ⟨d, turn, rfl⟩ := List.mem_map.mp hd
  simp [h d (List.mem_of_mem_filter turn)]

/-- One task has one turn at an instant at most. -/
theorem turnsOf_turnsAt (he : ∀ other ∈ earlier, other.number ≠ d.number)
    (hl : ∀ other ∈ later, other.number ≠ d.number) (t : Nat) :
    turnsOf d.number (turnsAt (earlier ++ d :: later) t : List (Deed π γ)) =
      if d.isTurn t then [(t, d.payload)] else [] := by
  have own : turnsOf d.number (turnsAt [d] t : List (Deed π γ)) =
      if d.isTurn t then [(t, d.payload)] else [] := by
    rw [turnsAt, List.filter_singleton]
    cases d.isTurn t <;> simp [turnsOf]
  rw [List.append_cons, turnsAt_append, turnsAt_append, turnsOf_append, turnsOf_append,
    turnsOf_turnsAt_of_others he, turnsOf_turnsAt_of_others hl, own, List.nil_append,
    List.append_nil]

/-- The turns of a task in a row of acts, instant by instant. -/
theorem turnsOf_deeds (number : Nat) (ds : List (Duty π)) (now : Nat) (acts : List (Act π γ)) :
    turnsOf number (deeds ds now acts) = (List.range' (now + 1) (elapsed acts)).flatMap fun t =>
      turnsOf number (turnsAt ds t : List (Deed π γ)) := by
  induction acts generalizing now with
  | nil => rfl
  | cons a acts ih =>
    have here : turnsOf number (a.deeds ds now) =
        (List.range' (now + 1) a.duration).flatMap fun t =>
          turnsOf number (turnsAt ds t : List (Deed π γ)) := by
      cases a with
      | advance duration => exact List.filterMap_flatMap
      | _ => rfl
    rw [deeds, turnsOf_append, here, ih, elapsed_cons, ← List.range'_append_1, List.flatMap_append,
      Nat.add_right_comm]

theorem flatMap_ite {α β : Type} (p : α → Bool) (f : α → β) (l : List α) :
    (l.flatMap fun x => if p x then [f x] else []) = (l.filter p).map f := by
  induction l with
  | nil => rfl
  | cons x l ih =>
    rw [List.flatMap_cons, ih, List.filter_cons]
    split <;> rfl

theorem isTurn_iff {t : Nat} :
    d.isTurn t = true ↔ d.began < t ∧ t ≤ d.last ∧ d.period ∣ t - d.began := by
  simp [Duty.isTurn, and_assoc]

/-- The turns are at the multiples of the period after the start. -/
theorem isTurn_iff_exists (positive : 0 < d.period) {t : Nat} :
    d.isTurn t = true ↔
      ∃ k < (d.last - d.began) / d.period, d.began + (k + 1) * d.period = t := by
  rw [isTurn_iff]
  constructor
  · rintro ⟨after, upTo, m, hm⟩
    obtain ⟨k, rfl⟩ : ∃ k, m = k + 1 := by
      refine Nat.exists_eq_succ_of_ne_zero ?_
      rintro rfl
      omega
    have counted : k + 1 ≤ (d.last - d.began) / d.period := by
      rw [Nat.le_div_iff_mul_le positive, Nat.mul_comm, ← hm]
      omega
    refine ⟨k, counted, ?_⟩
    rw [Nat.mul_comm, ← hm]
    omega
  · rintro ⟨k, counted, rfl⟩
    have upTo : (k + 1) * d.period ≤ d.last - d.began := (Nat.le_div_iff_mul_le positive).mp counted
    have some : 0 < (k + 1) * d.period := Nat.mul_pos k.succ_pos positive
    refine ⟨by omega, by omega, ?_⟩
    rw [Nat.add_sub_cancel_left]
    exact Nat.dvd_mul_left d.period (k + 1)

/-- **The instants at which a task has a turn**: its start and one period, and two periods, and so on. -/
theorem filter_isTurn {n : Nat} (positive : 0 < d.period) (began : now ≤ d.began)
    (last : d.last ≤ now + n) :
    (List.range' (now + 1) n).filter d.isTurn =
      (List.range ((d.last - d.began) / d.period)).map fun k => d.began + (k + 1) * d.period := by
  refine List.Pairwise.eq_of_mem_iff (List.Pairwise.filter _ List.pairwise_lt_range') ?_ fun t => ?_
  · rw [List.pairwise_map]
    refine List.pairwise_lt_range.imp fun h => ?_
    exact Nat.add_lt_add_left (Nat.mul_lt_mul_of_pos_right (Nat.succ_lt_succ h) positive) _
  · rw [List.mem_filter, isTurn_iff_exists positive, List.mem_map, List.mem_range'_1]
    simp only [List.mem_range]
    refine ⟨fun ⟨_, turn⟩ => turn, fun turn => ⟨?_, turn⟩⟩
    have bounds := isTurn_iff.mp ((isTurn_iff_exists positive).mpr turn)
    omega

/-- **The turns of a task** are its start and one period, its start and two periods, and so on, as many
as there are whole periods in the time for which it runs. -/
theorem turnsOf_timetable {period : Nat} (positive : 0 < period) (s : Nat → Signal) (first now : Nat)
    (before : List (Act π γ)) (i : Nat) (payload : π) (after : List (Act π γ)) :
    let number := first + started before
    turnsOf number (timetable s first now (before ++ .start i payload period :: after)) =
      (List.range (runningTime (signalsAfter s before) i number after / period)).map fun k =>
        (now + elapsed before + (k + 1) * period, payload) := by
  intro number
  obtain ⟨earlier, later, eq, -, he, hl⟩ :=
    exists_duties_eq s first now before i payload period after
  let duty := Duty.between s first now before i payload period after
  let time := runningTime (signalsAfter s before) i number after
  have length : elapsed (before ++ .start i payload period :: after) =
      elapsed before + elapsed after := by
    rw [elapsed_append, elapsed_cons]
    exact congrArg _ (Nat.zero_add _)
  have last : duty.last ≤ now + (elapsed before + elapsed after) := by
    have within := runningTime_le (signalsAfter s before) i number after
    show now + elapsed before + time ≤ _
    omega
  have instants := filter_isTurn positive (Nat.le_add_right now (elapsed before)) last
  have turns : turnsOf number (deeds (earlier ++ duty :: later) now
      (before ++ .start i payload period :: after)) =
        ((List.range' (now + 1) (elapsed before + elapsed after)).filter duty.isTurn).map
          fun t => (t, payload) := by
    rw [turnsOf_deeds, length, ← flatMap_ite]
    exact congrArg (List.flatMap · _) (funext fun t => turnsOf_turnsAt (d := duty) he hl t)
  rw [timetable, eq, turns, instants, List.map_map]
  show (List.range ((now + elapsed before + time - (now + elapsed before)) / period)).map _ = _
  rw [Nat.add_sub_cancel_left]
  rfl

/-- Who has a turn has a duty. -/
theorem exists_duty_of_turn {acts : List (Act π γ)} {t : Nat} {payload : π}
    (h : Deed.turn t number payload ∈ deeds ds now acts) : ∃ d ∈ ds, d.number = number := by
  induction acts generalizing now with
  | nil => cases h
  | cons a acts ih =>
    rcases List.mem_append.mp h with h | h
    · cases a with
      | advance duration =>
        obtain ⟨t', -, h⟩ := List.mem_flatMap.mp h
        obtain ⟨d, turn, eq⟩ := List.mem_map.mp h
        cases eq
        exact ⟨d, List.mem_of_mem_filter turn, rfl⟩
      | change c => cases List.mem_singleton.mp h
      | _ => cases h
    · exact ih h

/-- Only tasks that are started have turns. -/
theorem number_bounds_of_turn {s : Nat → Signal} {first : Nat} {acts : List (Act π γ)} {t : Nat}
    {payload : π} (h : Deed.turn t number payload ∈ timetable s first now acts) :
    first ≤ number ∧ number < first + started acts := by
  obtain ⟨d, hd, rfl⟩ := exists_duty_of_turn h
  exact number_bounds d hd

theorem turnsOf_timetable_of_le (s : Nat → Signal) (first now : Nat) {acts : List (Act π γ)}
    (h : first + started acts ≤ number) : turnsOf number (timetable s first now acts) = [] := by
  refine List.filterMap_eq_nil_iff.mpr fun deed hd => ?_
  cases deed with
  | change c => rfl
  | turn t n payload =>
    have lt := (number_bounds_of_turn hd).2
    have other : n ≠ number := by omega
    simp [other]

end Turns

/-! ## Moments -/

/-- The changes from outside among some acts. -/
def changes (acts : List (Act π γ)) : List γ :=
  acts.filterMap fun
    | .change c => some c
    | _ => none

/-- The changes from outside on a timetable. -/
def changesOn (table : List (Deed π γ)) : List γ :=
  table.filterMap fun
    | .change c => some c
    | .turn .. => none

section Moments

variable {ds : List (Duty π)} {now : Nat} {acts : List (Act π γ)}

theorem deeds_append (ds : List (Duty π)) (now : Nat) (before after : List (Act π γ)) :
    deeds ds now (before ++ after) = deeds ds now before ++ deeds ds (now + elapsed before) after := by
  induction before generalizing now with
  | nil => rfl
  | cons a before ih =>
    rw [List.cons_append, deeds, deeds, ih, elapsed_cons, List.append_assoc, Nat.add_assoc]

theorem changesOn_turnsAt (ds : List (Duty π)) (t : Nat) :
    changesOn (turnsAt ds t : List (Deed π γ)) = [] := by
  refine List.filterMap_eq_nil_iff.mpr fun deed hd => ?_
  obtain ⟨d, -, rfl⟩ := List.mem_map.mp hd
  rfl

theorem changesOn_deeds (ds : List (Duty π)) (now : Nat) (acts : List (Act π γ)) :
    changesOn (deeds ds now acts) = changes acts := by
  induction acts generalizing now with
  | nil => rfl
  | cons a acts ih =>
    rw [deeds, changesOn, List.filterMap_append, ← changesOn, ← changesOn, ih]
    cases a with
    | advance duration =>
      have none : changesOn ((Act.advance duration : Act π γ).deeds ds now) = [] := by
        rw [Act.deeds, changesOn, List.filterMap_flatMap, List.flatMap_eq_nil_iff]
        exact fun t _ => changesOn_turnsAt ds t
      rw [none]
      rfl
    | _ => rfl

/-- The turns in a row of acts are at the instants that pass in it. -/
theorem time_of_turn {t number : Nat} {payload : π}
    (h : Deed.turn t number payload ∈ deeds ds now acts) : now < t ∧ t ≤ now + elapsed acts := by
  induction acts generalizing now with
  | nil => cases h
  | cons a acts ih =>
    rw [elapsed_cons]
    rcases List.mem_append.mp h with h | h
    · cases a with
      | advance duration =>
        obtain ⟨t', ht, h⟩ := List.mem_flatMap.mp h
        obtain ⟨d, -, eq⟩ := List.mem_map.mp h
        cases eq
        have bounds := List.mem_range'_1.mp ht
        show now < t ∧ t ≤ now + (duration + elapsed acts)
        omega
      | change c => cases List.mem_singleton.mp h
      | _ => cases h
    · have bounds := ih h
      omega

/-- **At every moment the timetable falls into two**: before it stand the changes that were made until
then and the turns up to this moment, and after it the later ones. -/
theorem exists_timetable_append (s : Nat → Signal) (first now : Nat) (before after : List (Act π γ)) :
    ∃ early late, timetable s first now (before ++ after) = early ++ late ∧
      changesOn early = changes before ∧ changesOn late = changes after ∧
      (∀ t number payload, Deed.turn t number payload ∈ early → t ≤ now + elapsed before) ∧
      ∀ t number payload, Deed.turn t number payload ∈ late → now + elapsed before < t := by
  refine ⟨_, _, deeds_append _ now before after, changesOn_deeds _ _ before,
    changesOn_deeds _ _ after, fun t number payload h => ?_, fun t number payload h => ?_⟩
  · exact (time_of_turn h).2
  · exact (time_of_turn h).1

end Moments

/-! ## Settings -/

section Settings

variable {s : Nat → Signal} {settings other : List (Act π γ)}
  (sets : ∀ a ∈ settings, a.sets = true) (setsOther : ∀ a ∈ other, a.sets = true)

theorem Act.still_of_sets {a : Act π γ} (h : a.sets = true) :
    a.duration = 0 ∧ a.starts = false ∧ (∀ s i number, a.ends s i number = false) ∧
      (∀ s, a.IsOrderly s) ∧ ∀ (ds : List (Duty π)) now, a.deeds ds now = [] := by
  cases a with
  | send i value => exact ⟨rfl, rfl, fun _ _ _ => rfl, fun _ => trivial, fun _ _ => rfl⟩
  | close i => exact ⟨rfl, rfl, fun _ _ _ => rfl, fun _ => trivial, fun _ _ => rfl⟩
  | _ => cases h

section One

include sets

/-- Settings take no time and end no task. -/
theorem runningTime_settings (i number : Nat) (later : List (Act π γ)) :
    runningTime s i number (settings ++ later) =
        runningTime (signalsAfter s settings) i number later ∧
      comesToEnd s i number (settings ++ later) =
        comesToEnd (signalsAfter s settings) i number later := by
  induction settings generalizing s with
  | nil => exact ⟨rfl, rfl⟩
  | cons a settings ih =>
    obtain ⟨now, rest⟩ := List.forall_mem_cons.mp sets
    obtain ⟨still, -, goesOn, -⟩ := Act.still_of_sets now
    obtain ⟨time, ended⟩ := ih rest (s := a.signals s)
    rw [List.cons_append, runningTime_cons (goesOn s i number), still, Nat.zero_add, time, comesToEnd,
      goesOn, Bool.false_or, ended]
    exact ⟨rfl, rfl⟩

/-- Settings start nothing and do nothing. -/
theorem duties_settings (number now : Nat) (later : List (Act π γ)) :
    duties s number now (settings ++ later) =
      duties (signalsAfter s settings) number now later := by
  induction settings generalizing s with
  | nil => rfl
  | cons a settings ih =>
    obtain ⟨here, rest⟩ := List.forall_mem_cons.mp sets
    obtain ⟨still, starts, -⟩ := Act.still_of_sets here
    rw [List.cons_append, duties, Act.duty?_eq_none starts, starts, still, if_neg Bool.false_ne_true]
    exact ih rest

theorem deeds_settings (ds : List (Duty π)) (now : Nat) (later : List (Act π γ)) :
    deeds ds now (settings ++ later) = deeds ds now later := by
  induction settings with
  | nil => rfl
  | cons a settings ih =>
    obtain ⟨here, rest⟩ := List.forall_mem_cons.mp sets
    obtain ⟨still, -, -, -, nothing⟩ := Act.still_of_sets here
    rw [List.cons_append, deeds, nothing, still, List.nil_append]
    exact ih rest

theorem orderly_settings (later : List (Act π γ)) :
    Orderly s (settings ++ later) ↔ Orderly (signalsAfter s settings) later := by
  induction settings generalizing s with
  | nil => rfl
  | cons a settings ih =>
    obtain ⟨here, rest⟩ := List.forall_mem_cons.mp sets
    obtain ⟨-, -, -, fine, -⟩ := Act.still_of_sets here
    exact (and_iff_right (fine s)).trans (ih rest)

end One

theorem Agree.duty?_eq {s' : Nat → Signal} (h : Agree s s') (number now : Nat) (a : Act π γ)
    (acts : List (Act π γ)) : a.duty? s number now acts = a.duty? s' number now acts := by
  cases a with
  | start i payload period => rw [Act.duty?, Act.duty?, h.runningTime_eq, h.comesToEnd_eq]
  | _ => rfl

theorem Agree.duties_eq {s' : Nat → Signal} (h : Agree s s') (number now : Nat)
    (acts : List (Act π γ)) : duties s number now acts = duties s' number now acts := by
  induction acts generalizing s s' number now with
  | nil => rfl
  | cons a acts ih => rw [duties, duties, h.duty?_eq, ih (h.signals a)]

include sets setsOther

theorem runningTime_replace {before : List (Act π γ)}
    (agree : Agree (signalsAfter s (before ++ settings)) (signalsAfter s (before ++ other)))
    (i number : Nat) (later : List (Act π γ)) :
    runningTime s i number (before ++ settings ++ later) =
        runningTime s i number (before ++ other ++ later) ∧
      comesToEnd s i number (before ++ settings ++ later) =
        comesToEnd s i number (before ++ other ++ later) := by
  induction before generalizing s with
  | nil =>
    obtain ⟨time, ended⟩ := runningTime_settings sets i number later (s := s)
    obtain ⟨timeOther, endedOther⟩ := runningTime_settings setsOther i number later (s := s)
    rw [List.nil_append, List.nil_append, time, timeOther, ended, endedOther]
    exact ⟨agree.runningTime_eq i number later, agree.comesToEnd_eq i number later⟩
  | cons a before ih =>
    obtain ⟨time, ended⟩ := ih agree
    rw [List.cons_append, List.cons_append, List.cons_append, List.cons_append, runningTime,
      runningTime, time, comesToEnd, comesToEnd, ended]
    exact ⟨rfl, rfl⟩

theorem duties_replace {before : List (Act π γ)}
    (agree : Agree (signalsAfter s (before ++ settings)) (signalsAfter s (before ++ other)))
    (number now : Nat) (later : List (Act π γ)) :
    duties s number now (before ++ settings ++ later) =
      duties s number now (before ++ other ++ later) := by
  induction before generalizing s number now with
  | nil =>
    rw [List.nil_append, List.nil_append, duties_settings sets, duties_settings setsOther]
    exact agree.duties_eq number now later
  | cons a before ih =>
    have duty : a.duty? s number now (before ++ settings ++ later) =
        a.duty? s number now (before ++ other ++ later) := by
      cases a with
      | start i payload period =>
        have here : Agree (signalsAfter s (before ++ settings))
          (signalsAfter s (before ++ other)) := agree
        obtain ⟨time, ended⟩ := runningTime_replace sets setsOther here i number later
        rw [Act.duty?, Act.duty?, time, ended]
      | _ => rfl
    rw [List.cons_append, List.cons_append, List.cons_append, List.cons_append, duties, duties, duty,
      ih agree]

theorem orderly_replace {before later : List (Act π γ)}
    (agree : Agree (signalsAfter s (before ++ settings)) (signalsAfter s (before ++ other)))
    (ok : Orderly s (before ++ settings ++ later)) : Orderly s (before ++ other ++ later) := by
  induction before generalizing s with
  | nil =>
    rw [List.nil_append, orderly_settings setsOther]
    rw [List.nil_append, orderly_settings sets] at ok
    exact agree.orderly ok
  | cons a before ih => exact ⟨ok.1, ih agree ok.2⟩

/-- **Of what is done with the signals at a moment only what they say in the end is on a timetable.** -/
theorem timetable_replace {before : List (Act π γ)}
    (agree : Agree (signalsAfter s (before ++ settings)) (signalsAfter s (before ++ other)))
    (first now : Nat) (later : List (Act π γ)) :
    timetable s first now (before ++ settings ++ later) =
      timetable s first now (before ++ other ++ later) := by
  rw [timetable, timetable, duties_replace sets setsOther agree]
  generalize duties s first now (before ++ other ++ later) = ds
  rw [List.append_assoc, List.append_assoc, deeds_append, deeds_append ds now before (other ++ later),
    deeds_settings sets, deeds_settings setsOther]

/-- **Programs whose signals say the same in the end do the same**, and the same tasks of them come to
an end. -/
theorem World.run_eq_of_agree {σ : Type} (does : π → σ → σ) (alters : γ → σ → σ) {w : World π σ}
    (atRest : ∀ t ∈ w.tasks, t.finished = true) {before later : List (Act π γ)}
    (ok : Orderly w.signals (before ++ settings ++ later))
    (agree : Agree (signalsAfter w.signals (before ++ settings))
      (signalsAfter w.signals (before ++ other))) :
    (w.run does alters (before ++ other ++ later)).state =
        (w.run does alters (before ++ settings ++ later)).state ∧
      (w.run does alters (before ++ other ++ later)).tasks.map (fun t => t.finished) =
        (w.run does alters (before ++ settings ++ later)).tasks.map fun t => t.finished := by
  obtain ⟨state, finished, -⟩ := run_eq_timetable does alters atRest ok
  obtain ⟨stateOther, finishedOther, -⟩ :=
    run_eq_timetable does alters atRest (orderly_replace sets setsOther agree ok)
  constructor
  · rw [stateOther, state, timetable_replace sets setsOther agree]
  · rw [finishedOther, finished, duties_replace sets setsOther agree]

end Settings

end ShortLink.Periodic
