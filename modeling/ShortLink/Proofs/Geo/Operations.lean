/-
  Refreshes, reloads and bring-ups at once.

  An operation on the directory acts in several steps: it asks its source for one thing at a time,
  and what it has loaded it holds until it installs it.  Between two of its steps other operations
  may act, readers may come and go, and the world of the source may change.  A lookup is a reader
  that goes away again.

  1. `Task.step` is one step.  Nothing is lost by cutting an operation up: `steps_alone` says that
     its steps in a row are the operation (`Operation.run`).

  2. `running_act` says what one act does to one task; what every step of a task keeps, every run
     keeps (`Task.Kept.run`).
-/
import ShortLink.Geo.Refresh

namespace ShortLink.Geo

variable {ω : Type}

/-! ## One operation -/

/-- What is asked of the directory. -/
inductive Operation where
  | refresh
  | reload
  | bringUp
  deriving DecidableEq, Repr

/-- The operation without a break. -/
def Operation.run (source : Source ω) : Operation → Supplied ω → Outcome × Supplied ω
  | refresh => Supplied.refresh source
  | reload => Supplied.reload source
  | bringUp => Supplied.bringUp source

/-- An operation, by what it does next. -/
inductive Task where
  /-- Make the directory of the dataset file. -/
  | preparing
  /-- See whether the dataset file is missing. -/
  | checking
  /-- Bring the missing file; whether that works does not matter. -/
  | fetching
  /-- Bring the file up to date. -/
  | updating
  | loading
  /-- Install the generation that was loaded. -/
  | installing (generation : Nat)
  /-- Nothing any more. -/
  | ended (outcome : Outcome)
  /-- Nothing any more, as it was ended from outside. -/
  | cut

namespace Task

/-- The beginning of an operation: without a source there is nothing to do. -/
def begin (op : Operation) (d : Directory) : Task :=
  if d.enabled then
    match op with
    | .refresh => updating
    | .reload => loading
    | .bringUp => preparing
  else ended (.error .disabled)

/-- One step. -/
def step (source : Source ω) : Task → Supplied ω → Task × Supplied ω
  | preparing, s =>
    match source.makeDirectory s.world with
    | (.ok (), world) => (checking, { s with world })
    | (.error e, world) => (ended (.error e), { s with world })
  | checking, s => (if source.isMissing s.world then fetching else loading, s)
  | fetching, s => (loading, { s with world := (source.update s.world).2 })
  | updating, s =>
    match source.update s.world with
    | (.ok (), world) => (loading, { s with world })
    | (.error e, world) => (ended (.error e), { s with world })
  | loading, s =>
    match source.load s.world with
    | (.ok dataset, world) =>
      (installing (s.directory.load dataset).1, ⟨(s.directory.load dataset).2, world⟩)
    | (.error e, world) => (ended (.error e), { s with world })
  | installing g, s => (ended (.ok ()), { s with directory := s.directory.install g })
  | ended outcome, s => (ended outcome, s)
  | cut, s => (cut, s)

/-- The generation that a task has loaded and not installed yet. -/
def holds? : Task → Option Nat
  | installing g => some g
  | _ => none

/-- A task is ended from outside; what it has loaded it gives up. -/
def stop : Task → Task
  | ended outcome => ended outcome
  | _ => cut

/-- What a step can do: it loads a dataset, or installs what it has loaded, or leaves the directory
alone, which holds of a load that fails. -/
theorem step_cases (source : Source ω) (t : Task) (s : Supplied ω) :
    (∃ dataset, t = loading ∧ (source.load s.world).1 = .ok dataset ∧
      t.step source s = (installing (s.directory.load dataset).1,
        ⟨(s.directory.load dataset).2, (source.load s.world).2⟩)) ∨
    (∃ g, t = installing g ∧
      t.step source s = (ended (.ok ()), { s with directory := s.directory.install g })) ∨
    t.holds? = none ∧ (t.step source s).1.holds? = none ∧
      (t.step source s).2.directory = s.directory ∧
      (t = loading → ∃ e, (source.load s.world).1 = .error e) := by
  cases t with
  | loading =>
    rcases hl : source.load s.world with ⟨e | dataset, world⟩
    · exact .inr (.inr ⟨rfl, by simp [step, hl, holds?], by simp [step, hl], fun _ => ⟨e, rfl⟩⟩)
    · exact .inl ⟨dataset, rfl, rfl, by simp [step, hl]⟩
  | installing g => exact .inr (.inl ⟨g, rfl, rfl⟩)
  | preparing =>
    refine .inr (.inr ⟨rfl, ?_, ?_, nofun⟩) <;> simp only [step] <;> split <;> rfl
  | updating =>
    refine .inr (.inr ⟨rfl, ?_, ?_, nofun⟩) <;> simp only [step] <;> split <;> rfl
  | checking =>
    refine .inr (.inr ⟨rfl, ?_, rfl, nofun⟩)
    simp only [step]
    split <;> rfl
  | fetching => exact .inr (.inr ⟨rfl, rfl, rfl, nofun⟩)
  | ended outcome => exact .inr (.inr ⟨rfl, rfl, rfl, nofun⟩)
  | cut => exact .inr (.inr ⟨rfl, rfl, rfl, nofun⟩)

/-- Several steps in a row. -/
def steps (source : Source ω) : Nat → Task → Supplied ω → Task × Supplied ω
  | 0, t, s => (t, s)
  | n + 1, t, s => steps source n (t.step source s).1 (t.step source s).2

theorem steps_ended (source : Source ω) (n : Nat) (outcome : Outcome) (s : Supplied ω) :
    steps source n (ended outcome) s = (ended outcome, s) := by
  induction n with
  | zero => rfl
  | succ n ih => exact ih

theorem steps_loading (source : Source ω) (n : Nat) {s : Supplied ω}
    (h : s.directory.enabled = true) :
    steps source (n + 2) loading s = (ended (s.reload source).1, (s.reload source).2) := by
  -- a load that fails ends one step early
  simp only [steps, step, Supplied.reload, h, if_true]
  rcases source.load s.world with ⟨e | dataset, world⟩
  · exact steps_ended source n _ _
  · exact steps_ended source n _ _

/-- **An operation is its steps.** -/
theorem steps_alone (source : Source ω) (op : Operation) (s : Supplied ω) :
    steps source 5 (begin op s.directory) s =
      (ended (op.run source s).1, (op.run source s).2) := by
  cases he : s.directory.enabled with
  | false =>
    cases op <;>
      simp [begin, he, steps_ended, Operation.run, Supplied.refresh, Supplied.reload,
        Supplied.bringUp]
  | true =>
    cases op with
    | reload =>
      rw [begin, if_pos he]
      exact steps_loading source 3 he
    | refresh =>
      rw [begin, if_pos he]
      show steps source 4 (updating.step source s).1 (updating.step source s).2 = _
      simp only [step, Operation.run, Supplied.refresh, he, if_true]
      -- from the update on it is a reload, in the world that the update has left
      rcases source.update s.world with ⟨e | _, world⟩
      · exact steps_ended source 4 _ _
      · exact steps_loading source 2 (s := { s with world }) he
    | bringUp =>
      rw [begin, if_pos he]
      show steps source 4 (preparing.step source s).1 (preparing.step source s).2 = _
      simp only [step, Operation.run, Supplied.bringUp, he, if_true]
      rcases source.makeDirectory s.world with ⟨e | _, world⟩
      · exact steps_ended source 4 _ _
      · simp only [Supplied.fetchIfMissing]
        cases hm : source.isMissing world with
        | false =>
          show steps source 3 (checking.step source _).1 _ = _
          simp only [step, hm, Bool.false_eq_true, if_false]
          exact steps_loading source 1 (s := { s with world }) he
        | true =>
          show steps source 3 (checking.step source _).1 _ = _
          simp only [step, hm, if_true]
          exact steps_loading source 0 he

end Task

/-! ## All of them -/

/-- The directory with its source's world, and the tasks begun so far, the first one first. -/
structure Tasks (ω : Type) where
  supplied : Supplied ω
  running : List Task

/-- What may happen next. -/
inductive Act (ω : Type) where
  | begin (op : Operation)
  /-- A task makes its next step. -/
  | step (task : Nat)
  /-- A task is ended from outside, wherever it is. -/
  | cut (task : Nat)
  /-- A reader takes a share in what answers, in the place of what it held. -/
  | hold (reader : String)
  /-- A reader gives up what it holds. -/
  | release (reader : String)
  /-- The world of the source is changed from outside. -/
  | change (world : ω)

namespace Tasks

/-- A directory that has loaded nothing, and no tasks. -/
def create (enabled : Bool) (world : ω) : Tasks ω := ⟨⟨Directory.create enabled, world⟩, []⟩

abbrev directory (w : Tasks ω) : Directory := w.supplied.directory

/-- The directory is changed by itself. -/
def withDirectory (w : Tasks ω) (d : Directory) : Tasks ω :=
  { w with supplied := { w.supplied with directory := d } }

/-- One act; an act of no task changes nothing. -/
def act (source : Source ω) (w : Tasks ω) : Act ω → Tasks ω
  | .begin op => { w with running := w.running ++ [Task.begin op w.directory] }
  | .step i =>
    match w.running[i]? with
    | some t => ⟨(t.step source w.supplied).2, w.running.set i (t.step source w.supplied).1⟩
    | none => w
  | .cut i =>
    match w.running[i]? with
    | some t =>
      { w.withDirectory (w.directory.giveUp t.holds?) with running := w.running.set i t.stop }
    | none => w
  | .hold reader => w.withDirectory (w.directory.hold reader).2
  | .release reader => w.withDirectory (w.directory.release reader).2
  | .change world => { w with supplied := { w.supplied with world } }

/-- A row of acts. -/
def run (source : Source ω) (w : Tasks ω) (acts : List (Act ω)) : Tasks ω :=
  acts.foldl (act source) w

theorem run_concat (source : Source ω) (w : Tasks ω) (acts : List (Act ω)) (a : Act ω) :
    w.run source (acts ++ [a]) = (w.run source acts).act source a := by
  simp [run]

theorem run_append (source : Source ω) (w : Tasks ω) (acts more : List (Act ω)) :
    w.run source (acts ++ more) = (w.run source acts).run source more := by
  simp [run]

/-- A task that is there is there after the next act, as it was or after a step or cut. -/
theorem running_act (source : Source ω) {w : Tasks ω} {i : Nat} {t : Task}
    (h : w.running[i]? = some t) (a : Act ω) :
    (w.act source a).running[i]? = some t ∨
    a = .step i ∧ (w.act source a).running[i]? = some (t.step source w.supplied).1 ∨
    a = .cut i ∧ (w.act source a).running[i]? = some t.stop := by
  obtain ⟨hlt, -⟩ := List.getElem?_eq_some_iff.mp h
  cases a with
  | begin op => exact .inl (by simpa [act, List.getElem?_append_left hlt] using h)
  | step j =>
    by_cases hij : j = i
    · subst hij
      exact .inr (.inl ⟨rfl, by simp only [act, h, List.getElem?_set_self hlt]⟩)
    · refine .inl ?_
      simp only [act]
      split
      · rw [List.getElem?_set_ne hij, h]
      · exact h
  | cut j =>
    by_cases hij : j = i
    · subst hij
      exact .inr (.inr ⟨rfl, by simp only [act, h, List.getElem?_set_self hlt]⟩)
    · refine .inl ?_
      simp only [act]
      split
      · rw [List.getElem?_set_ne hij, h]
      · exact h
  | hold reader => exact .inl h
  | release reader => exact .inl h
  | change world => exact .inl h

end Tasks

/-- What neither a step nor an end from outside takes from a task. -/
def Task.Kept (P : Task → Prop) : Prop :=
  ∀ t, P t → P t.stop ∧ ∀ {ω : Type} (source : Source ω) (s : Supplied ω), P (t.step source s).1

/-- **What every step of a task keeps, every run keeps.** -/
theorem Task.Kept.run {P : Task → Prop} (hP : Kept P) (source : Source ω) {w : Tasks ω} {i : Nat}
    {t : Task} (h : w.running[i]? = some t) (ht : P t) (acts : List (Act ω)) :
    ∃ t', (w.run source acts).running[i]? = some t' ∧ P t' := by
  induction acts generalizing w t with
  | nil => exact ⟨t, h, ht⟩
  | cons a acts ih =>
    rcases Tasks.running_act source h a with h | ⟨-, h⟩ | ⟨-, h⟩
    · exact ih h ht
    · exact ih h ((hP t ht).2 source _)
    · exact ih h (hP t ht).1

/-! ## Operations without a break -/

/-- Operations one after the other. -/
def runAll (source : Source ω) (ops : List Operation) (s : Supplied ω) : Supplied ω :=
  ops.foldl (fun s op => (op.run source s).2) s

namespace Tasks

theorem run_steps (source : Source ω) (n : Nat) {w : Tasks ω} {i : Nat} {t : Task}
    (h : w.running[i]? = some t) :
    (w.run source (List.replicate n (.step i))).supplied = (t.steps source n w.supplied).2 := by
  induction n generalizing w t with
  | zero => rfl
  | succ n ih =>
    obtain ⟨hlt, -⟩ := List.getElem?_eq_some_iff.mp h
    have next : w.act source (.step i) =
        ⟨(t.step source w.supplied).2, w.running.set i (t.step source w.supplied).1⟩ := by
      simp only [act, h]
    show ((w.act source (.step i)).run source (List.replicate n (.step i))).supplied = _
    rw [next, ih (List.getElem?_set_self hlt)]
    rfl

/-- Every row of operations is a row of acts. -/
theorem exists_acts_runAll (source : Source ω) (ops : List Operation) (w : Tasks ω) :
    ∃ acts, (w.run source acts).supplied = runAll source ops w.supplied := by
  induction ops generalizing w with
  | nil => exact ⟨[], rfl⟩
  | cons op ops ih =>
    have begun : (w.act source (.begin op)).running[w.running.length]? =
        some (.begin op w.directory) := by simp [act]
    have alone := run_steps source 5 begun
    have same : (w.act source (.begin op)).supplied = w.supplied := rfl
    rw [same, Task.steps_alone] at alone
    obtain ⟨acts, h⟩ :=
      ih ((w.act source (.begin op)).run source (List.replicate 5 (.step w.running.length)))
    refine ⟨.begin op :: (List.replicate 5 (.step w.running.length) ++ acts), ?_⟩
    show ((w.act source (.begin op)).run source _).supplied = _
    rw [run_append, h, alone]
    rfl

end Tasks

namespace Updating

/-- What an updater does while time passes is a row of operations. -/
theorem exists_ops_advanceTo (source : Source ω) (target : Nat) (w : Updating ω) :
    ∃ ops, (w.advanceTo (act source) target).state = runAll source ops w.state := by
  have foldl (tasks : List (Periodic.Task Unit)) (s : Supplied ω) :
      tasks.foldl (fun s t => act source t.payload s) s =
        runAll source (tasks.map fun _ => .refresh) s := by
    rw [runAll, List.foldl_map]
    rfl
  -- one case for each round of due tasks, by the recursion of the clock
  induction w using Periodic.World.advanceTo.induct (act source) target with
  | case1 w t next later ih =>
    obtain ⟨ops, h⟩ := ih
    rw [Periodic.World.advanceTo, next]
    simp only [if_pos later, h]
    refine ⟨(w.tasks.filter (Periodic.World.isDue t)).map (fun _ => .refresh) ++ ops, ?_⟩
    show runAll source ops ((w.tasks.filter _).foldl _ w.state) = _
    rw [foldl, runAll, runAll, runAll, List.foldl_append]
  | case2 w t next later =>
    rw [Periodic.World.advanceTo, next]
    exact ⟨[], by simp only [if_neg later]; rfl⟩
  | case3 w next =>
    rw [Periodic.World.advanceTo, next]
    exact ⟨[], rfl⟩

/-- **Scheduled refreshes are operations**: what starting an updater and letting time pass makes of
the directory, some run of tasks makes of it. -/
theorem exists_acts_of_start_advance (source : Source ω) (w : Updating ω) (period duration : Nat)
    (running : List Task) :
    ∃ acts, ((⟨w.state, running⟩ : Tasks ω).run source acts).supplied =
      ((w.start source period).advance (act source) duration).state := by
  have started : ∃ ops, (w.start source period).state = runAll source ops w.state := by
    show ∃ ops, (w.launch source period).state = _
    unfold launch
    split
    · exact ⟨[.bringUp], rfl⟩
    · exact ⟨[], rfl⟩
  obtain ⟨ops, hs⟩ := started
  obtain ⟨more, ha⟩ := exists_ops_advanceTo source ((w.start source period).now + duration)
    (w.start source period)
  obtain ⟨acts, h⟩ := Tasks.exists_acts_runAll source (ops ++ more) ⟨w.state, running⟩
  refine ⟨acts, ?_⟩
  rw [Periodic.World.advance, ha, h, hs, runAll, runAll, runAll, List.foldl_append]

end Updating

end ShortLink.Geo
