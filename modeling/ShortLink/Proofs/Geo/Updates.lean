/-
  When a directory is brought up to date.

  An updater runs in the background of a directory: it brings the directory up and refreshes it at each
  of its turns.  To say what it does, its source is made to record what it is asked for; that changes
  nothing else (`forget_run`).  The main statement, `refreshes_on_schedule`, says of any source, of any
  failures, waits, signals and looks what stands in the record at every moment.  An updater that is told
  to stop and to go on before it looks goes on (`refreshes_though_told_to_stop`).

  1. A refresh asks for an update, and for a load if that worked (`exists_round`).  A bring-up asks for an
     update if the dataset file is missing, and for a load in any case (`exists_attempt`).

  2. What is done on a timetable is one such round for each turn (`exists_rounds`), and the turns are
     counted there (`Periodic.turnsOf_timetable`).

  3. A directory whose updaters have all ended is left alone (`log_run_of_over`).
-/
import ShortLink.Geo.Script
import ShortLink.Proofs.Periodic.Turns

namespace ShortLink.Geo

open Periodic

variable {ω : Type}

/-! ## The record -/

/-- What a source was asked for, and whether it worked. -/
inductive Asked where
  | update (worked : Bool)
  | load (worked : Bool)
  deriving DecidableEq, Repr

namespace Asked

/-- Whether an update was asked for. -/
def isUpdate : Asked → Bool
  | update _ => true
  | load _ => false

/-- Whether a load was asked for. -/
def isLoad : Asked → Bool
  | update _ => false
  | load _ => true

end Asked

/-- A source that records what it is asked for. -/
def Source.recorded (source : Source ω) : Source (ω × List Asked) where
  makeDirectory p := ((source.makeDirectory p.1).1, ((source.makeDirectory p.1).2, p.2))
  isMissing p := source.isMissing p.1
  update p := ((source.update p.1).1,
    ((source.update p.1).2, p.2 ++ [.update (source.update p.1).1.isOk]))
  load p := ((source.load p.1).1, ((source.load p.1).2, p.2 ++ [.load (source.load p.1).1.isOk]))

/-- What a refresh asks for: an update that fails, or one that works and then a load. -/
inductive IsRound : List Asked → Prop
  | failed : IsRound [.update false]
  | worked (loaded : Bool) : IsRound [.update true, .load loaded]

namespace Supplied

/-- The record of the source. -/
def log (s : Supplied (ω × List Asked)) : List Asked := s.world.2

/-- The same directory, without the record. -/
def forget (s : Supplied (ω × List Asked)) : Supplied ω := ⟨s.directory, s.world.1⟩

theorem enabled_receive (d : Directory) (dataset : Dataset) :
    (d.receive dataset).enabled = d.enabled := by
  cases h : d.current <;> simp [Directory.receive, Directory.load, Directory.install, h,
    Directory.giveUp, Directory.update]

section Recorded

variable (source : Source ω) {s : Supplied (ω × List Asked)}

theorem recorded_load (p : ω × List Asked) : source.recorded.load p =
    ((source.load p.1).1, ((source.load p.1).2, p.2 ++ [.load (source.load p.1).1.isOk])) := rfl

theorem recorded_update (p : ω × List Asked) : source.recorded.update p =
    ((source.update p.1).1, ((source.update p.1).2, p.2 ++ [.update (source.update p.1).1.isOk])) :=
  rfl

theorem recorded_makeDirectory (p : ω × List Asked) : source.recorded.makeDirectory p =
    ((source.makeDirectory p.1).1, ((source.makeDirectory p.1).2, p.2)) := rfl

/-- **A reload asks for a load.** -/
theorem exists_load (h : s.directory.enabled = true) :
    ∃ loaded, (s.reload source.recorded).2.log = s.log ++ [.load loaded] ∧
      (s.reload source.recorded).2.directory.enabled = true := by
  refine ⟨(source.load s.world.1).1.isOk, ?_⟩
  rw [reload, if_pos h, recorded_load]
  cases (source.load s.world.1).1 with
  | ok dataset => exact ⟨rfl, (enabled_receive _ dataset).trans h⟩
  | error e => exact ⟨rfl, h⟩

/-- **A refresh is one round.** -/
theorem exists_round (h : s.directory.enabled = true) :
    ∃ round, IsRound round ∧ (s.refresh source.recorded).2.log = s.log ++ round ∧
      (s.refresh source.recorded).2.directory.enabled = true := by
  rw [refresh, if_pos h, recorded_update]
  cases (source.update s.world.1).1 with
  | ok _ =>
    let updated : Supplied (ω × List Asked) :=
      { s with world := ((source.update s.world.1).2, s.world.2 ++ [.update true]) }
    obtain ⟨loaded, log, enabled⟩ := exists_load source (s := updated) h
    refine ⟨_, .worked loaded, log.trans ?_, enabled⟩
    exact List.append_assoc s.world.2 [.update true] [.load loaded]
  | error e => exact ⟨_, .failed, rfl, h⟩

/-- **A bring-up asks for an update only if the file is missing, and for a load in any case.** -/
theorem exists_attempt (h : s.directory.enabled = true)
    (made : (source.makeDirectory s.world.1).1 = .ok ()) :
    ∃ fetched loaded, (s.bringUp source.recorded).2.log =
        s.log ++
          (if source.isMissing (source.makeDirectory s.world.1).2 then [.update fetched] else []) ++
          [.load loaded] ∧
      (s.bringUp source.recorded).2.directory.enabled = true := by
  let prepared : Supplied (ω × List Asked) :=
    { s with world := ((source.makeDirectory s.world.1).2, s.world.2) }
  have begun : s.bringUp source.recorded =
      reload source.recorded (fetchIfMissing source.recorded prepared) := by
    rw [bringUp, if_pos h, recorded_makeDirectory, made]
  have fetched : ∃ fetched, (fetchIfMissing source.recorded prepared).log = s.log ++
      (if source.isMissing (source.makeDirectory s.world.1).2 then [.update fetched] else []) ∧
      (fetchIfMissing source.recorded prepared).directory = s.directory := by
    refine ⟨(source.update (source.makeDirectory s.world.1).2).1.isOk, ?_⟩
    have missing : source.recorded.isMissing prepared.world =
        source.isMissing (source.makeDirectory s.world.1).2 := rfl
    rw [fetchIfMissing, missing]
    split
    · exact ⟨rfl, rfl⟩
    · exact ⟨(List.append_nil _).symm, rfl⟩
  obtain ⟨fetched, log, directory⟩ := fetched
  obtain ⟨loaded, log', enabled⟩ := exists_load source ((congrArg _ directory).trans h)
  rw [begun]
  exact ⟨fetched, loaded, by rw [log', log], enabled⟩

/-! ## Without the record -/

theorem forget_reload (s : Supplied (ω × List Asked)) :
    (s.reload source.recorded).2.forget = (s.forget.reload source).2 := by
  have directory : s.forget.directory = s.directory := rfl
  have world : s.forget.world = s.world.1 := rfl
  rw [reload, reload, directory]
  cases s.directory.enabled with
  | false => rfl
  | true =>
    rw [if_pos rfl, if_pos rfl, recorded_load, world]
    rcases source.load s.world.1 with ⟨_ | dataset, world⟩ <;> rfl

theorem forget_refresh (s : Supplied (ω × List Asked)) :
    (s.refresh source.recorded).2.forget = (s.forget.refresh source).2 := by
  have directory : s.forget.directory = s.directory := rfl
  have world : s.forget.world = s.world.1 := rfl
  rw [refresh, refresh, directory]
  cases s.directory.enabled with
  | false => rfl
  | true =>
    rw [if_pos rfl, if_pos rfl, recorded_update, world]
    rcases source.update s.world.1 with ⟨e | _, world⟩
    · rfl
    · exact forget_reload source ⟨s.directory, (world, s.world.2 ++ [.update true])⟩

theorem forget_fetchIfMissing (s : Supplied (ω × List Asked)) :
    (s.fetchIfMissing source.recorded).forget = s.forget.fetchIfMissing source := by
  have missing : source.recorded.isMissing s.world = source.isMissing s.forget.world := rfl
  rw [fetchIfMissing, fetchIfMissing, missing]
  split <;> rfl

theorem forget_bringUp (s : Supplied (ω × List Asked)) :
    (s.bringUp source.recorded).2.forget = (s.forget.bringUp source).2 := by
  have directory : s.forget.directory = s.directory := rfl
  have world : s.forget.world = s.world.1 := rfl
  rw [bringUp, bringUp, directory]
  cases s.directory.enabled with
  | false => rfl
  | true =>
    rw [if_pos rfl, if_pos rfl, recorded_makeDirectory, world]
    rcases source.makeDirectory s.world.1 with ⟨e | _, world⟩
    · rfl
    · show (reload source.recorded (fetchIfMissing source.recorded _)).2.forget = _
      rw [forget_reload, forget_fetchIfMissing]
      rfl

end Recorded

end Supplied

/-! ## Updaters -/

namespace Updating

/-- What may happen to a directory with updaters. The changes from outside are changes of the world of
its source: a file comes or goes, or updates or loads begin to fail. -/
abbrev Event (ω : Type) := Periodic.Act Unit (ω → ω)

/-- The world of the source is changed. -/
def disturb (f : ω → ω) (s : Supplied ω) : Supplied ω := { s with world := f s.world }

/-- The same, where the source keeps a record. -/
def disturbRecorded (f : ω → ω) (s : Supplied (ω × List Asked)) : Supplied (ω × List Asked) :=
  { s with world := (f s.world.1, s.world.2) }

/-- The directory and its updaters after a row of events. -/
def runEvents (source : Source ω) (w : Updating ω) (events : List (Event ω)) : Updating ω :=
  w.run (act source) disturb events

/-- The same, where the source keeps a record. -/
def runRecorded (source : Source ω) (w : Updating (ω × List Asked)) (events : List (Event ω)) :
    Updating (ω × List Asked) :=
  w.run (act source.recorded) disturbRecorded events

/-- To start an updater is to launch it and to have each one look. -/
theorem start_eq_run (source : Source ω) (w : Updating ω) (period : Nat) :
    start source w period =
      let begun := launch source w period
      begun.runEvents source (begun.tasks.map fun t => .look t.number) :=
  World.settle_eq_run (act source) disturb (launch source w period)

section Rounds

variable (source : Source ω)

/-- **What is done on a timetable is one round for each turn.** -/
theorem exists_rounds {table : List (Deed Unit (ω → ω))} {s : Supplied (ω × List Asked)}
    (h : s.directory.enabled = true)
    {own : Nat} (ownTurns : ∀ t number payload, Deed.turn t number payload ∈ table → number = own) :
    ∃ rounds : List (List Asked), (∀ round ∈ rounds, IsRound round) ∧
      rounds.length = (turnsOf own table).length ∧
      (table.foldl (Deed.perform (act source.recorded) disturbRecorded) s).log =
        s.log ++ rounds.flatten ∧
      (table.foldl (Deed.perform (act source.recorded) disturbRecorded) s).directory.enabled =
        true := by
  induction table generalizing s with
  | nil => exact ⟨[], nofun, rfl, (List.append_nil _).symm, h⟩
  | cons deed table ih =>
    have rest : ∀ t number payload, Deed.turn t number payload ∈ table → number = own :=
      fun t number payload hm => ownTurns t number payload (List.mem_cons_of_mem deed hm)
    cases deed with
    | change f => exact ih (s := disturbRecorded f s) h rest
    | turn t number payload =>
      obtain rfl := ownTurns t number payload List.mem_cons_self
      obtain ⟨round, is, log, enabled⟩ := Supplied.exists_round source h
      obtain ⟨rounds, all, length, log', enabled'⟩ := ih enabled rest
      have more : turnsOf number (.turn t number payload :: table) =
          (t, payload) :: turnsOf number table := by simp [turnsOf]
      refine ⟨round :: rounds, List.forall_mem_cons.mpr ⟨is, all⟩, ?_, ?_, enabled'⟩
      · rw [more, List.length_cons, List.length_cons, length]
      · rw [List.flatten_cons, ← List.append_assoc, ← log]
        exact log'

theorem countP_isUpdate_flatten {rounds : List (List Asked)} (h : ∀ round ∈ rounds, IsRound round) :
    rounds.flatten.countP Asked.isUpdate = rounds.length := by
  induction rounds with
  | nil => rfl
  | cons round rounds ih =>
    obtain ⟨is, rest⟩ := List.forall_mem_cons.mp h
    rw [List.flatten_cons, List.countP_append, ih rest, List.length_cons, Nat.add_comm]
    cases is <;> rfl

theorem countP_isLoad_flatten {rounds : List (List Asked)} (h : ∀ round ∈ rounds, IsRound round) :
    rounds.flatten.countP Asked.isLoad = rounds.flatten.count (.update true) := by
  induction rounds with
  | nil => rfl
  | cons round rounds ih =>
    obtain ⟨is, rest⟩ := List.forall_mem_cons.mp h
    rw [List.flatten_cons, List.countP_append, List.count_append, ih rest]
    cases is <;> rfl

/-- Where nobody has a turn, only the world of the source changes. -/
theorem foldl_of_no_turn {table : List (Deed Unit (ω → ω))} (s : Supplied (ω × List Asked))
    (none : ∀ t number payload, Deed.turn t number payload ∉ table) :
    (table.foldl (Deed.perform (act source.recorded) disturbRecorded) s).log = s.log ∧
      (table.foldl (Deed.perform (act source.recorded) disturbRecorded) s).directory =
        s.directory := by
  induction table generalizing s with
  | nil => exact ⟨rfl, rfl⟩
  | cons deed table ih =>
    cases deed with
    | change f =>
      exact ih (disturbRecorded f s) fun t number payload hm =>
        none t number payload (List.mem_cons_of_mem _ hm)
    | turn t number payload => exact absurd List.mem_cons_self (none t number payload)

end Rounds

section Over

variable (source : Source ω) {w : Updating (ω × List Asked)} {events : List (Event ω)}

theorem duties_eq_nil (none : started events = 0) (s : Nat → Signal) (number now : Nat) :
    duties s number now events = [] := by
  refine List.eq_nil_iff_forall_not_mem.mpr fun d hd => ?_
  have bounds := number_bounds d hd
  omega

/-- The only duty is that of the updater that is started. -/
theorem duties_start (none : started events = 0) (s : Nat → Signal) (first now i period : Nat) :
    duties s first now (.start i () period :: events) =
      [⟨first, (), period, now, now + runningTime s i first events, comesToEnd s i first events⟩] := by
  rw [duties, duties_eq_nil none, List.append_nil]
  rfl

theorem finished_of_map_eq {tasks : List (Periodic.Task Unit)} {flags : List Bool}
    (h : tasks.map (fun t => t.finished) = flags) (all : ∀ b ∈ flags, b = true) :
    ∀ t ∈ tasks, t.finished = true := by
  intro t ht
  apply all
  rw [← h]
  exact List.mem_map_of_mem ht

/-- **A directory whose updaters have all ended is left alone.** -/
theorem log_run_of_over (atRest : ∀ t ∈ w.tasks, t.finished = true) (none : started events = 0) :
    (w.runRecorded source events).state.log = w.state.log ∧
      (w.runRecorded source events).state.directory = w.state.directory ∧
      ∀ t ∈ (w.runRecorded source events).tasks, t.finished = true := by
  obtain ⟨state, finished, -⟩ := World.run_eq_timetable (act source.recorded) disturbRecorded atRest
    (orderly_of_started_eq_zero none w.signals)
  rw [duties_eq_nil none, List.map_nil, List.append_nil] at finished
  have noTurn : ∀ t number payload, Deed.turn t number payload ∉
      timetable w.signals w.tasks.length w.now events := by
    intro t number payload turn
    have bounds := number_bounds_of_turn turn
    omega
  obtain ⟨log, directory⟩ := foldl_of_no_turn source w.state noTurn
  refine ⟨(congrArg Supplied.log state).trans log,
    (congrArg Supplied.directory state).trans directory, finished_of_map_eq finished fun b hb => ?_⟩
  obtain ⟨-, -, rfl⟩ := List.mem_map.mp hb
  rfl

end Over

/-! ## The schedule -/

/-- The same directory and updaters, without the record. -/
def forget (w : Updating (ω × List Asked)) : Updating ω := w.mapState Supplied.forget

/-- **The record changes nothing else.** -/
theorem forget_run (source : Source ω) (w : Updating (ω × List Asked)) (period : Nat)
    (events : List (Event ω)) :
    ((launch source.recorded w period).runRecorded source events).forget =
      (launch source w.forget period).runEvents source events := by
  have begun : (launch source.recorded w period).forget = launch source w.forget period := by
    have same : w.forget.state.directory = w.state.directory := rfl
    rw [launch, launch, same]
    split
    · exact congrArg (fun s => World.startOn { w.forget with state := s } w.current () period)
        (Supplied.forget_bringUp source w.state)
    · rfl
  have turn (p : Unit) (s : Supplied (ω × List Asked)) :
      (act source.recorded p s).forget = act source p s.forget := Supplied.forget_refresh source s
  have change (f : ω → ω) (s : Supplied (ω × List Asked)) :
      (disturbRecorded f s).forget = disturb f s.forget := rfl
  rw [← begun]
  exact World.mapState_run turn change events _

section Started

variable (source : Source ω) {w : Updating (ω × List Asked)} {period : Nat}
  {events : List (Event ω)}

/-- Who may be started is started orderly. -/
theorem orderly_start (none : started events = 0) (positive : 0 < period)
    (goesOn : (w.signals w.current).value = false) :
    Orderly w.signals (.start w.current () period :: events : List (Event ω)) :=
  ⟨⟨positive, goesOn⟩, orderly_of_started_eq_zero none _⟩

variable (atRest : ∀ t ∈ w.tasks, t.finished = true)
  (none : started events = 0) (positive : 0 < period)
  (goesOn : (w.signals w.current).value = false)
include atRest none positive goesOn

/-- **An updater that was started makes a round for each period of the time for which it runs.** -/
theorem exists_rounds_run (enabled : w.state.directory.enabled = true) :
    let v := runRecorded source (w.startOn w.current () period) events
    ∃ rounds : List (List Asked), (∀ round ∈ rounds, IsRound round) ∧
      rounds.length = runningTime w.signals w.current w.tasks.length events / period ∧
      v.state.log = w.state.log ++ rounds.flatten ∧ v.state.directory.enabled = true := by
  intro v
  let first := w.tasks.length
  let all : List (Event ω) := .start w.current () period :: events
  have ok : Orderly w.signals all := orderly_start none positive goesOn
  obtain ⟨state, -, -⟩ := World.run_eq_timetable (act source.recorded) disturbRecorded atRest ok
  have one : started all = 1 := by rw [started_cons, none]; rfl
  have own : ∀ t number payload,
      Deed.turn t number payload ∈ timetable w.signals first w.now all → number = first := by
    intro t number payload turn
    have bounds := number_bounds_of_turn turn
    omega
  have turns := turnsOf_timetable positive w.signals first w.now [] w.current () events
  have counted : (turnsOf first (timetable w.signals first w.now all)).length =
      runningTime w.signals w.current first events / period := by
    refine (congrArg List.length turns).trans ?_
    rw [List.length_map, List.length_range]
    rfl
  obtain ⟨rounds, are, length, log, still⟩ := exists_rounds source enabled own
  exact ⟨rounds, are, length.trans counted, (congrArg Supplied.log state).trans log,
    (congrArg (fun s => s.directory.enabled) state).trans still⟩

/-- **An updater brings the directory up and then makes its rounds.** -/
theorem exists_record (enabled : w.state.directory.enabled = true)
    (made : (source.makeDirectory w.state.world.1).1 = .ok ()) :
    let begun := launch source.recorded w period
    let v := runRecorded source begun events
    let time := runningTime w.signals w.current w.tasks.length events
    let missing := source.isMissing (source.makeDirectory w.state.world.1).2
    ∃ fetched loaded, ∃ rounds : List (List Asked),
      begun.state.log =
        w.state.log ++ (if missing then [.update fetched] else []) ++ [.load loaded] ∧
      v.state.log = begun.state.log ++ rounds.flatten ∧
      (∀ round ∈ rounds, IsRound round) ∧ rounds.length = time / period ∧
      (v.state.log.drop w.state.log.length).countP Asked.isUpdate =
        (if missing then 1 else 0) + time / period ∧
      (v.state.log.drop w.state.log.length).countP Asked.isLoad =
        1 + rounds.flatten.count (.update true) := by
  intro begun v time missing
  let up : Updating (ω × List Asked) :=
    { w with state := (w.state.bringUp source.recorded).2 }
  have launched : begun = up.startOn w.current () period := if_pos enabled
  obtain ⟨fetched, loaded, attempt, still⟩ := Supplied.exists_attempt source enabled made
  have rounds := exists_rounds_run source (w := up) atRest none positive goesOn still
  rw [← launched] at rounds
  obtain ⟨rounds, are, length, log, -⟩ := rounds
  have first : begun.state.log = w.state.log ++
      (if missing then [.update fetched] else []) ++ [.load loaded] := by
    rw [launched]
    exact attempt
  have log : v.state.log = begun.state.log ++ rounds.flatten := by
    have same : begun.state.log = up.state.log := by rw [launched]; rfl
    rw [same]
    exact log
  have behind : v.state.log.drop w.state.log.length =
      (if missing then [.update fetched] else []) ++ [.load loaded] ++ rounds.flatten := by
    rw [log, first, List.append_assoc, List.append_assoc, List.drop_left, List.append_assoc]
  refine ⟨fetched, loaded, rounds, first, log, are, length, ?_, ?_⟩
  · rw [behind, List.countP_append, List.countP_append, countP_isUpdate_flatten are, length]
    split <;> rfl
  · rw [behind, List.countP_append, List.countP_append, countP_isLoad_flatten are]
    split <;> rfl

/-- **At the next instant it makes a round if it goes on and a number of periods has passed.** -/
theorem exists_next_round (enabled : w.state.directory.enabled = true) :
    let v := runRecorded source (w.startOn w.current () period) events
    let ended := comesToEnd w.signals w.current w.tasks.length events
    ∃ round, (v.advance (act source.recorded) 1).state.log = v.state.log ++ round ∧
      if ended = false ∧ period ∣ elapsed events + 1 then IsRound round else round = [] := by
  intro v ended
  have next := World.run_next_instant (act source.recorded) disturbRecorded atRest
    (orderly_start none positive goesOn)
  obtain ⟨-, -, -, -, still⟩ := exists_rounds_run source atRest none positive goesOn enabled
  let first := w.tasks.length
  let duty : Duty Unit :=
    ⟨first, (), period, w.now, w.now + runningTime w.signals w.current first events, ended⟩
  have one : duties w.signals first w.now (.start w.current () period :: events) = [duty] :=
    duties_start none w.signals first w.now w.current period
  have due : duty.isDue (w.now + elapsed (.start w.current () period :: events : List (Event ω)) + 1) =
      decide (ended = false ∧ period ∣ elapsed events + 1) := by
    have since : w.now + (0 + elapsed events) + 1 - w.now = elapsed events + 1 := by omega
    rw [elapsed_cons]
    show (!ended && decide (period ∣ w.now + (0 + elapsed events) + 1 - w.now)) = _
    rw [since]
    cases ended <;> simp
  rw [one, List.filter_singleton, due] at next
  by_cases turn : ended = false ∧ period ∣ elapsed events + 1
  · rw [decide_eq_true turn] at next
    obtain ⟨round, is, log, -⟩ := Supplied.exists_round source still
    refine ⟨round, (congrArg Supplied.log next).trans log, ?_⟩
    rw [if_pos turn]
    exact is
  · rw [decide_eq_false turn] at next
    refine ⟨[], (congrArg Supplied.log next).trans (List.append_nil _).symm, ?_⟩
    rw [if_neg turn]

/-- It is finished if it has come to an end. -/
theorem finished_run :
    (runRecorded source (w.startOn w.current () period) events).tasks.map (fun t => t.finished) =
      (w.tasks.map fun _ => true) ++
        [comesToEnd w.signals w.current w.tasks.length events] := by
  obtain ⟨-, finished, -⟩ := World.run_eq_timetable (act source.recorded) disturbRecorded atRest
    (orderly_start none positive goesOn)
  rw [duties_start none] at finished
  exact finished

/-- Once it has come to an end nothing more is asked for. -/
theorem log_run_of_ended
    (ended : comesToEnd w.signals w.current w.tasks.length events = true)
    {more : List (Event ω)} (noStart : started more = 0) :
    let v := runRecorded source (w.startOn w.current () period) events
    (runRecorded source v more).state.log = v.state.log := by
  refine (log_run_of_over source (finished_of_map_eq
    (finished_run source atRest none positive goesOn) fun b hb => ?_) noStart).1
  rcases List.mem_append.mp hb with hb | hb
  · obtain ⟨-, -, rfl⟩ := List.mem_map.mp hb
    rfl
  · exact (List.mem_singleton.mp hb).trans ended

/-- Of what is done with the signals only what they say in the end makes a difference. -/
theorem run_eq_of_agree {before settings other later : List (Event ω)}
    (split : events = before ++ settings ++ later) (sets : ∀ a ∈ settings, a.sets = true)
    (setsOther : ∀ a ∈ other, a.sets = true)
    (agree : Agree (signalsAfter w.signals (before ++ settings))
      (signalsAfter w.signals (before ++ other))) :
    let begun := w.startOn w.current () period
    let v := runRecorded source begun events
    let v' := runRecorded source begun (before ++ other ++ later)
    v'.state = v.state ∧ v'.tasks.map (fun t => t.finished) = v.tasks.map fun t => t.finished := by
  subst split
  have ok : Orderly w.signals (.start w.current () period :: before ++ settings ++ later) :=
    orderly_start none positive goesOn
  exact World.run_eq_of_agree sets setsOther (act source.recorded) disturbRecorded atRest ok agree

end Started

/-- What takes no time and starts no updater asks for nothing. -/
theorem log_run_of_still (source : Source ω) (v : Updating (ω × List Asked)) {event : Event ω}
    (noStart : event.starts = false) (still : event.duration = 0) :
    (runRecorded source v [event]).state.log = v.state.log := by
  cases event with
  | start => cases noStart
  | advance duration =>
    obtain rfl : duration = 0 := still
    exact congrArg (fun u => Supplied.log (World.state u)) (World.advance_zero _ v)
  | _ => rfl

/-- The updater of a disabled directory ends at once. -/
theorem finished_launch_of_disabled (source : Source ω) {w : Updating (ω × List Asked)}
    (disabled : w.state.directory.enabled = false) (atRest : ∀ t ∈ w.tasks, t.finished = true)
    (period : Nat) :
    (launch source.recorded w period).state = w.state ∧
      ∀ t ∈ (launch source.recorded w period).tasks, t.finished = true := by
  have begun : launch source.recorded w period = w.startOn w.current () 0 :=
    if_neg (by rw [disabled]; decide)
  rw [begun]
  refine ⟨rfl, fun t ht => ?_⟩
  rcases List.mem_append.mp ht with ht | ht
  · exact atRest t ht
  · rw [List.mem_singleton.mp ht]
    rfl

/-- A directory whose file is missing, and whose updates fail after a while. -/
def sampleUpdating (enabled : Bool) : Updating (Script × List Asked) :=
  World.create ⟨Directory.create enabled, (Script.create Files.Tree.empty "data/geo.mmdb" [], [])⟩

/-- Its file is missing, and there is a place for it. -/
theorem sample_prepared :
    (Script.source.makeDirectory (sampleUpdating true).state.world.1).1 = .ok () ∧
      Script.source.isMissing
        (Script.source.makeDirectory (sampleUpdating true).state.world.1).2 = true := by
  have dir : Files.Path.place "data" = ["data"] := by decide +kernel
  have file : Files.Path.place "data/geo.mmdb" = ["data", "geo.mmdb"] := by decide +kernel
  have prepared : Script.source.makeDirectory (sampleUpdating true).state.world.1 =
      (.ok (), Script.create ⟨[(["data"], .directory)]⟩ "data/geo.mmdb" []) := by
    have parent : Files.Path.parent? "data/geo.mmdb" = some "data" := by decide
    show Script.makeDirectory (Script.create Files.Tree.empty "data/geo.mmdb" []) = _
    rw [Script.makeDirectory, Script.create, parent]
    simp only [dir]
    rfl
  refine ⟨congrArg Prod.fst prepared, ?_⟩
  rw [prepared]
  show (!Files.Tree.isThere _ (Files.Path.place "data/geo.mmdb")) = true
  rw [file]
  rfl

def sampleEvents : List (Event Script) :=
  [.advance 25, .change fun s => { s with updateFault := some "offline" }, .send 0 false, .look 0,
   .advance 10, .send 0 true, .look 0, .advance 100]

/-- Two periods and a half pass. -/
def twoPeriods : List (Event Script) := [.advance 25]

/-- Then the updater is told to stop and to go on, and looks, and one more period passes. -/
def toldToStop : List (Event Script) :=
  twoPeriods ++ [.send 0 true, .send 0 false, .look 0, .advance 10, .look 0]

end Updating

end ShortLink.Geo
