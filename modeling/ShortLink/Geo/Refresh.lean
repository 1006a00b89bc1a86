/-
  Keeping the directory up to date.

  A source brings the dataset file up to date and loads it.  A refresh does both, a reload only loads,
  and the bring-up at the start makes the file's directory and brings the file only if it is missing.
  A dataset is installed once it is loaded; where any step fails, the directory stays as it was.
-/
import ShortLink.Files.Tree
import ShortLink.Geo.Directory
import ShortLink.Periodic

namespace ShortLink.Geo

/-- Why the directory was not brought up to date. -/
inductive RefreshError where
  /-- The directory has no source. -/
  | disabled
  /-- The directory of the dataset file cannot be made. -/
  | noDirectory (path : Files.Path) (reason : Files.FileError)
  /-- The dataset file was not brought up to date. -/
  | update (message : String) (causes : List String)
  /-- The dataset file cannot be loaded. -/
  | load (message : String) (causes : List String)
  /-- The loader broke down. -/
  | loaderPanicked
  deriving DecidableEq, Repr

/-- The wording of an error. -/
def RefreshError.message : RefreshError → String
  | .disabled => "GeoIP directory is disabled (no credentials configured)"
  | .noDirectory path _ => "failed to create " ++ path
  | .update message _ => message
  | .load message _ => message
  | .loaderPanicked => "dataset load task panicked"

/-- What an error was caused by, the nearest cause first. -/
def RefreshError.causes : RefreshError → List String
  | .disabled => []
  | .noDirectory _ reason => [reason.message]
  | .update _ causes => causes
  | .load _ causes => causes
  | .loaderPanicked => []

/-- A source of datasets, which acts on a world of its own. -/
structure Source (ω : Type) where
  /-- Make the directory of the dataset file. -/
  makeDirectory : ω → Except RefreshError Unit × ω
  /-- Whether the dataset file is missing. -/
  isMissing : ω → Bool
  /-- Bring the dataset file up to date. -/
  update : ω → Except RefreshError Unit × ω
  /-- Load the dataset file. -/
  load : ω → Except RefreshError Dataset × ω

/-- A directory and the world of its source. -/
structure Supplied (ω : Type) where
  directory : Directory
  world : ω

/-- What came of an attempt. -/
abbrev Outcome := Except RefreshError Unit

namespace Supplied

variable {ω : Type}

/-- Load the dataset file and install it. -/
def reload (source : Source ω) (s : Supplied ω) : Outcome × Supplied ω :=
  if s.directory.enabled then
    match source.load s.world with
    | (.ok dataset, world) => (.ok (), ⟨s.directory.receive dataset, world⟩)
    | (.error e, world) => (.error e, { s with world })
  else (.error .disabled, s)

/-- Bring the dataset file up to date, then load and install it. -/
def refresh (source : Source ω) (s : Supplied ω) : Outcome × Supplied ω :=
  if s.directory.enabled then
    match source.update s.world with
    | (.ok (), world) => reload source { s with world }
    | (.error e, world) => (.error e, { s with world })
  else (.error .disabled, s)

/-- Bring the dataset file if it is missing; whether that worked does not matter. -/
def fetchIfMissing (source : Source ω) (s : Supplied ω) : Supplied ω :=
  if source.isMissing s.world then { s with world := (source.update s.world).2 } else s

/-- The start: make the directory of the dataset file, bring the file if it is missing, and load
whatever is there. -/
def bringUp (source : Source ω) (s : Supplied ω) : Outcome × Supplied ω :=
  if s.directory.enabled then
    match source.makeDirectory s.world with
    | (.ok (), world) => reload source (fetchIfMissing source { s with world })
    | (.error e, world) => (.error e, { s with world })
  else (.error .disabled, s)

end Supplied

/-! ## In the background -/

/-- A directory with its updater tasks. -/
abbrev Updating (ω : Type) := Periodic.World Unit (Supplied ω)

namespace Updating

variable {ω : Type}

/-- What an updater does at each of its ticks. -/
def act (source : Source ω) (_ : Unit) (s : Supplied ω) : Supplied ω := (s.refresh source).2

/-- An updater comes up: it brings the directory up, and then it refreshes it once in each period. The
updater of a disabled directory has no period. -/
def launch (source : Source ω) (w : Updating ω) (period : Nat) : Updating ω :=
  if w.state.directory.enabled then
    Periodic.World.startOn { w with state := (w.state.bringUp source).2 } w.current () period
  else Periodic.World.startOn w w.current () 0

/-- Start an updater and let all of them look at their signals. -/
def start (source : Source ω) (w : Updating ω) (period : Nat) : Updating ω :=
  (launch source w period).settle

end Updating

end ShortLink.Geo
