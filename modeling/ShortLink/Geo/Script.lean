/-
  Sources that act by a script.

  Such a source answers each update and each load as its faults are set at that time, and hands out
  the datasets of its script one after the other, the last one again and again.  It counts what it is
  asked for.
-/
import ShortLink.Geo.Refresh

namespace ShortLink.Geo

/-- What a scripted source acts on. -/
structure Script where
  files : Files.Tree
  /-- The path of the dataset file. -/
  dbPath : Files.Path
  /-- The datasets to be handed out. -/
  datasets : List Dataset
  /-- The message with which updates fail, if they do. -/
  updateFault : Option String
  /-- Whether loads fail. -/
  loadsFail : Bool
  /-- Whether loads break the loader down. -/
  loadsPanic : Bool
  /-- How many updates were asked for. -/
  updates : Nat
  /-- How many loads were asked for. -/
  loads : Nat
  /-- How many datasets were handed out. -/
  served : Nat

namespace Script

/-- A dataset that covers nothing. -/
def emptyDataset : Dataset := ⟨none, fun _ => .notCovered⟩

/-- The beginning of a script. -/
def create (files : Files.Tree) (dbPath : Files.Path) (datasets : List Dataset) : Script :=
  ⟨files, dbPath, datasets, none, false, false, 0, 0, 0⟩

/-- The dataset to be handed out next. -/
def nextDataset (s : Script) : Dataset :=
  (s.datasets[s.served]?.or s.datasets.getLast?).getD emptyDataset

/-- Make the directory of the dataset file. -/
def makeDirectory (s : Script) : Except RefreshError Unit × Script :=
  match Files.Path.parent? s.dbPath with
  | none => (.ok (), s)
  | some dir =>
    match s.files.makeDirectories (Files.Path.place dir) with
    | .ok files => (.ok (), { s with files })
    | .error reason => (.error (.noDirectory dir reason), s)

/-- An update. -/
def update (s : Script) : Except RefreshError Unit × Script :=
  ((match s.updateFault with
    | some message => .error (.update message [])
    | none => .ok ()),
   { s with updates := s.updates + 1 })

/-- A load. -/
def load (s : Script) : Except RefreshError Dataset × Script :=
  let s := { s with loads := s.loads + 1 }
  if s.loadsFail then (.error (.load "truncated dataset" []), s)
  else if s.loadsPanic then (.error .loaderPanicked, s)
  else (.ok s.nextDataset, { s with served := s.served + 1 })

/-- The source that acts by the script. -/
def source : Source Script where
  makeDirectory := makeDirectory
  isMissing s := !s.files.isThere (Files.Path.place s.dbPath)
  update := update
  load := load

end Script

end ShortLink.Geo
