/-
  The source of datasets of an installation.

  The dataset file is brought up to date by the update program and read in the MaxMind DB format.
-/
import ShortLink.Geo.Mmdb.Reader
import ShortLink.Geo.Refresh
import ShortLink.Geo.UpdateCommand

namespace ShortLink.Geo

/-- Where a source acts: the files, what goes wrong with them, and the update program. -/
structure Installation where
  files : Files.Tree
  faults : Faults
  program : Program

namespace Installation

/-- Make the directory of a file. -/
def makeDirectory (dbPath : Files.Path) (w : Installation) :
    Except RefreshError Unit × Installation :=
  match Files.Path.parent? dbPath with
  | none => (.ok (), w)
  | some dir =>
    match w.files.makePath dir with
    | .ok files => (.ok (), { w with files })
    | .error reason => (.error (.noDirectory dir reason), w)

/-- Run the update program. -/
def update (command : UpdateCommand) (w : Installation) : Except RefreshError Unit × Installation :=
  match command.update w.faults w.program w.files with
  | (.ok (), files) => (.ok (), { w with files })
  | (.error e, files) => (.error (.update e.message e.causes), { w with files })

/-- Why a dataset file cannot be loaded. -/
def notLoaded (dbPath : Files.Path) (causes : List String) : RefreshError :=
  .load ("Failed to open GeoIP database at " ++ dbPath) causes

/-- Read the dataset file. -/
def load (dbPath : Files.Path) (w : Installation) : Except RefreshError Dataset × Installation :=
  match w.files.lookUp dbPath with
  | .ok (.file content _) =>
    match Mmdb.ofBytes? content with
    | some file => (.ok file.dataset, w)
    | none =>
      (.error (notLoaded dbPath
        ["invalid database: could not find MaxMind DB metadata in file"]), w)
  | .ok .directory =>
    let reason := "No such device (os error 19)"
    (.error (notLoaded dbPath ["memory map error: " ++ reason, reason]), w)
  | .error reason =>
    (.error (notLoaded dbPath ["i/o error: " ++ reason.message, reason.message]), w)

/-- The source for a dataset file. -/
def source (command : UpdateCommand) (dbPath : Files.Path) : Source Installation where
  makeDirectory := makeDirectory dbPath
  isMissing w := !(w.files.lookUp dbPath).isOk
  update := update command
  load := load dbPath

end Installation

end ShortLink.Geo
