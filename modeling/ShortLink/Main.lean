/-
  The administrator's program.

  The program works in the current directory.  It keeps the database in its file as JSON text, sees of
  the variables those that have a meaning, and starts no other program.
-/
import ShortLink.Admin.Basic
import ShortLink.Store.Json
import Std.Time.DateTime.Timestamp

namespace ShortLink.Admin

/-- The content of a file, if it can be read. -/
def readFile? (path : Files.Path) : IO (Option Text.Bytes) := do
  try return some (← IO.FS.readBinFile path).toList
  catch _ => return none

/-- The workspace with a file of the current directory, if it can be read. -/
def Workspace.withFile (w : Workspace) (path : Files.Path) : IO Workspace := do
  let some content ← readFile? path | return w
  return (w.writeFile path content).toOption.getD w

/-- The file of the database that a configuration names. -/
def databasePath? (c : Config.Database) : Option Files.Path :=
  match DatabaseAccess.ofText c.url with
  | .ok access =>
    match access.file with
    | .file path => some path
    | .transient => none
  | .error _ => none

/-- The workspace with the database that a configuration names, if it can be read. The directory of
its file is taken to be there. -/
def Workspace.withDatabase (w : Workspace) (c : Config.Database) : IO Workspace := do
  let some path := databasePath? c | return w
  let w := match w.files.makeDirectories path.place.dropLast with
    | .ok files => { w with files }
    | .error _ => w
  let w ← w.withFile path
  match (w.files.read? path.place).bind Store.ofBytes? with
  | some store => return w.putDatabase path.place store
  | none => return w

/-- Write the database that a configuration names to its file. -/
def Workspace.saveDatabase (w : Workspace) (c : Config.Database) : IO Unit := do
  let some path := databasePath? c | return
  let some store := w.databases.lookup path.place | return
  IO.FS.writeBinFile path ⟨store.toBytes.toArray⟩

/-- Run the program with its arguments. -/
def runInDirectory (args : List String) : IO UInt8 := do
  let environment ← Config.variableNames.filterMapM fun name =>
    return (← IO.getEnv name).map (name, ·)
  let w ← Workspace.withFile ⟨environment, .empty, [], fun _ => none⟩ Workspace.variablesFile
  let config? := w.configuration.toOption
  let w ← match config? with
    | some c => (← w.withFile c.geoip.dbPath).withDatabase c.database
    | none => pure w
  let now ← Std.Time.Timestamp.now
  let (outcome, w) := run w (.ofInt now.toSecondsSinceUnixEpoch.val) args
  IO.print outcome.stdout
  IO.eprint outcome.stderr
  if let some c := config? then w.saveDatabase c.database
  return outcome.exitCode

end ShortLink.Admin

/-- The program's exit code says how it went. -/
def main (args : List String) : IO UInt32 := return (← ShortLink.Admin.runInDirectory args).toUInt32
