/-
  Where the administrator's commands act.

  A workspace is a current directory with the variables of the process, the programs that can be
  started and the databases that its files hold.  A database is opened by its address and closed after
  a command; one that is held by no file is gone then.
-/
import ShortLink.Database
import ShortLink.Dotenv.Basic
import ShortLink.Geo.Installation
import ShortLink.Store

namespace ShortLink.Admin

/-- Where commands act. -/
structure Workspace where
  /-- The variables of the process. -/
  environment : Variables
  files : Files.Tree
  /-- The databases, by the places of their files. -/
  databases : List (List String × Store)
  /-- The programs that can be started, by name. -/
  programs : String → Option Geo.Program

/-- A database that was opened. -/
structure OpenStore where
  /-- The place of its file, if there is one. -/
  place : Option (List String)
  onlyReads : Bool
  store : Store

namespace Workspace

/-- The file with more variables. -/
def variablesFile : Files.Path := ".env"

/-- The variables of the process and those that the file adds. -/
def allVariables (w : Workspace) : Variables :=
  match w.files.read? variablesFile.place with
  | some file => Dotenv.load w.environment file
  | none => w.environment

/-- The configuration that the variables make. -/
def configuration (w : Workspace) : Except ConfigError Config :=
  Config.ofEnvironment (Config.environmentOf w.allVariables)

/-- The program with a name, which is a path if a slash is in it. A file that is none of the programs
cannot be started. -/
def program (w : Workspace) (name : String) : Geo.Program :=
  match w.programs name with
  | some program => program
  | none => fun _ files =>
    if name.toList.contains '/' && files.isThere (Files.Path.place name) then .error .permission
    else .error .isMissing

/-! ## Databases -/

/-- The database that a file holds; an empty file holds one without tables. -/
def database? (w : Workspace) (place : List String) : Option Store :=
  match w.databases.lookup place with
  | some store => some store
  | none => if w.files.read? place = some [] then some .blank else none

/-- Put a database into a file, which is made if it is not there. -/
def putDatabase (w : Workspace) (place : List String) (store : Store) : Workspace :=
  { w with
    files :=
      if w.files.isThere place then w.files
      else w.files.put place (.file [] Files.Tree.newFileMode)
    databases := (place, store) :: w.databases.filter fun d => d.1 != place }

/-- Write a file and the directories on the way to it. A database that it held is gone. -/
def writeFile (w : Workspace) (path : Files.Path) (content : Text.Bytes) :
    Except Files.FileError Workspace := do
  let files ← w.files.makeDirectories path.place.dropLast
  let files ← files.write path.place content
  return { w with files, databases := w.databases.filter fun d => d.1 != path.place }

/-- Make the tables of a database unless they are there. -/
def prepare (place : Option (List String)) (onlyReads : Bool) (store : Store) :
    Except DatabaseError OpenStore :=
  if onlyReads && !store.ready then .error .readOnly else .ok ⟨place, onlyReads, store.init⟩

/-- Open an SQLite database with its tables. -/
def openDatabase (w : Workspace) (access : DatabaseAccess) :
    Except DatabaseError OpenStore × Workspace :=
  match access.openIn w.files with
  | .error e => (.error e, w)
  | .ok files =>
    let w := { w with files }
    match access.file with
    | .transient => (prepare none access.onlyReads .blank, w)
    | .file path =>
      match w.database? path.place with
      | some store => (prepare (some path.place) access.onlyReads store, w)
      | none => (.error .notADatabase, w)

/-- Open the database that a configuration names. -/
def connect (w : Workspace) (c : Config.Database) : Except DatabaseError OpenStore × Workspace :=
  match c.backend with
  | .postgres => (.error (.ofServer c.url), w)
  | .sqlite =>
    match DatabaseAccess.ofText c.url with
    | .ok access => w.openDatabase access
    | .error e => (.error e, w)

/-- Close a database. -/
def close (w : Workspace) (o : OpenStore) : Workspace :=
  match o.place with
  | some place => w.putDatabase place o.store
  | none => w

end Workspace

end ShortLink.Admin
