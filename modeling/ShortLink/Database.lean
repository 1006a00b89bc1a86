/-
  Where a durable store is.

  The address of an SQLite database names a file, or asks for one in memory, and says how it may be
  opened: only for reading, for reading and writing, or also if it has to be made first.  Opening it
  depends on the files that are there.
-/
import ShortLink.Files.Tree
import ShortLink.Text.Percent

namespace ShortLink

/-- Why a database cannot be used. -/
inductive DatabaseError where
  /-- The address says something that is not understood. -/
  | configuration (reason : String)
  /-- The file cannot be opened. -/
  | cannotOpen
  /-- There is no such way to access files. -/
  | noSuchSystem (name : String)
  /-- The database must not be written. -/
  | readOnly
  /-- The file is not a database. -/
  | notADatabase
  /-- No server answers. -/
  | unreachable
  deriving DecidableEq, Repr

namespace DatabaseError

/-- The cause of an error. A server that does not answer is asked again until the time is up, and what
was wrong with it is not told. -/
def cause? : DatabaseError → Option String
  | configuration reason => some reason
  | cannotOpen => some "(code: 14) unable to open database file"
  | noSuchSystem name => some ("(code: 1) no such vfs: " ++ name)
  | readOnly => some "(code: 8) attempt to write a readonly database"
  | notADatabase => some "(code: 26) file is not a database"
  | unreachable => none

/-- The wording of an error. -/
def message (e : DatabaseError) : String :=
  match e, e.cause? with
  | configuration _, some reason => "error with configuration: " ++ reason
  | _, some reason => "error returned from database: " ++ reason
  | _, none => "pool timed out while waiting for an open connection"

/-- Whether an address begins with a scheme. -/
def hasScheme (url : String) : Bool :=
  match Text.cut? ':' url.toList with
  | some (c :: cs, _) => c.isAlpha && cs.all fun c => c.isAlphanum || "+-.".toList.contains c
  | _ => false

/-- Why a server cannot be used: there is none, whatever its address. -/
def ofServer (url : String) : DatabaseError :=
  if hasScheme url then unreachable else configuration "relative URL without a base"

end DatabaseError

/-- What holds a database. -/
inductive DatabaseFile where
  /-- Memory, or a file without a name that is gone with the connection. -/
  | transient
  /-- A file. -/
  | file (path : Files.Path)
  deriving DecidableEq, Repr

/-- How a database may be opened. -/
structure DatabaseAccess where
  file : DatabaseFile
  onlyReads : Bool
  /-- Whether a missing file is made. -/
  creates : Bool
  /-- The way to access files, by name. -/
  system : Option String
  deriving DecidableEq, Repr

namespace DatabaseAccess

/-- The beginnings that an address may have, each any number of times. -/
def schemes : List String := ["sqlite://", "sqlite:"]

/-- Drop a beginning from a text as often as it is there. -/
def dropStart (start : List Char) (cs : List Char) : List Char :=
  if start ≠ [] ∧ start.isPrefixOf cs then dropStart start (cs.drop start.length) else cs
termination_by cs.length
decreasing_by
  rename_i h
  have hp := (List.isPrefixOf_iff_prefix.1 h.2).length_le
  have := List.length_pos_iff.2 h.1
  simp only [List.length_drop]
  omega

/-- Text in quotes, as it is shown. -/
def shown (s : String) : String := "\"" ++ s ++ "\""

/-- Take a parameter of the address into account. -/
def parameter (a : DatabaseAccess) (name value : String) : Except DatabaseError DatabaseAccess :=
  let unknownValue : Except DatabaseError DatabaseAccess :=
    .error (.configuration ("unknown value " ++ shown value ++ " for \x60" ++ name ++ "\x60"))
  match name, value with
  | "mode", "ro" => .ok { a with onlyReads := true }
  | "mode", "rw" => .ok a
  | "mode", "rwc" => .ok { a with creates := true }
  | "mode", "memory" => .ok { a with file := .transient }
  | "mode", _ => unknownValue
  | "cache", "private" => .ok a
  | "cache", "shared" => .ok a
  | "cache", _ => unknownValue
  | "immutable", "true" => .ok { a with onlyReads := true }
  | "immutable", "1" => .ok { a with onlyReads := true }
  | "immutable", "false" => .ok a
  | "immutable", "0" => .ok a
  | "immutable", _ => unknownValue
  | "vfs", _ => .ok { a with system := some value }
  | _, _ =>
    .error (.configuration
      ("unknown query parameter \x60" ++ name ++ "\x60 while parsing connection URL"))

/-- The file that an address names. -/
def fileOf (name : List Char) : Except DatabaseError DatabaseFile :=
  if name = ":memory:".toList then .ok .transient
  else match Text.decode? (Text.percentDecode (Text.encodeChars name)) with
    | some "" => .ok .transient
    | some path => .ok (.file path)
    | none => .error (.configuration "invalid utf-8 sequence")

/-- What an address asks for. -/
def ofText (url : String) : Except DatabaseError DatabaseAccess := do
  let rest := schemes.foldl (fun cs start => dropStart start.toList cs) url.toList
  let (name, query) := (Text.cut? '?' rest).getD (rest, [])
  let access : DatabaseAccess := ⟨← fileOf name, false, false, none⟩
  (Text.formFields (Text.encodeChars query)).foldlM (fun a (n, v) => a.parameter n v) access

/-- The ways to access files that there are. -/
def systems : List String := ["unix", "unix-none", "unix-dotfile", "unix-excl"]

/-- The files after a database was opened. -/
def openIn (a : DatabaseAccess) (files : Files.Tree) : Except DatabaseError Files.Tree :=
  match a.system.filter fun name => !systems.contains name with
  | some name => .error (.noSuchSystem name)
  | none =>
    match a.file with
    | .transient => .ok files
    | .file path =>
      let place := Files.Path.place path
      match files.node? place with
      | some .directory => .error .cannotOpen
      | some (.file ..) => .ok files
      | none =>
        if a.creates && !a.onlyReads then
          match files.write place [] with
          | .ok files => .ok files
          | .error _ => .error .cannotOpen
        else .error .cannotOpen

end DatabaseAccess

end ShortLink
