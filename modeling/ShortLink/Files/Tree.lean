/-
  Trees of files.

  A tree knows each of its directories and files by the names on the way to it.  The current directory
  and the root are always there; a file can be written only into a directory that is there.
-/
import ShortLink.Files.Path
import ShortLink.Text.Utf8

namespace ShortLink.Files

/-- What stands at a place of a tree. -/
inductive Node where
  | directory
  /-- A file with its content and its permissions, as an octal number is read. -/
  | file (content : Text.Bytes) (mode : Nat)
  deriving DecidableEq, Repr

/-- Why something could not be done with a file. -/
inductive FileError where
  | isMissing
  | permission
  | isThere
  | notADirectory
  | isADirectory
  | nameTooLong
  deriving DecidableEq, Repr

/-- The wording of an error. -/
def FileError.message : FileError → String
  | .isMissing => "No such file or directory (os error 2)"
  | .permission => "Permission denied (os error 13)"
  | .isThere => "File exists (os error 17)"
  | .notADirectory => "Not a directory (os error 20)"
  | .isADirectory => "Is a directory (os error 21)"
  | .nameTooLong => "File name too long (os error 36)"

/-- A tree of files. -/
structure Tree where
  entries : List (List String × Node)
  deriving DecidableEq, Repr

namespace Tree

/-- The permissions of a new file. -/
def newFileMode : Nat := 0o644

/-- A tree with no entries. -/
def empty : Tree := ⟨[]⟩

/-- What stands at a place. -/
def node? (t : Tree) (place : List String) : Option Node :=
  if place = [] || place = ["/"] then some .directory else t.entries.lookup place

/-- Put something at a place. -/
def put (t : Tree) (place : List String) (node : Node) : Tree :=
  ⟨(place, node) :: t.entries.filter fun e => e.1 != place⟩

/-- Take away what stands at a place. -/
def remove (t : Tree) (place : List String) : Tree := ⟨t.entries.filter fun e => e.1 != place⟩

/-- Whether a directory stands at a place. -/
def isDirectory (t : Tree) (place : List String) : Bool := t.node? place == some .directory

/-- Whether something stands at a place. -/
def isThere (t : Tree) (place : List String) : Bool := (t.node? place).isSome

/-- The content of the file at a place. -/
def read? (t : Tree) (place : List String) : Option Text.Bytes :=
  match t.node? place with
  | some (.file content _) => some content
  | _ => none

/-- The permissions of the file at a place. -/
def mode? (t : Tree) (place : List String) : Option Nat :=
  match t.node? place with
  | some (.file _ mode) => some mode
  | _ => none

/-- Whether a file stands somewhere on the way to a place. -/
def isBlocked (t : Tree) (place : List String) : Bool :=
  (List.range place.length).any fun i =>
    match t.node? (place.take i) with
    | some (.file ..) => true
    | _ => false

/-- Make the directories on the way to a place and at the place itself, where there are none. -/
def makeDirectories (t : Tree) (place : List String) : Except FileError Tree :=
  if t.isBlocked place then .error .notADirectory
  else match t.node? place with
    | some (.file ..) => .error .isThere
    | some .directory => .ok t
    | none =>
      .ok (((List.range place.length).map fun i => place.take (i + 1)).foldl
        (fun t p => if t.isThere p then t else t.put p .directory) t)

/-- Write a file; its permissions stay if it was there. -/
def write (t : Tree) (place : List String) (content : Text.Bytes) : Except FileError Tree :=
  if t.isBlocked place then .error .notADirectory
  else if t.isDirectory place.dropLast then
    match t.node? place with
    | some .directory => .error .isADirectory
    | some (.file _ mode) => .ok (t.put place (.file content mode))
    | none => .ok (t.put place (.file content newFileMode))
  else .error .isMissing

/-- What a path names. The empty path names nothing, and what stands below a file is no more to be
reached than a file by the path of a directory. -/
def lookUp (t : Tree) (path : Path) : Except FileError Node :=
  if path.isTooLong then .error .nameTooLong
  else if path = "" then .error .isMissing
  else if t.isBlocked path.place then .error .notADirectory
  else match t.node? path.place with
    | some .directory => .ok .directory
    | some (.file content mode) =>
      if path.asksForDirectory then .error .notADirectory else .ok (.file content mode)
    | none => .error .isMissing

/-- Make the directory that a path names, and those on the way to it. -/
def makePath (t : Tree) (path : Path) : Except FileError Tree :=
  if path.isTooLong then .error .nameTooLong else t.makeDirectories path.place

/-- Write the file that a path names. -/
def writePath (t : Tree) (path : Path) (content : Text.Bytes) : Except FileError Tree :=
  if path.isTooLong then .error .nameTooLong else t.write path.place content

/-- Set the permissions of the file at a place. -/
def setMode (t : Tree) (place : List String) (mode : Nat) : Tree :=
  match t.node? place with
  | some (.file content _) => t.put place (.file content mode)
  | _ => t

/-! ## Laws -/

theorem lookup_filter_ne (es : List (List String × Node)) (place : List String) :
    (es.filter fun e => e.1 != place).lookup place = none := by
  rw [List.lookup_eq_none_iff]
  intro e he
  have := (List.mem_filter.1 he).2
  simp only [bne_iff_ne, ne_eq] at this
  simp [Ne.symm this]

/-- What was put at a place below the root is there. -/
theorem node?_put {t : Tree} {place : List String} {node : Node}
    (h : place ≠ [] ∧ place ≠ ["/"]) : (t.put place node).node? place = some node := by
  simp [node?, put, h.1, h.2]

/-- Nothing is left at a place from which it was removed. -/
theorem node?_remove {t : Tree} {place : List String} (h : place ≠ [] ∧ place ≠ ["/"]) :
    (t.remove place).node? place = none := by
  simp [node?, remove, h.1, h.2, lookup_filter_ne]

end Tree

end ShortLink.Files
