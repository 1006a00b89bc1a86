/-
  Paths of files.

  A path is text: names with slashes between them.  Repeated slashes and the component `.` say
  nothing, except for a `.` at the very beginning.  `parent?` is the path of the directory that a path
  names an entry of, in the spelling in which it stands there; the parent of a bare name is the empty
  path, which stands for the current directory.
-/
import ShortLink.Text.Split

namespace ShortLink.Files

/-- The text of a path. -/
abbrev Path := String

namespace Path

/-- Drop from the end of a path, given backwards, the slashes and the components `.` that say
nothing. -/
def dropNoise : List Char → List Char
  | '/' :: c :: rest => dropNoise (c :: rest)
  | '.' :: '/' :: rest => dropNoise ('/' :: rest)
  | cs => cs

/-- The path of the directory that holds the entry a path names. The root and the empty path are no
entries of a directory. -/
def parent? (p : Path) : Option Path :=
  match dropNoise p.toList.reverse with
  | [] => none
  | ['/'] => none
  | cs => some (String.ofList (dropNoise (cs.dropWhile (· != '/'))).reverse)

/-- The path of a name within a directory. -/
def join (dir : Path) (name : String) : Path :=
  if name.startsWith "/" || dir.isEmpty then name
  else if dir.endsWith "/" then dir ++ name
  else dir ++ "/" ++ name

/-- How many bytes a path may have. -/
def maxLength : Nat := 4095

/-- Whether a path has more bytes than it may have, so that nothing can be done with it. -/
def isTooLong (p : Path) : Bool := maxLength < p.utf8ByteSize

/-- Whether a path starts from the root. -/
def isAbsolute (p : Path) : Bool := p.startsWith "/"

/-- Whether a path can only name a directory: it ends with a slash or with a component that is no
name. -/
def asksForDirectory (p : Path) : Bool :=
  ((Text.splitOn '/' p.toList).getLast?).any fun last =>
    ["", ".", ".."].contains (String.ofList last)

/-- The names on the way to the file, from the root or from the current directory; `..` goes back. -/
def names (p : Path) : List String :=
  (((Text.splitOn '/' p.toList).map String.ofList).foldl
    (fun back name =>
      if name = "" || name = "." then back
      else if name = ".." then back.drop 1
      else name :: back) []).reverse

/-- Where a path leads: the root is told apart from the current directory. -/
def place (p : Path) : List String := if isAbsolute p then "/" :: names p else names p

example : parent? "a/b.x" = some "a" := by decide
example : parent? "a//b/./" = some "a" := by decide
example : parent? "x" = some "" := by decide
example : parent? "./x" = some "." := by decide
example : parent? "/x" = some "/" := by decide
example : parent? "/" = none := by decide
example : names "./a//b/../c" = ["a", "c"] := by decide
example : asksForDirectory "a/b/." = true := by decide

end Path

end ShortLink.Files
