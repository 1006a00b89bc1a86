/-
  The lines of a file of variables.

  Quotes and backslashes are respected when lines are told apart: a line goes on after its end while a
  quotation is open.  A number sign after a blank starts a comment, unless it is quoted; a line that
  starts with one is a comment as a whole.  A line that is not text, or whose end is missing, is
  broken.
-/
import ShortLink.Text.Blank
import ShortLink.Text.Split
import ShortLink.Text.Utf8

namespace ShortLink.Dotenv

/-- Where in a line a reader is. -/
inductive Place where
  | plain
  /-- After a single blank. -/
  | blank
  | escaped
  | singleQuoted
  | singleQuotedEscaped
  | doubleQuoted
  | doubleQuotedEscaped
  | comment
  deriving DecidableEq, Repr

namespace Place

/-- Where a reader is after a character outside quotations. -/
def afterPlain (c : Char) : Place :=
  if c = '\\' then escaped
  else if c = '"' then doubleQuoted
  else if c = '\'' then singleQuoted
  else plain

/-- Where a reader is after one more character. -/
def next (c : Char) : Place → Place
  | plain => if Text.isBlank c ∧ c ≠ '\n' ∧ c ≠ '\r' then blank else afterPlain c
  | blank => if c = '#' then comment else afterPlain c
  | escaped => plain
  | singleQuoted => if c = '\\' then singleQuotedEscaped else if c = '\'' then plain else singleQuoted
  | singleQuotedEscaped => singleQuoted
  | doubleQuoted => if c = '\\' then doubleQuotedEscaped else if c = '"' then plain else doubleQuoted
  | doubleQuotedEscaped => doubleQuoted
  | comment => comment

/-- Go through characters: those in front of a comment, and where the reader is after them. -/
def scan : Place → List Char → List Char × Place
  | place, [] => ([], place)
  | place, c :: cs =>
    match place.next c with
    | comment => ([], comment)
    | place => let (kept, last) := scan place cs; (c :: kept, last)

end Place

/-- A line of the file. -/
inductive Line where
  | text (cs : List Char)
  | broken
  deriving DecidableEq, Repr

/-- Whether characters are a comment as a whole. -/
def isComment (cs : List Char) : Bool := (cs.dropWhile Text.isBlank).head? == some '#'

/-- Put lines together out of the pieces between line ends; `none` is a piece that is no text.
`begun` is what there is of the line that was begun, and `place` where its reader is. -/
def joinPieces (begun : List Char) (place : Place) : List (Option (List Char)) → List Line
  | [] => if place = .plain then [] else [.broken]
  | none :: _ => [.broken]
  | some piece :: pieces =>
    if isComment (begun ++ piece) then joinPieces [] .plain pieces
    else
      let (kept, place) := place.scan piece
      match place with
      | .plain => .text (begun ++ piece) :: joinPieces [] .plain pieces
      | .comment => .text (begun ++ kept) :: joinPieces [] .plain pieces
      | place => joinPieces (begun ++ piece) place pieces

/-- The pieces of a file, each with the line end after it. -/
def pieces : List Text.Bytes → List (Option (List Char))
  | [] => []
  | [last] => if last = [] then [] else [(Text.decode? last).map String.toList]
  | piece :: rest => ((Text.decode? piece).map fun s => s.toList ++ ['\n']) :: pieces rest

/-- The mark that a file may begin with. -/
def byteOrderMark : Text.Bytes := [0xEF, 0xBB, 0xBF]

/-- The lines of a file. -/
def lines (file : Text.Bytes) : List Line :=
  let file := if byteOrderMark.isPrefixOf file then file.drop byteOrderMark.length else file
  joinPieces [] .plain (pieces (Text.splitOn 0x0A file))

end ShortLink.Dotenv
