/-
  Files of variables.

  A line gives a variable its value, perhaps after the word `export`; blank lines and comments say
  nothing.  A variable that is set already keeps its value.  Reading ends at the first line that makes
  no sense; what stands before it counts.
-/
import ShortLink.Dotenv.Line
import ShortLink.Dotenv.Value

namespace ShortLink

/-- The variables that are set; of several with one name the first counts. -/
abbrev Variables := List (String × String)

namespace Dotenv

/-- A letter that a name may begin with. -/
def isNameStart (c : Char) : Bool := c.isAlpha || c = '_'

/-- A character within a name. -/
def isNamePart (c : Char) : Bool := c.isAlphanum || c = '_' || c = '.'

/-- The name at the front of a text, and what follows it and the blanks after it. -/
def name? (cs : List Char) : Option (String × List Char) :=
  match cs with
  | c :: _ =>
    if isNameStart c then
      some (String.ofList (cs.takeWhile isNamePart), (cs.dropWhile isNamePart).dropWhile Text.isBlank)
    else none
  | [] => none

/-- The name at the front of an assignment, and what follows its equals sign. -/
def assigned? (cs : List Char) : Option (String × List Char) :=
  match name? cs with
  | some (name, '=' :: rest) => some (name, rest)
  | some ("export", rest) =>
    match name? rest with
    | some (name, '=' :: rest) => some (name, rest)
    | _ => none
  | _ => none

/-- The value after an equals sign. -/
def assignedValue? (env : String → Option String) (cs : List Char) : Option String :=
  match cs.dropWhile Text.isBlank with
  | [] => some ""
  | '#' :: _ => some ""
  | cs => value? env cs

/-- Set a variable unless it is set. -/
def setIfMissing (known : Variables) (name value : String) : Variables :=
  match known.lookup name with
  | some _ => known
  | none => known ++ [(name, value)]

/-- The variables after a line, if it makes sense. -/
def take? (known : Variables) (cs : List Char) : Option Variables :=
  match Text.trimChars cs with
  | [] => some known
  | '#' :: _ => some known
  | cs => do
    let (name, rest) ← assigned? cs
    let value ← assignedValue? (known.lookup ·) rest
    some (setIfMissing known name value)

/-- The variables after lines. -/
def takeLines (known : Variables) : List Line → Variables
  | .text cs :: rest =>
    match take? known cs with
    | some known => takeLines known rest
    | none => known
  | _ => known

/-- The variables after a file. -/
def load (known : Variables) (file : Text.Bytes) : Variables := takeLines known (lines file)

example : load [("A", "1")] (Text.encode "A=2\nexport B = 'x y' # z\n\nC=\"$A\x7d\\n\" \nno\nD=4") =
    [("A", "1"), ("B", "x y"), ("C", "1\x7d\n")] := by decide +kernel

end Dotenv

end ShortLink
