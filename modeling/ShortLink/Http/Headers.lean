/-
  Header fields.

  A message carries header fields in order; names are compared without regard to case, and asking for
  a name finds the first field that has it.  A value is any bytes but control characters; it is
  readable as text only if it is visible ASCII, blanks and tabs.
-/
import ShortLink.Text.Utf8
import ShortLink.Text.Blank

namespace ShortLink.Http

open ShortLink.Text (Bytes)

/-- A header field; the name is in lower case. -/
structure Header where
  name : String
  value : Bytes
  deriving DecidableEq, Repr

/-- The header fields of a message, in order. -/
abbrev Headers := List Header

/-- A character of a name. -/
def isTokenByte (b : UInt8) : Bool :=
  let c := Char.ofNat b.toNat
  b < 0x80 && (c.isAlphanum || "!#$%&'*+-.^_\x60|~".toList.contains c)

/-- A byte of a value: no control character but the tab. -/
def isValueByte (b : UInt8) : Bool := b == 0x09 || (0x20 ≤ b && b != 0x7F)

/-- A byte of a value that is readable as text. -/
def isTextByte (b : UInt8) : Bool := b == 0x09 || (0x20 ≤ b && b < 0x7F)

/-- Whether bytes may stand as a field's value. -/
def isLegalValue (value : Bytes) : Bool := value.all isValueByte

/-- The field with a name and a value, if both are legal. -/
def Header.of? (name value : Bytes) : Option Header :=
  if name ≠ [] && name.all isTokenByte && isLegalValue value then
    some ⟨String.ofList (name.map fun b => (Char.ofNat b.toNat).toLower), value⟩
  else none

namespace Headers

/-- The value of the first field with a name, given in lower case. -/
def first? (headers : Headers) (name : String) : Option Bytes :=
  (headers.find? fun h => h.name == name).map (·.value)

/-- The text of a readable value. -/
def readable? (value : Bytes) : Option String :=
  if value.all isTextByte then some (String.ofList (value.map fun b => Char.ofNat b.toNat)) else none

/-- The text of the first field with a name; a value that is no text counts as absent. -/
def text? (headers : Headers) (name : String) : Option String :=
  (headers.first? name).bind readable?

/-- The text of the first field with a name, blanks around it removed; a blank value counts as
absent. -/
def trimmed? (headers : Headers) (name : String) : Option String :=
  match headers.text? name with
  | some s => if Text.trim s = "" then none else some (Text.trim s)
  | none => none

end Headers

end ShortLink.Http
