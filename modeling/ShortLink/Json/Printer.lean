/-
  Writing JSON.

  Strings escape the quote, the backslash and the control characters below U+0020, and nothing else.
  `compact` writes no blanks; `pretty` puts each item on a line of its own, two spaces deeper than
  its container, and writes an empty container as its two brackets.
-/
import ShortLink.Json.Basic
import ShortLink.Text.Hex

namespace ShortLink.Json

/-- A character inside a string literal. -/
def escaped (c : Char) : List Char :=
  if c = '"' then ['\\', '"']
  else if c = '\\' then ['\\', '\\']
  else if c = '\x08' then ['\\', 'b']
  else if c = '\x0C' then ['\\', 'f']
  else if c = '\n' then ['\\', 'n']
  else if c = '\r' then ['\\', 'r']
  else if c = '\t' then ['\\', 't']
  else if c < ' ' then '\\' :: 'u' :: Text.hexDigits 4 c.toNat
  else [c]

/-- A string literal. -/
def quoted (s : String) : List Char := '"' :: (s.toList.flatMap escaped ++ ['"'])

/-- A digit. -/
def digitChar (d : Fin 10) : Char := Char.ofNat ('0'.toNat + d.1)

/-- A number's literal. -/
def Number.chars (n : Number) : List Char :=
  (if n.negative then ['-'] else []) ++ Nat.toDigits 10 n.whole ++
    (if n.fraction = [] then [] else '.' :: n.fraction.map digitChar) ++
    (match n.exponent with
     | none => []
     | some e => 'e' :: (if e < 0 then ['-'] else []) ++ Nat.toDigits 10 e.natAbs)

/-- Items with a separator between each two. -/
def separated (separator : List Char) : List (List Char) → List Char
  | [] => []
  | [x] => x
  | x :: xs => x ++ separator ++ separated separator xs

mutual

/-- A value without blanks. A string that denotes no text has no spelling of its own and is written
as null. -/
def compactChars : Json → List Char
  | .null => ['n', 'u', 'l', 'l']
  | .bool true => ['t', 'r', 'u', 'e']
  | .bool false => ['f', 'a', 'l', 's', 'e']
  | .number n => n.chars
  | .string s => quoted s
  | .unreadable => ['n', 'u', 'l', 'l']
  | .array items => '[' :: (separated [','] (compactItems items) ++ [']'])
  | .object members => '{' :: (separated [','] (compactMembers members) ++ ['}'])

/-- The items of an array, each without blanks. -/
def compactItems : List Json → List (List Char)
  | [] => []
  | v :: vs => compactChars v :: compactItems vs

/-- The members of an object, each without blanks. -/
def compactMembers : List (String × Json) → List (List Char)
  | [] => []
  | (n, v) :: ms => (quoted n ++ ':' :: compactChars v) :: compactMembers ms

end

/-- A value without blanks. -/
def compact (v : Json) : String := String.ofList (compactChars v)

/-- A new line with an indentation. -/
def newLine (depth : Nat) : List Char := '\n' :: List.replicate (2 * depth) ' '

mutual

/-- A value on lines of its own, at an indentation. -/
def prettyChars (depth : Nat) : Json → List Char
  | .array [] => ['[', ']']
  | .array (v :: vs) =>
    '[' :: (newLine (depth + 1) ++
      separated (',' :: newLine (depth + 1)) (prettyItems (depth + 1) (v :: vs)) ++
      newLine depth ++ [']'])
  | .object [] => ['{', '}']
  | .object (m :: ms) =>
    '{' :: (newLine (depth + 1) ++
      separated (',' :: newLine (depth + 1)) (prettyMembers (depth + 1) (m :: ms)) ++
      newLine depth ++ ['}'])
  | v => compactChars v

/-- The items of an array, each on lines of its own. -/
def prettyItems (depth : Nat) : List Json → List (List Char)
  | [] => []
  | v :: vs => prettyChars depth v :: prettyItems depth vs

/-- The members of an object, each on lines of its own. -/
def prettyMembers (depth : Nat) : List (String × Json) → List (List Char)
  | [] => []
  | (n, v) :: ms => (quoted n ++ ':' :: ' ' :: prettyChars depth v) :: prettyMembers depth ms

end

/-- A value on several lines. -/
def pretty (v : Json) : String := String.ofList (prettyChars 0 v)

end ShortLink.Json
