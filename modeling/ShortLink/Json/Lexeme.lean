/-
  The lexemes of JSON text.

  A text is cut into marks, names of constants, numbers and strings; blanks (space, tab, line feed,
  carriage return) separate them and nothing else does.  The input is the reading of a byte sequence
  (`Text.readings`): a character, or `none` for a byte outside every character.  Such a byte may
  stand in a string, which then denotes no text, and nowhere else.
-/
import ShortLink.Json.Basic
import ShortLink.Text.Hex

namespace ShortLink.Json

open ShortLink.Text (hexValue?)

/-- A lexeme; a string without a text is well formed but denotes none. -/
inductive Lexeme where
  | openArray
  | closeArray
  | openObject
  | closeObject
  | comma
  | colon
  | null
  | bool (value : Bool)
  | number (literal : Number)
  | string (text : Option String)
  deriving DecidableEq, Repr

/-- The rest of an input: characters, and `none` for bytes that belong to none. -/
abbrev Input := List (Option Char)

/-! ## Strings -/

/-- A piece of a string literal: a character, a UTF-16 unit written as an escape, or a byte that is
no text. -/
inductive Piece where
  | char (c : Char)
  | unit (u : Nat)
  | junk
  deriving DecidableEq, Repr

/-- The character that a backslash and this letter stand for. -/
def simpleEscape? : Char → Option Char
  | '"' => some '"'
  | '\\' => some '\\'
  | '/' => some '/'
  | 'b' => some '\x08'
  | 'f' => some '\x0C'
  | 'n' => some '\n'
  | 'r' => some '\r'
  | 't' => some '\t'
  | _ => none

/-- The value of four hexadecimal digits. -/
def unit? (a b c d : Char) : Option Nat :=
  match hexValue? a, hexValue? b, hexValue? c, hexValue? d with
  | some a, some b, some c, some d => some (((a * 16 + b) * 16 + c) * 16 + d)
  | _, _, _, _ => none

/-- The pieces of a string up to its closing quote, and the input after it. A raw control character
and an unknown escape are refused. -/
def pieces (found : List Piece) : Input → Option (List Piece × Input)
  | [] => none
  | some '"' :: rest => some (found.reverse, rest)
  | some '\\' :: some 'u' :: some a :: some b :: some c :: some d :: rest =>
    match unit? a b c d with
    | some u => pieces (.unit u :: found) rest
    | none => none
  | some '\\' :: some e :: rest =>
    match simpleEscape? e with
    | some c => pieces (.char c :: found) rest
    | none => none
  | some '\\' :: _ => none
  | some c :: rest => if c < ' ' then none else pieces (.char c :: found) rest
  | none :: rest => pieces (.junk :: found) rest

/-- A surrogate that must be followed by a low one. -/
def isHigh (u : Nat) : Bool := 0xD800 ≤ u && u < 0xDC00

/-- A surrogate that must follow a high one. -/
def isLow (u : Nat) : Bool := 0xDC00 ≤ u && u < 0xE000

/-- The character of a surrogate pair. -/
def pair (high low : Nat) : Char := Char.ofNat (0x10000 + (high - 0xD800) * 0x400 + (low - 0xDC00))

/-- The text of a list of pieces, if every surrogate is paired and every byte is text. -/
def textOf (found : List Char) : List Piece → Option (List Char)
  | [] => some found.reverse
  | .char c :: rest => textOf (c :: found) rest
  | .unit high :: .unit low :: rest =>
    if isHigh high then
      if isLow low then textOf (pair high low :: found) rest else none
    else if isLow high then none
    else textOf (Char.ofNat high :: found) (.unit low :: rest)
  | .unit u :: rest =>
    if isHigh u || isLow u then none else textOf (Char.ofNat u :: found) rest
  | .junk :: _ => none

/-- The string after an opening quote, and the input after its closing quote. -/
def string? (input : Input) : Option (Lexeme × Input) :=
  (pieces [] input).map fun (ps, rest) => (.string ((textOf [] ps).map String.ofList), rest)

/-! ## Numbers -/

/-- The value of a decimal digit. -/
def digit? (c : Char) : Option (Fin 10) :=
  if h : '0'.toNat ≤ c.toNat ∧ c.toNat ≤ '9'.toNat then
    some ⟨c.toNat - '0'.toNat, by
      have : '0'.toNat = 48 := rfl
      have : '9'.toNat = 57 := rfl
      omega⟩
  else none

/-- The digits at the front of an input, and the rest. -/
def digits : Input → List (Fin 10) × Input
  | some c :: rest =>
    match digit? c with
    | some d => (d :: (digits rest).1, (digits rest).2)
    | none => ([], some c :: rest)
  | input => ([], input)

/-- The number that digits write. -/
def value (ds : List (Fin 10)) : Nat := ds.foldl (fun n d => 10 * n + d.1) 0

/-- The integer part: a zero alone, or digits that do not start with one. -/
def whole? (input : Input) : Option (Nat × Input) :=
  match input with
  | some '0' :: rest => some (0, rest)
  | _ =>
    match digits input with
    | ([], _) => none
    | (ds, rest) => some (value ds, rest)

/-- The digits after a point; there is at least one. -/
def fraction? : Input → Option (List (Fin 10) × Input)
  | some '.' :: rest =>
    match digits rest with
    | ([], _) => none
    | (ds, rest) => some (ds, rest)
  | input => some ([], input)

/-- An exponent's sign. -/
def exponentSign : Input → Bool × Input
  | some '+' :: rest => (false, rest)
  | some '-' :: rest => (true, rest)
  | input => (false, input)

/-- The digits of an exponent; there is at least one. -/
def exponentDigits? (input : Input) : Option (Option Int × Input) :=
  let (negative, rest) := exponentSign input
  match digits rest with
  | ([], _) => none
  | (ds, rest) => some (some (if negative then -(value ds : Int) else value ds), rest)

/-- An exponent, if the input goes on with one. -/
def exponent? : Input → Option (Option Int × Input)
  | some 'e' :: rest => exponentDigits? rest
  | some 'E' :: rest => exponentDigits? rest
  | input => some (none, input)

/-- A number after its sign. -/
def number? (negative : Bool) (input : Input) : Option (Lexeme × Input) :=
  match whole? input with
  | none => none
  | some (whole, input) =>
    match fraction? input with
    | none => none
    | some (fraction, input) =>
      match exponent? input with
      | none => none
      | some (exponent, rest) => some (.number ⟨negative, whole, fraction, exponent⟩, rest)

/-! ## All lexemes -/

/-- A blank of JSON. -/
def isJsonBlank (c : Char) : Bool := c == ' ' || c == '\t' || c == '\n' || c == '\r'

/-- The lexeme that starts with a character, given the input from that character on. -/
def lexeme? : Input → Option (Lexeme × Input)
  | some '[' :: rest => some (.openArray, rest)
  | some ']' :: rest => some (.closeArray, rest)
  | some '{' :: rest => some (.openObject, rest)
  | some '}' :: rest => some (.closeObject, rest)
  | some ',' :: rest => some (.comma, rest)
  | some ':' :: rest => some (.colon, rest)
  | some 'n' :: some 'u' :: some 'l' :: some 'l' :: rest => some (.null, rest)
  | some 't' :: some 'r' :: some 'u' :: some 'e' :: rest => some (.bool true, rest)
  | some 'f' :: some 'a' :: some 'l' :: some 's' :: some 'e' :: rest => some (.bool false, rest)
  | some '"' :: rest => string? rest
  | some '-' :: rest => number? true rest
  | input => number? false input

/-! ## Every lexeme uses up some input -/

theorem length_of_pieces {found ps : List Piece} {input rest : Input}
    (h : pieces found input = some (ps, rest)) : rest.length < input.length := by
  fun_induction pieces found input <;> simp_all <;> try omega

theorem length_of_digits (input : Input) : (digits input).2.length ≤ input.length := by
  fun_induction digits input <;> simp_all
  omega

theorem length_of_digits_ne_nil {input : Input} (h : (digits input).1 ≠ []) :
    (digits input).2.length < input.length := by
  fun_induction digits input with
  | case1 c rest d hd ih => have := length_of_digits rest; simp; omega
  | case2 => simp at h
  | case3 => simp at h

theorem length_of_whole? {input rest : Input} {n : Nat} (h : whole? input = some (n, rest)) :
    rest.length < input.length := by
  unfold whole? at h
  split at h
  · simp only [Option.some.injEq, Prod.mk.injEq] at h; simp [← h.2]
  · split at h
    · simp at h
    · next ds rest' hne hd =>
      simp only [Option.some.injEq, Prod.mk.injEq] at h
      have := @length_of_digits_ne_nil input (by rw [hd]; simpa using hne)
      rw [hd] at this
      simpa [← h.2] using this

theorem length_of_fraction? {input rest : Input} {ds : List (Fin 10)}
    (h : fraction? input = some (ds, rest)) : rest.length ≤ input.length := by
  unfold fraction? at h
  split at h
  · next rest' =>
    split at h
    · simp at h
    · next ds' rest'' _ hd =>
      simp only [Option.some.injEq, Prod.mk.injEq] at h
      have := length_of_digits rest'
      rw [hd] at this
      simp only [← h.2, List.length_cons]
      simp only at this
      omega
  · simp only [Option.some.injEq, Prod.mk.injEq] at h; simp [← h.2]

theorem length_of_exponentSign (input : Input) :
    (exponentSign input).2.length ≤ input.length := by
  unfold exponentSign; split <;> simp

theorem length_of_exponentDigits? {input rest : Input} {e : Option Int}
    (h : exponentDigits? input = some (e, rest)) : rest.length ≤ input.length := by
  unfold exponentDigits? at h
  have hs := length_of_exponentSign input
  have hd := length_of_digits (exponentSign input).2
  simp only at h
  split at h
  · simp at h
  · next ds rest' _ he =>
    simp only [Option.some.injEq, Prod.mk.injEq] at h
    rw [he] at hd
    simp only [← h.2]
    simp only at hd
    omega

theorem length_of_exponent? {input rest : Input} {e : Option Int}
    (h : exponent? input = some (e, rest)) : rest.length ≤ input.length := by
  unfold exponent? at h
  split at h
  · have := length_of_exponentDigits? h; simp; omega
  · have := length_of_exponentDigits? h; simp; omega
  · simp only [Option.some.injEq, Prod.mk.injEq] at h; simp [← h.2]

theorem length_of_number? {negative : Bool} {input rest : Input} {l : Lexeme}
    (h : number? negative input = some (l, rest)) : rest.length < input.length := by
  unfold number? at h
  split at h
  · simp at h
  · next whole input₁ hw =>
    split at h
    · simp at h
    · next fraction input₂ hf =>
      split at h
      · simp at h
      · next exponent rest' he =>
        simp only [Option.some.injEq, Prod.mk.injEq] at h
        have := length_of_whole? hw
        have := length_of_fraction? hf
        have := length_of_exponent? he
        rw [← h.2]
        omega

theorem length_of_lexeme? {input rest : Input} {l : Lexeme} (h : lexeme? input = some (l, rest)) :
    rest.length < input.length := by
  unfold lexeme? at h
  split at h
  case h_10 =>
    unfold string? at h
    obtain ⟨⟨ps, r⟩, hp, he⟩ := Option.map_eq_some_iff.1 h
    have := length_of_pieces hp
    simp only [Prod.mk.injEq] at he
    simp [← he.2]; omega
  case h_11 => have := length_of_number? h; simp; omega
  case h_12 => exact length_of_number? h
  all_goals
    simp only [Option.some.injEq, Prod.mk.injEq] at h
    simp [← h.2]
  all_goals omega

/-- The lexemes of an input, blanks skipped. -/
def lexemesFrom (found : List Lexeme) (input : Input) : Option (List Lexeme) :=
  match input with
  | [] => some found.reverse
  | some c :: rest =>
    if isJsonBlank c then lexemesFrom found rest
    else match h : lexeme? (some c :: rest) with
      | some (l, rest) =>
        have := length_of_lexeme? h
        lexemesFrom (l :: found) rest
      | none => none
  | none :: _ => none
termination_by input.length
decreasing_by all_goals simp only [List.length_cons] at *; omega

/-- The lexemes of an input, blanks skipped. -/
def lexemes? (input : Input) : Option (List Lexeme) := lexemesFrom [] input

end ShortLink.Json
