/-
  What is printed is cut into the lexemes it was printed from.

  `lexemes v` are the lexemes of a value, in the order of its text, and `lexemes?_compact` says that
  the text without blanks is cut into just these.  A lexeme never runs into the next one: a mark and
  a name end by themselves, a string ends at its quote, and a number ends where the text goes on
  with something else (`Ends`), which a comma, a bracket and the end of the text all are.

  1. Strings: each character is printed as one piece (`pieces_escaped`), and the pieces of a text
     make the text (`textOf_pieceOf`).

  2. Numbers: the printed digits start with zero for zero only (`digitsOf_cases`), and the parts of
     a literal are read one after the other (`lexeme?_chars`).

  3. Values: `lexemesFrom_compactChars`, by the printer's recursion, with any lexemes found before
     and any input after at which a number is over.
-/
import ShortLink.Json.Canonical
import ShortLink.Json.Printer
import ShortLink.Proofs.Text.Utf8

namespace ShortLink.Json

/-! ## Strings -/

/-- The piece that a character is printed as: a control character without an escape of its own is
printed by its number. -/
def pieceOf (c : Char) : Piece :=
  if c < ' ' ∧ c ∉ ['\x08', '\x0C', '\n', '\r', '\t'] then .unit c.toNat else .char c

/-- Four digits write every number that has no more. -/
theorem unit?_hexDigits {n : Nat} (h : n < 65536) :
    ∃ a b c d, Text.hexDigits 4 n = [a, b, c, d] ∧ unit? a b c d = some n := by
  refine ⟨_, _, _, _, rfl, ?_⟩
  have digit (m : Nat) : Text.hexValue? (Text.hexDigit (m % 16)) = some (m % 16) :=
    Text.hexValue?_hexDigit ⟨m % 16, Nat.mod_lt m (by decide)⟩
  simp only [unit?, digit, Option.some.injEq]
  omega

/-- A character that is printed as it is is read as it is. -/
theorem pieces_char (found : List Piece) {c : Char} (hq : c ≠ '"') (hb : c ≠ '\\') (hc : ¬ c < ' ')
    (rest : Input) : pieces found (some c :: rest) = pieces (.char c :: found) rest := by
  -- the last branch of the reader, after those of the quote and of the escapes
  rw [pieces.eq_def]
  split
  case h_6 c' rest' _ _ _ _ h =>
    obtain ⟨rfl, rfl⟩ : c = c' ∧ rest = rest' := by simpa using h
    rw [if_neg hc]
  all_goals simp_all

/-- Each character is printed as one piece. -/
theorem pieces_escaped (found : List Piece) (c : Char) (rest : Input) :
    pieces found ((escaped c).map some ++ rest) = pieces (pieceOf c :: found) rest := by
  unfold escaped
  split
  · next h => subst h; rfl
  · next hq =>
    split
    · next h => subst h; rfl
    · next hb =>
      split
      · next h => subst h; rfl
      · next h₁ =>
        split
        · next h => subst h; rfl
        · next h₂ =>
          split
          · next h => subst h; rfl
          · next h₃ =>
            split
            · next h => subst h; rfl
            · next h₄ =>
              split
              · next h => subst h; rfl
              · next h₅ =>
                split
                · next hc =>
                  have small : c.toNat < 32 := hc
                  obtain ⟨x, y, z, w, hd, hu⟩ := unit?_hexDigits (n := c.toNat) (by omega)
                  have hp : pieceOf c = .unit c.toNat := by simp [pieceOf, hc, h₁, h₂, h₃, h₄, h₅]
                  rw [hd, hp]
                  simp [pieces, hu]
                · next hc =>
                  have hp : pieceOf c = .char c := by simp [pieceOf, hc]
                  rw [hp]
                  exact pieces_char found hq hb hc rest

theorem pieces_flatMap_escaped (found : List Piece) (cs : List Char) (rest : Input) :
    pieces found ((cs.flatMap escaped).map some ++ some '"' :: rest) =
      some (found.reverse ++ cs.map pieceOf, rest) := by
  induction cs generalizing found with
  | nil => simp [pieces]
  | cons c cs ih =>
    rw [List.flatMap_cons, List.map_append, List.append_assoc, pieces_escaped, ih]
    simp

/-- A number that is no surrogate stands for its character, whatever comes next. -/
theorem textOf_unit (found : List Char) {u : Nat} (hh : isHigh u = false) (hl : isLow u = false)
    (rest : List Piece) :
    textOf found (.unit u :: rest) = textOf (Char.ofNat u :: found) rest := by
  cases rest with
  | nil => simp [textOf, hh, hl]
  | cons p rest =>
    cases p <;> simp [textOf, hh, hl]

theorem textOf_pieceOf (found cs : List Char) :
    textOf found (cs.map pieceOf) = some (found.reverse ++ cs) := by
  induction cs generalizing found with
  | nil => simp [textOf]
  | cons c cs ih =>
    have step : textOf found (pieceOf c :: cs.map pieceOf) =
        textOf (c :: found) (cs.map pieceOf) := by
      unfold pieceOf
      split
      · next h =>
        have small : c.toNat < 32 := h.1
        have hh : isHigh c.toNat = false := by simp [isHigh]; omega
        have hl : isLow c.toNat = false := by simp [isLow]; omega
        rw [textOf_unit found hh hl, Char.ofNat_toNat]
      · rw [textOf]
    rw [List.map_cons, step, ih]
    simp

/-- A string literal is read as its text. -/
theorem lexeme?_quoted (s : String) (rest : Input) :
    lexeme? ((quoted s).map some ++ rest) = some (.string (some s), rest) := by
  have body : pieces [] ((s.toList.flatMap escaped).map some ++ some '"' :: rest) =
      some (s.toList.map pieceOf, rest) := pieces_flatMap_escaped [] s.toList rest
  show string? (((s.toList.flatMap escaped ++ ['"']).map some) ++ rest) = _
  rw [List.map_append, List.append_assoc]
  simp only [string?, List.map_cons, List.map_nil, List.singleton_append, body, Option.map_some,
    textOf_pieceOf, List.reverse_nil, List.nil_append, String.ofList_toList]

/-! ## Digits -/

@[simp] theorem digit?_digitChar : ∀ d : Fin 10, digit? (digitChar d) = some d := by decide

theorem isJsonBlank_digitChar : ∀ d : Fin 10, isJsonBlank (digitChar d) = false := by decide

theorem digitChar_eq_zero : ∀ {d : Fin 10}, digitChar d = '0' → d = 0 := by decide

theorem exponentSign_digit (d : Fin 10) (rest : Input) :
    exponentSign (some (digitChar d) :: rest) = (false, some (digitChar d) :: rest) := by
  have marks : digitChar d ≠ '+' ∧ digitChar d ≠ '-' := by revert d; decide
  unfold exponentSign
  split
  · simp_all
  · simp_all
  · rfl

theorem digitsOf_of_lt {n : Nat} (h : n < 10) : digitsOf n = [⟨n, h⟩] := by
  rw [digitsOf, Nat.toDigits_of_lt_base h, List.map_singleton, Nat.toNat_digitChar_of_lt_ten h]
  simp [Fin.ofNat, Nat.mod_eq_of_lt h]

theorem digitsOf_of_le {n : Nat} (h : 10 ≤ n) :
    digitsOf n = digitsOf (n / 10) ++ [⟨n % 10, Nat.mod_lt n (by decide)⟩] := by
  have hd : n % 10 < 10 := Nat.mod_lt n (by decide)
  rw [digitsOf, Nat.toDigits_of_base_le (by decide) h, List.map_append, List.map_singleton,
    Nat.toNat_digitChar_of_lt_ten hd]
  simp [digitsOf, Fin.ofNat]

/-- The digits of a number are those that are printed. -/
theorem map_digitChar_digitsOf (n : Nat) : (digitsOf n).map digitChar = Nat.toDigits 10 n := by
  rw [digitsOf, List.map_map]
  refine (List.map_congr_left fun c hc => ?_).trans (List.map_id _)
  have digit := Nat.isDigit_of_mem_toDigits (by decide) (by decide) hc
  simp only [Char.isDigit, Bool.and_eq_true, decide_eq_true_eq, UInt32.le_iff_toNat_le] at digit
  have low : 48 ≤ c.toNat := digit.1
  have high : c.toNat ≤ 57 := digit.2
  have back : 48 + (c.toNat - 48) % 10 = c.toNat := by omega
  show Char.ofNat (48 + (c.toNat - 48) % 10) = c
  rw [back, Char.ofNat_toNat]

/-- They write the number. -/
theorem value_digitsOf (n : Nat) : value (digitsOf n) = n := by
  induction n using Nat.strongRecOn with
  | ind n ih =>
    by_cases h : n < 10
    · rw [digitsOf_of_lt h]
      simp [value]
    · have back := ih (n / 10) (by omega)
      rw [digitsOf_of_le (by omega), value, List.foldl_append, ← value, back]
      simp only [List.foldl_cons, List.foldl_nil]
      omega

/-- They start with zero for zero only. -/
theorem digitsOf_cases (n : Nat) :
    n = 0 ∧ digitsOf n = [0] ∨ ∃ d ds, d ≠ 0 ∧ digitsOf n = d :: ds := by
  induction n using Nat.strongRecOn with
  | ind n ih =>
    by_cases h : n < 10
    · rcases Nat.eq_zero_or_pos n with rfl | hp
      · exact .inl ⟨rfl, digitsOf_of_lt h⟩
      · refine .inr ⟨⟨n, h⟩, [], fun he => ?_, digitsOf_of_lt h⟩
        have := congrArg Fin.val he
        simp at this
        omega
    · rcases ih (n / 10) (by omega) with ⟨hz, -⟩ | ⟨d, ds, hd, he⟩
      · omega
      · exact .inr ⟨d, ds ++ _, hd, by rw [digitsOf_of_le (by omega), he, List.cons_append]⟩

theorem digitsOf_nonempty (n : Nat) : ∃ d ds, digitsOf n = d :: ds := by
  rcases digitsOf_cases n with ⟨-, h⟩ | ⟨d, ds, -, h⟩
  · exact ⟨0, [], h⟩
  · exact ⟨d, ds, h⟩

/-- An input that goes on with no digit. -/
def NoDigit (input : Input) : Prop := digits input = ([], input)

theorem noDigit_cons {c : Char} (h : digit? c = none) (rest : Input) :
    NoDigit (some c :: rest) := by
  simp [NoDigit, digits, h]

/-- Digits are read up to where there is none. -/
theorem digits_append (ds : List (Fin 10)) {rest : Input} (h : NoDigit rest) :
    digits ((ds.map digitChar).map some ++ rest) = (ds, rest) := by
  induction ds with
  | nil => exact h
  | cons d ds ih =>
    rw [List.map_cons, List.map_cons, List.cons_append, digits, digit?_digitChar]
    simp only [ih]

/-! ## Numbers -/

/-- The printed fraction of a number. -/
def fractionChars (fraction : List (Fin 10)) : List Char :=
  if fraction = [] then [] else '.' :: fraction.map digitChar

/-- The printed exponent of a number. -/
def exponentChars : Option Int → List Char
  | none => []
  | some e => 'e' :: (if e < 0 then ['-'] else []) ++ Nat.toDigits 10 e.natAbs

/-- An input at which a number is over. -/
def Ends (input : Input) : Prop :=
  NoDigit input ∧ ∀ c rest, input = some c :: rest → c ≠ '.' ∧ c ≠ 'e' ∧ c ≠ 'E'

theorem ends_nil : Ends [] := ⟨rfl, fun _ _ h => nomatch h⟩

theorem ends_cons {c : Char} (hd : digit? c = none) (hc : c ≠ '.' ∧ c ≠ 'e' ∧ c ≠ 'E')
    (rest : Input) : Ends (some c :: rest) := by
  refine ⟨noDigit_cons hd rest, fun c' rest' h => ?_⟩
  obtain ⟨rfl, rfl⟩ : c = c' ∧ rest = rest' := by simpa using h
  exact hc

theorem exponentDigits?_of {negative : Bool} {ds : List (Fin 10)} {input digitsOn rest : Input}
    (hs : exponentSign input = (negative, digitsOn)) (hd : digits digitsOn = (ds, rest))
    (hne : ds ≠ []) :
    exponentDigits? input =
      some (some (if negative then -(value ds : Int) else value ds), rest) := by
  cases ds with
  | nil => exact absurd rfl hne
  | cons d ds => simp only [exponentDigits?, hs, hd]

/-- An exponent is read as the number it was printed from. -/
theorem exponent?_exponentChars (e : Option Int) {rest : Input} (h : Ends rest) :
    exponent? ((exponentChars e).map some ++ rest) = some (e, rest) := by
  cases e with
  | none =>
    show exponent? rest = _
    unfold exponent?
    split
    · exact absurd rfl (h.2 _ _ rfl).2.1
    · exact absurd rfl (h.2 _ _ rfl).2.2
    · rfl
  | some e =>
    have read := digits_append (digitsOf e.natAbs) h.1
    have hv := value_digitsOf e.natAbs
    rcases digitsOf_nonempty e.natAbs with ⟨d, ds, hd⟩
    by_cases he : e < 0
    · have hs : exponentSign (some '-' :: ((digitsOf e.natAbs).map digitChar).map some ++ rest) =
          (true, ((digitsOf e.natAbs).map digitChar).map some ++ rest) := rfl
      have hr := exponentDigits?_of hs read (by simp [hd])
      rw [hv] at hr
      have back : -(e.natAbs : Int) = e := by omega
      simp only [if_true, back] at hr
      simp only [exponentChars, he, if_true, ← map_digitChar_digitsOf]
      exact hr
    · have hs : exponentSign (((digitsOf e.natAbs).map digitChar).map some ++ rest) =
          (false, ((digitsOf e.natAbs).map digitChar).map some ++ rest) := by
        rw [hd]
        exact exponentSign_digit d _
      have hr := exponentDigits?_of hs read (by simp [hd])
      rw [hv] at hr
      have back : (e.natAbs : Int) = e := by omega
      simp only [Bool.false_eq_true, if_false, back] at hr
      simp only [exponentChars, he, if_false, ← map_digitChar_digitsOf]
      exact hr

/-- A fraction is read as the digits it was printed from. -/
theorem fraction?_fractionChars (fraction : List (Fin 10)) {rest : Input} (h : NoDigit rest)
    (hp : ∀ rest', rest ≠ some '.' :: rest') :
    fraction? ((fractionChars fraction).map some ++ rest) = some (fraction, rest) := by
  cases fraction with
  | nil =>
    show fraction? rest = _
    unfold fraction?
    split
    · exact absurd rfl (hp _)
    · rfl
  | cons d ds =>
    have read := digits_append (d :: ds) h
    show fraction? (some '.' :: (((d :: ds).map digitChar).map some ++ rest)) = _
    simp only [fraction?, read]

/-- The integer part is read as the number it was printed from. -/
theorem whole?_toDigits (n : Nat) {rest : Input} (h : NoDigit rest) :
    whole? ((Nat.toDigits 10 n).map some ++ rest) = some (n, rest) := by
  have read := digits_append (digitsOf n) h
  rw [← map_digitChar_digitsOf]
  rcases digitsOf_cases n with ⟨rfl, hd⟩ | ⟨d, ds, hz, hd⟩
  · rw [hd]
    rfl
  · have hv := value_digitsOf n
    rw [hd] at read hv ⊢
    unfold whole?
    split
    · -- the branch of a leading zero, which stands for zero alone
      next c rest' he =>
      have : digitChar d = '0' := by simpa using congrArg List.head? he
      exact absurd (digitChar_eq_zero this) hz
    · rw [read]
      simp only [hv]

/-- What follows the integer part goes on with no digit. -/
theorem noDigit_exponentChars (e : Option Int) {rest : Input} (h : Ends rest) :
    NoDigit ((exponentChars e).map some ++ rest) ∧
      ∀ rest', (exponentChars e).map some ++ rest ≠ some '.' :: rest' := by
  cases e with
  | none => exact ⟨h.1, fun rest' he => (h.2 '.' rest' he).1 rfl⟩
  | some e => exact ⟨noDigit_cons (by decide) _, fun rest' he => by simp [exponentChars] at he⟩

theorem noDigit_fractionChars (fraction : List (Fin 10)) {rest : Input} (h : NoDigit rest) :
    NoDigit ((fractionChars fraction).map some ++ rest) := by
  cases fraction with
  | nil => exact h
  | cons d ds => exact noDigit_cons (by decide) _

/-- The printed number after its sign. -/
def Number.unsignedChars (n : Number) : List Char :=
  Nat.toDigits 10 n.whole ++ (fractionChars n.fraction ++ exponentChars n.exponent)

theorem Number.chars_eq (n : Number) :
    n.chars = (if n.negative then ['-'] else []) ++ n.unsignedChars := by
  rcases n with ⟨negative, whole, fraction, _ | e⟩ <;>
    simp [Number.chars, Number.unsignedChars, fractionChars, exponentChars]

/-- After its sign, a number is read as it was printed. -/
theorem number?_unsignedChars (n : Number) {rest : Input} (h : Ends rest) :
    number? n.negative (n.unsignedChars.map some ++ rest) = some (.number n, rest) := by
  obtain ⟨hd, hp⟩ := noDigit_exponentChars n.exponent h
  have hw := whole?_toDigits n.whole (noDigit_fractionChars n.fraction hd)
  have hf := fraction?_fractionChars n.fraction hd hp
  have he := exponent?_exponentChars n.exponent h
  simp only [Number.unsignedChars, List.map_append, List.append_assoc]
  simp only [number?, hw, hf, he]

/-- What starts with a digit is a number. -/
theorem lexeme?_digit (d : Fin 10) (rest : Input) :
    lexeme? (some (digitChar d) :: rest) = number? false (some (digitChar d) :: rest) := by
  have marks : digitChar d ∉ ['[', ']', '{', '}', ',', ':', 'n', 't', 'f', '"', '-'] := by
    revert d; decide
  unfold lexeme?
  split <;> simp_all

/-- A number's literal is read as the number. -/
theorem lexeme?_chars (n : Number) {rest : Input} (h : Ends rest) :
    lexeme? (n.chars.map some ++ rest) = some (.number n, rest) := by
  have read := number?_unsignedChars n h
  rw [Number.chars_eq]
  cases hn : n.negative with
  | true =>
    rw [hn] at read
    exact read
  | false =>
    obtain ⟨d, ds, hd⟩ := digitsOf_nonempty n.whole
    rw [hn, Number.unsignedChars, ← map_digitChar_digitsOf, hd] at read
    rw [Number.unsignedChars, ← map_digitChar_digitsOf, hd]
    exact (lexeme?_digit d _).trans read

/-! ## Values -/

mutual

/-- The lexemes of a value's text. -/
def lexemes : Json → List Lexeme
  | .null => [.null]
  | .bool b => [.bool b]
  | .number n => [.number n]
  | .string s => [.string (some s)]
  | .unreadable => [.null]
  | .array [] => [.openArray, .closeArray]
  | .array (v :: vs) => .openArray :: (lexemes v ++ laterItems vs)
  | .object [] => [.openObject, .closeObject]
  | .object ((n, v) :: ms) =>
    .openObject :: .string (some n) :: .colon :: (lexemes v ++ laterMembers ms)

/-- The lexemes of an array from the end of an item on. -/
def laterItems : List Json → List Lexeme
  | [] => [.closeArray]
  | v :: vs => .comma :: (lexemes v ++ laterItems vs)

/-- The lexemes of an object from the end of a member on. -/
def laterMembers : List (String × Json) → List Lexeme
  | [] => [.closeObject]
  | (n, v) :: ms => .comma :: .string (some n) :: .colon :: (lexemes v ++ laterMembers ms)

end

/-- The printed form of what follows an item of an array. -/
def laterItemChars (vs : List Json) : List Char :=
  (compactItems vs).flatMap (',' :: ·) ++ [']']

/-- The printed form of what follows a member of an object. -/
def laterMemberChars (ms : List (String × Json)) : List Char :=
  (compactMembers ms).flatMap (',' :: ·) ++ ['}']

theorem separated_cons (separator x : List Char) (xs : List (List Char)) :
    separated separator (x :: xs) = x ++ xs.flatMap (separator ++ ·) := by
  induction xs generalizing x with
  | nil => simp [separated]
  | cons y ys ih =>
    rw [separated, ih]
    · simp
    · simp

/-- A lexeme at the front of the input is found. -/
theorem lexemesFrom_of_lexeme? {c : Char} {input rest : Input} {l : Lexeme} (found : List Lexeme)
    (hb : isJsonBlank c = false) (h : lexeme? (some c :: input) = some (l, rest)) :
    lexemesFrom found (some c :: input) = lexemesFrom (l :: found) rest := by
  rw [lexemesFrom, hb]
  simp only [Bool.false_eq_true, if_false]
  split
  · next l' rest' h' =>
    obtain ⟨rfl, rfl⟩ := Prod.mk.inj (Option.some.inj (h.symm.trans h'))
    rfl
  · next h' => cases h.symm.trans h'

theorem lexemesFrom_quoted (found : List Lexeme) (s : String) (rest : Input) :
    lexemesFrom found ((quoted s).map some ++ rest) =
      lexemesFrom (.string (some s) :: found) rest :=
  lexemesFrom_of_lexeme? found (by decide) (lexeme?_quoted s rest)

theorem lexemesFrom_chars (found : List Lexeme) (n : Number) {rest : Input} (h : Ends rest) :
    lexemesFrom found (n.chars.map some ++ rest) = lexemesFrom (.number n :: found) rest := by
  -- a literal starts with its sign or a digit, neither of which is a blank
  have front : ∃ c cs, n.chars = c :: cs ∧ isJsonBlank c = false := by
    rw [Number.chars_eq, Number.unsignedChars, ← map_digitChar_digitsOf]
    obtain ⟨d, ds, hd⟩ := digitsOf_nonempty n.whole
    rw [hd]
    cases n.negative with
    | true => exact ⟨'-', _, rfl, by decide⟩
    | false => exact ⟨digitChar d, _, rfl, isJsonBlank_digitChar d⟩
  have read := lexeme?_chars n h
  obtain ⟨c, cs, hc, hb⟩ := front
  rw [hc] at read ⊢
  exact lexemesFrom_of_lexeme? found hb read

/-- What follows an item starts with a mark. -/
theorem ends_laterItemChars (vs : List Json) (rest : Input) :
    Ends ((laterItemChars vs).map some ++ rest) := by
  cases vs with
  | nil => exact ends_cons (by decide) (by decide) _
  | cons v vs => exact ends_cons (by decide) (by decide) _

theorem ends_laterMemberChars (ms : List (String × Json)) (rest : Input) :
    Ends ((laterMemberChars ms).map some ++ rest) := by
  rcases ms with _ | ⟨⟨n, v⟩, ms⟩
  · exact ends_cons (by decide) (by decide) _
  · exact ends_cons (by decide) (by decide) _

theorem compactChars_array (v : Json) (vs : List Json) :
    compactChars (.array (v :: vs)) = '[' :: (compactChars v ++ laterItemChars vs) := by
  rw [compactChars, compactItems, separated_cons, laterItemChars, List.append_assoc]
  rfl

theorem compactChars_object (n : String) (v : Json) (ms : List (String × Json)) :
    compactChars (.object ((n, v) :: ms)) =
      '{' :: (quoted n ++ ':' :: (compactChars v ++ laterMemberChars ms)) := by
  rw [compactChars, compactMembers, separated_cons, laterMemberChars]
  simp

mutual

/-- **A value's text is cut into the value's lexemes.** -/
theorem lexemesFrom_compactChars (found : List Lexeme) {rest : Input} (h : Ends rest) :
    ∀ v : Json, lexemesFrom found ((compactChars v).map some ++ rest) =
      lexemesFrom ((lexemes v).reverse ++ found) rest
  | .null => by
    rw [compactChars]
    exact lexemesFrom_of_lexeme? found (by decide) rfl
  | .bool true => by
    rw [compactChars]
    exact lexemesFrom_of_lexeme? found (by decide) rfl
  | .bool false => by
    rw [compactChars]
    exact lexemesFrom_of_lexeme? found (by decide) rfl
  | .number n => by
    rw [compactChars, lexemes]
    exact lexemesFrom_chars found n h
  | .string s => by
    rw [compactChars, lexemes]
    exact lexemesFrom_quoted found s rest
  -- what is no text has no text of its own: null is printed in its place
  | .unreadable => by
    rw [compactChars]
    exact lexemesFrom_of_lexeme? found (by decide) rfl
  | .array [] => by
    show lexemesFrom found (some '[' :: some ']' :: rest) = _
    rw [lexemesFrom_of_lexeme? (l := .openArray) _ (by decide) rfl,
      lexemesFrom_of_lexeme? (l := .closeArray) _ (by decide) rfl]
    rfl
  | .array (v :: vs) => by
    rw [compactChars_array, lexemes, List.map_cons, List.cons_append, List.map_append,
      List.append_assoc, lexemesFrom_of_lexeme? (l := .openArray) _ (by decide) rfl,
      lexemesFrom_compactChars _ (ends_laterItemChars vs rest) v, lexemesFrom_laterItems _ rest vs]
    simp
  | .object [] => by
    show lexemesFrom found (some '{' :: some '}' :: rest) = _
    rw [lexemesFrom_of_lexeme? (l := .openObject) _ (by decide) rfl,
      lexemesFrom_of_lexeme? (l := .closeObject) _ (by decide) rfl]
    rfl
  | .object ((n, v) :: ms) => by
    rw [compactChars_object, lexemes, List.map_cons, List.cons_append, List.map_append,
      List.append_assoc, List.map_cons, List.cons_append, List.map_append, List.append_assoc,
      lexemesFrom_of_lexeme? (l := .openObject) _ (by decide) rfl, lexemesFrom_quoted,
      lexemesFrom_of_lexeme? (l := .colon) _ (by decide) rfl,
      lexemesFrom_compactChars _ (ends_laterMemberChars ms rest) v,
      lexemesFrom_laterMembers _ rest ms]
    simp

theorem lexemesFrom_laterItems (found : List Lexeme) (rest : Input) :
    ∀ vs : List Json, lexemesFrom found ((laterItemChars vs).map some ++ rest) =
      lexemesFrom ((laterItems vs).reverse ++ found) rest
  | [] => lexemesFrom_of_lexeme? found (by decide) rfl
  | v :: vs => by
    have chars : laterItemChars (v :: vs) = ',' :: (compactChars v ++ laterItemChars vs) := by
      simp [laterItemChars, compactItems]
    rw [chars, laterItems, List.map_cons, List.cons_append, List.map_append, List.append_assoc,
      lexemesFrom_of_lexeme? (l := .comma) _ (by decide) rfl,
      lexemesFrom_compactChars _ (ends_laterItemChars vs rest) v, lexemesFrom_laterItems _ rest vs]
    simp

theorem lexemesFrom_laterMembers (found : List Lexeme) (rest : Input) :
    ∀ ms : List (String × Json), lexemesFrom found ((laterMemberChars ms).map some ++ rest) =
      lexemesFrom ((laterMembers ms).reverse ++ found) rest
  | [] => lexemesFrom_of_lexeme? found (by decide) rfl
  | (n, v) :: ms => by
    have chars : laterMemberChars ((n, v) :: ms) =
        ',' :: (quoted n ++ ':' :: (compactChars v ++ laterMemberChars ms)) := by
      simp [laterMemberChars, compactMembers]
    rw [chars, laterMembers, List.map_cons, List.cons_append, List.map_append, List.append_assoc,
      List.map_cons, List.cons_append, List.map_append, List.append_assoc,
      lexemesFrom_of_lexeme? (l := .comma) _ (by decide) rfl, lexemesFrom_quoted,
      lexemesFrom_of_lexeme? (l := .colon) _ (by decide) rfl,
      lexemesFrom_compactChars _ (ends_laterMemberChars ms rest) v,
      lexemesFrom_laterMembers _ rest ms]
    simp

end

/-- **The text of a value has the value's lexemes.** -/
theorem lexemes?_compact (v : Json) :
    lexemes? (Text.readings (Text.encode v.compact)) = some (lexemes v) := by
  have cut := lexemesFrom_compactChars [] ends_nil v
  rw [Text.readings_encode, compact, String.toList_ofList, lexemes?]
  rw [List.append_nil, List.append_nil] at cut
  rw [cut, lexemesFrom, List.reverse_reverse]

end ShortLink.Json
