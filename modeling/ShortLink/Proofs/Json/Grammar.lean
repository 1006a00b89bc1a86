/-
  JSON text by its grammar.

  `Writes text v` says that a text is a form of a value: with any blanks between its parts, with any
  escapes in its strings, with its numbers in any notation, and with whatever depth.  `ofBytes?_text`
  says that every form of a value is read as the value, and `ofBytes?_text_junk` that nothing is read
  from a text after which something else stands than blanks.

  1. Strings: the glyphs of a literal are its pieces (`pieces_glyphs`), and the text that they mean is
     the text of the pieces, if they mean one (`textOf_glyphs`).

  2. Numbers: the parts of a literal are read one after the other (`lexeme?_number`).

  3. Values: lexing and the machine are taken together, as the state after an input (`State.read`).
     Each rule of the grammar is a few steps of it, and `Writes.read` is by induction on the rules.
-/
import ShortLink.Proofs.Json.Lines

namespace ShortLink.Json

/-! ## The grammar -/

/-- Blanks, which may stand before and after each part of a text. -/
structure Blanks where
  chars : List Char
  all : chars.all isJsonBlank = true

/-- A character that may stand in a string without a backslash. -/
def isOrdinary (c : Char) : Bool := c != '"' && c != '\\' && !decide (c < ' ')

/-- A part of a string literal. -/
inductive Glyph where
  /-- A character that stands for itself. -/
  | plain (c : Char) (ordinary : isOrdinary c = true)
  /-- A backslash and a letter. -/
  | simple (letter c : Char) (known : simpleEscape? letter = some c)
  /-- A UTF-16 unit by its number. -/
  | unit (a b c d : Char) (u : Nat) (number : unit? a b c d = some u)

def Glyph.chars : Glyph → List Char
  | plain c _ => [c]
  | simple letter _ _ => ['\\', letter]
  | unit a b c d _ _ => ['\\', 'u', a, b, c, d]

/-- A string literal. -/
def literal (gs : List Glyph) : List Char := '"' :: (gs.flatMap Glyph.chars ++ ['"'])

/-- The text that a string literal means. A surrogate means nothing without its other half. -/
inductive Means : List Glyph → List Char → Prop
  | nil : Means [] []
  | plain {c : Char} {gs : List Glyph} {t : List Char} (h : isOrdinary c = true) :
    Means gs t → Means (.plain c h :: gs) (c :: t)
  | simple {letter c : Char} {gs : List Glyph} {t : List Char} (h : simpleEscape? letter = some c) :
    Means gs t → Means (.simple letter c h :: gs) (c :: t)
  | unit {a b c d : Char} {u : Nat} {gs : List Glyph} {t : List Char}
    (h : unit? a b c d = some u) : isHigh u = false → isLow u = false → Means gs t →
    Means (.unit a b c d u h :: gs) (Char.ofNat u :: t)
  | pair {a b c d a' b' c' d' : Char} {u v : Nat} {gs : List Glyph} {t : List Char}
    (h : unit? a b c d = some u) (h' : unit? a' b' c' d' = some v) : isHigh u = true →
    isLow v = true → Means gs t →
    Means (.unit a b c d u h :: .unit a' b' c' d' v h' :: gs) (Json.pair u v :: t)

/-- The glyphs of a text that needs no escapes. -/
def plainGlyphs (s : String) (h : s.toList.all isOrdinary = true) : List Glyph :=
  s.toList.pmap Glyph.plain (List.all_eq_true.mp h)

/-- What a string literal denotes: a text, if it means one. -/
inductive Denotes (gs : List Glyph) : Option String → Prop
  | text {t : List Char} : Means gs t → Denotes gs (some (String.ofList t))
  | none : (∀ t, ¬ Means gs t) → Denotes gs none

/-- The forms of an exponent. -/
inductive WritesExponent : List Char → Option Int → Prop
  | none : WritesExponent [] none
  | plain {mark : Char} {ds : List (Fin 10)} : mark ∈ ['e', 'E'] → ds ≠ [] →
    WritesExponent (mark :: ds.map digitChar) (some (value ds))
  | plus {mark : Char} {ds : List (Fin 10)} : mark ∈ ['e', 'E'] → ds ≠ [] →
    WritesExponent (mark :: '+' :: ds.map digitChar) (some (value ds))
  | minus {mark : Char} {ds : List (Fin 10)} : mark ∈ ['e', 'E'] → ds ≠ [] →
    WritesExponent (mark :: '-' :: ds.map digitChar) (some (-(value ds : Int)))

/-- The forms of a number. -/
inductive WritesNumber : List Char → Number → Prop
  | intro (negative : Bool) (whole : Nat) (fraction : List (Fin 10)) {cs : List Char}
    {exponent : Option Int} : WritesExponent cs exponent →
    WritesNumber
      ((if negative then ['-'] else []) ++ (Nat.toDigits 10 whole ++ (fractionChars fraction ++ cs)))
      ⟨negative, whole, fraction, exponent⟩

/-- An item of an array. -/
structure Item where
  before : Blanks
  text : List Char
  value : Json
  after : Blanks

def Item.chars (i : Item) : List Char := i.before.chars ++ (i.text ++ i.after.chars)

/-- A member of an object; a name that means no text is `none`. -/
structure Member where
  before : Blanks
  glyphs : List Glyph
  name : Option String
  after : Blanks
  item : Item

def Member.chars (m : Member) : List Char :=
  m.before.chars ++ (literal m.glyphs ++ (m.after.chars ++ ':' :: m.item.chars))

/-- What a member says. -/
def Member.entry (m : Member) : Option String × Json := (m.name, m.item.value)

/-- The rest of an array. -/
def itemsText : List Item → List Char
  | [] => [']']
  | i :: is => ',' :: (i.chars ++ itemsText is)

/-- The rest of an object. -/
def membersText : List Member → List Char
  | [] => ['}']
  | m :: ms => ',' :: (m.chars ++ membersText ms)

/-- The value of a string literal. -/
def ofDenoted : Option String → Json
  | some s => .string s
  | none => .unreadable

/-- The forms of a value. -/
inductive Writes : List Char → Json → Prop
  | null : Writes "null".toList .null
  | true : Writes "true".toList (.bool true)
  | false : Writes "false".toList (.bool false)
  | number {cs : List Char} {n : Number} : WritesNumber cs n → Writes cs (.number n)
  | string {gs : List Glyph} {s? : Option String} : Denotes gs s? →
    Writes (literal gs) (ofDenoted s?)
  | emptyArray (b : Blanks) : Writes ('[' :: (b.chars ++ [']'])) (.array [])
  | array {i : Item} {is : List Item} : (∀ j ∈ i :: is, Writes j.text j.value) →
    Writes ('[' :: (i.chars ++ itemsText is)) (.array ((i :: is).map Item.value))
  | emptyObject (b : Blanks) : Writes ('{' :: (b.chars ++ ['}'])) (.object [])
  | object {m : Member} {ms : List Member} {members : List (String × Json)} :
    (∀ n ∈ m :: ms, Denotes n.glyphs n.name) →
    (∀ n ∈ m :: ms, Writes n.item.text n.item.value) → (m :: ms).map Member.entry = named members →
    Writes ('{' :: (m.chars ++ membersText ms)) (.object members)
  /-- An object with a name that means no text. -/
  | nameless {m : Member} {ms : List Member} : (∀ n ∈ m :: ms, Denotes n.glyphs n.name) →
    (∀ n ∈ m :: ms, Writes n.item.text n.item.value) → (∃ n ∈ m :: ms, n.name = none) →
    Writes ('{' :: (m.chars ++ membersText ms)) .unreadable

/-! ## Strings -/

/-- What is read of a part of a string literal. -/
def Glyph.piece : Glyph → Piece
  | plain c _ => .char c
  | simple _ c _ => .char c
  | unit _ _ _ _ u _ => .unit u

theorem pieces_glyph (found : List Piece) (g : Glyph) (rest : Input) :
    pieces found (g.chars.map some ++ rest) = pieces (g.piece :: found) rest := by
  cases g with
  | plain c h =>
    simp only [isOrdinary, Bool.and_eq_true, bne_iff_ne, Bool.not_eq_true',
      decide_eq_false_iff_not] at h
    exact pieces_char found h.1.1 h.1.2 h.2 rest
  | simple letter c h =>
    -- one case for each letter
    unfold simpleEscape? at h
    split at h <;> cases h <;> rfl
  | unit a b c d u h =>
    show pieces found (some '\\' :: some 'u' :: some a :: some b :: some c :: some d :: rest) = _
    simp only [pieces, h]
    rfl

theorem pieces_glyphs (found : List Piece) (gs : List Glyph) (rest : Input) :
    pieces found ((gs.flatMap Glyph.chars).map some ++ some '"' :: rest) =
      some (found.reverse ++ gs.map Glyph.piece, rest) := by
  induction gs generalizing found with
  | nil => simp [pieces]
  | cons g gs ih =>
    rw [List.flatMap_cons, List.map_append, List.append_assoc, pieces_glyph, ih]
    simp

theorem textOf_char (found : List Char) (c : Char) (ps : List Piece) :
    textOf found (.char c :: ps) = textOf (c :: found) ps := by
  rw [textOf]

theorem textOf_pair (found : List Char) {u v : Nat} (hu : isHigh u = true) (hv : isLow v = true)
    (ps : List Piece) :
    textOf found (.unit u :: .unit v :: ps) = textOf (pair u v :: found) ps := by
  rw [textOf, if_pos hu, if_pos hv]

/-- Half of a surrogate pair has no text. -/
theorem textOf_lone (found : List Char) {u : Nat} (hh : isHigh u = false) (hl : isLow u = true)
    (ps : List Piece) : textOf found (.unit u :: ps) = none := by
  cases ps with
  | nil => simp [textOf, hl]
  | cons p ps => cases p <;> simp [textOf, hh, hl]

theorem textOf_of_means {gs : List Glyph} {t : List Char} (h : Means gs t) (found : List Char) :
    textOf found (gs.map Glyph.piece) = some (found.reverse ++ t) := by
  induction h generalizing found with
  | nil => simp [textOf]
  | plain _ _ ih =>
    rw [List.map_cons, Glyph.piece, textOf_char, ih]
    simp
  | simple _ _ ih =>
    rw [List.map_cons, Glyph.piece, textOf_char, ih]
    simp
  | unit _ hh hl _ ih =>
    rw [List.map_cons, Glyph.piece, textOf_unit found hh hl, ih]
    simp
  | pair _ _ hh hl _ ih =>
    rw [List.map_cons, List.map_cons, Glyph.piece, Glyph.piece, textOf_pair found hh hl, ih]
    simp

/-- A text that is read is meant. The recursion takes two glyphs at a time for a surrogate. -/
theorem exists_of_textOf {t : List Char} :
    ∀ (gs : List Glyph) {found : List Char}, textOf found (gs.map Glyph.piece) = some t →
      ∃ more, Means gs more
  | [], _, _ => ⟨[], .nil⟩
  | .plain c h :: gs, found, ht => by
    rw [List.map_cons, Glyph.piece, textOf_char] at ht
    obtain ⟨more, hm⟩ := exists_of_textOf gs ht
    exact ⟨c :: more, .plain h hm⟩
  | .simple letter c h :: gs, found, ht => by
    rw [List.map_cons, Glyph.piece, textOf_char] at ht
    obtain ⟨more, hm⟩ := exists_of_textOf gs ht
    exact ⟨c :: more, .simple h hm⟩
  | .unit a b c d u h :: gs, found, ht => by
    rw [List.map_cons, Glyph.piece] at ht
    cases hh : isHigh u with
    | false =>
      cases hl : isLow u with
      | false =>
        rw [textOf_unit found hh hl] at ht
        obtain ⟨more, hm⟩ := exists_of_textOf gs ht
        exact ⟨Char.ofNat u :: more, .unit h hh hl hm⟩
      | true =>
        rw [textOf_lone found hh hl] at ht
        cases ht
    | true =>
      -- the other half must come next
      match gs with
      | .unit a' b' c' d' v h' :: gs =>
        cases hl : isLow v with
        | true =>
          rw [List.map_cons, Glyph.piece, textOf_pair found hh hl] at ht
          obtain ⟨more, hm⟩ := exists_of_textOf gs ht
          exact ⟨pair u v :: more, .pair h h' hh hl hm⟩
        | false => simp [Glyph.piece, textOf, hh, hl] at ht
      | [] => simp [textOf, hh] at ht
      | .plain .. :: gs => simp [Glyph.piece, textOf, hh] at ht
      | .simple .. :: gs => simp [Glyph.piece, textOf, hh] at ht

/-- **The text of the pieces is what the literal denotes.** -/
theorem Denotes.textOf_eq {gs : List Glyph} {s? : Option String} (h : Denotes gs s?) :
    (textOf [] (gs.map Glyph.piece)).map String.ofList = s? := by
  cases h with
  | text hm => rw [textOf_of_means hm, List.reverse_nil, List.nil_append, Option.map_some]
  | none unmeant =>
    cases ht : textOf [] (gs.map Glyph.piece) with
    | none => rfl
    | some t =>
      obtain ⟨more, hm⟩ := exists_of_textOf gs ht
      exact absurd hm (unmeant more)

/-- A string literal is read as what it denotes. -/
theorem Denotes.lexeme? {gs : List Glyph} {s? : Option String} (h : Denotes gs s?) (rest : Input) :
    lexeme? ((literal gs).map some ++ rest) = some (.string s?, rest) := by
  have body := pieces_glyphs [] gs rest
  show string? ((gs.flatMap Glyph.chars ++ ['"']).map some ++ rest) = _
  rw [List.map_append, List.append_assoc]
  show (pieces [] ((gs.flatMap Glyph.chars).map some ++ some '"' :: rest)).map _ = _
  rw [body]
  simp only [Option.map_some, List.reverse_nil, List.nil_append, h.textOf_eq]

/-- A text that needs no escapes is denoted as it is. -/
theorem denotes_plainGlyphs (s : String) (h : s.toList.all isOrdinary = true) :
    Denotes (plainGlyphs s h) (some s) := by
  have means (cs : List Char) (h : ∀ c ∈ cs, isOrdinary c = true) :
      Means (cs.pmap Glyph.plain h) cs := by
    induction cs with
    | nil => exact .nil
    | cons c cs ih =>
      exact .plain (h c List.mem_cons_self) (ih fun d hd => h d (List.mem_cons_of_mem c hd))
  have text := Denotes.text (means s.toList (List.all_eq_true.mp h))
  rwa [String.ofList_toList] at text

/-! ## Numbers -/

/-- An exponent is read in each of its forms. -/
theorem WritesExponent.exponent? {cs : List Char} {e : Option Int} (h : WritesExponent cs e)
    {rest : Input} (hr : Ends rest) : exponent? (cs.map some ++ rest) = some (e, rest) := by
  have marked {mark : Char} (hm : mark ∈ ['e', 'E']) (input : Input) :
      Json.exponent? (some mark :: input) = exponentDigits? input := by
    simp only [List.mem_cons, List.not_mem_nil, or_false] at hm
    rcases hm with rfl | rfl <;> rfl
  cases h with
  | none => exact exponent?_exponentChars Option.none hr
  | @plain mark ds hm hne =>
    have read := digits_append ds hr.1
    have sign : exponentSign ((ds.map digitChar).map some ++ rest) =
        (false, (ds.map digitChar).map some ++ rest) := by
      cases ds with
      | nil => exact absurd rfl hne
      | cons d ds => exact exponentSign_digit d _
    exact (marked hm _).trans (exponentDigits?_of sign read hne)
  | @plus mark ds hm hne =>
    exact (marked hm _).trans (exponentDigits?_of rfl (digits_append ds hr.1) hne)
  | @minus mark ds hm hne =>
    exact (marked hm _).trans (exponentDigits?_of rfl (digits_append ds hr.1) hne)

/-- What follows the digits before an exponent goes on with no digit and no point. -/
theorem WritesExponent.noDigit {cs : List Char} {e : Option Int} (h : WritesExponent cs e)
    {rest : Input} (hr : Ends rest) :
    NoDigit (cs.map some ++ rest) ∧ ∀ rest', cs.map some ++ rest ≠ some '.' :: rest' := by
  have marked {mark : Char} (hm : mark ∈ ['e', 'E']) (input : Input) :
      NoDigit (some mark :: input) ∧ ∀ rest', some mark :: input ≠ some '.' :: rest' := by
    simp only [List.mem_cons, List.not_mem_nil, or_false] at hm
    rcases hm with rfl | rfl
    · exact ⟨noDigit_cons (by decide) _, by simp⟩
    · exact ⟨noDigit_cons (by decide) _, by simp⟩
  cases h with
  | none => exact noDigit_exponentChars Option.none hr
  | plain hm _ => exact marked hm _
  | plus hm _ => exact marked hm _
  | minus hm _ => exact marked hm _

/-- A number starts with its sign or a digit. -/
theorem WritesNumber.exists_cons {cs : List Char} {n : Number} (h : WritesNumber cs n) :
    ∃ c front, cs = c :: front ∧ isJsonBlank c = false := by
  cases h with
  | @intro negative whole fraction cs e he =>
    obtain ⟨d, ds, hd⟩ := digitsOf_nonempty whole
    rw [← map_digitChar_digitsOf, hd]
    cases negative with
    | true => exact ⟨'-', _, rfl, by decide⟩
    | false => exact ⟨digitChar d, _, rfl, isJsonBlank_digitChar d⟩

/-- **A number is read in each of its forms**, if it ends where its text does. -/
theorem WritesNumber.lexeme? {cs : List Char} {n : Number} (h : WritesNumber cs n) {rest : Input}
    (hr : Ends rest) : lexeme? (cs.map some ++ rest) = some (.number n, rest) := by
  cases h with
  | @intro negative whole fraction cs e he =>
    obtain ⟨hd, hp⟩ := he.noDigit hr
    have hw := whole?_toDigits whole (noDigit_fractionChars fraction hd)
    have hf := fraction?_fractionChars fraction hd hp
    have read : number? negative
        ((Nat.toDigits 10 whole ++ (fractionChars fraction ++ cs)).map some ++ rest) =
          some (.number ⟨negative, whole, fraction, e⟩, rest) := by
      simp only [List.map_append, List.append_assoc]
      simp only [number?, hw, hf, he.exponent? hr]
    cases negative with
    | true => exact read
    | false =>
      obtain ⟨d, ds, hds⟩ := digitsOf_nonempty whole
      rw [← map_digitChar_digitsOf, hds] at read ⊢
      exact (lexeme?_digit d _).trans read

/-! ## Lexing and the machine together -/

/-- What was found before an input comes before what is found in it. -/
theorem lexemesFrom_eq (found : List Lexeme) (input : Input) :
    lexemesFrom found input = (lexemes? input).map (found.reverse ++ ·) := by
  rw [lexemes?]
  induction hn : input.length using Nat.strongRecOn generalizing found input with
  | ind n ih =>
    rcases input with _ | ⟨_ | c, rest⟩
    · simp [lexemesFrom]
    · simp [lexemesFrom]
    · cases hb : isJsonBlank c with
      | true =>
        rw [lexemesFrom_blank found hb, lexemesFrom_blank [] hb]
        exact ih rest.length (by simp [← hn]) found rest rfl
      | false =>
        cases hl : lexeme? (some c :: rest) with
        | none =>
          have stuck (found : List Lexeme) : lexemesFrom found (some c :: rest) = Option.none := by
            rw [lexemesFrom, hb]
            simp only [Bool.false_eq_true, if_false]
            split
            · next h' => cases hl.symm.trans h'
            · rfl
          rw [stuck, stuck]
          rfl
        | some next =>
          have shorter : next.2.length < n := hn ▸ length_of_lexeme? hl
          rw [lexemesFrom_of_lexeme? found hb hl, lexemesFrom_of_lexeme? [] hb hl,
            ih _ shorter (next.1 :: found) next.2 rfl, ih _ shorter [next.1] next.2 rfl,
            Option.map_map]
          refine congrArg (fun f => Option.map f (lexemesFrom [] next.2)) (funext fun ls => ?_)
          simp

namespace State

/-- The state after an input. -/
def read (s : State) (input : Input) : Option State := (lexemes? input).bind s.run

theorem read_nil (s : State) : s.read [] = some s := by
  rw [read, lexemes?, lexemesFrom]
  rfl

theorem read_blank (s : State) {c : Char} (h : isJsonBlank c = true) (rest : Input) :
    s.read (some c :: rest) = s.read rest := by
  rw [read, lexemes?, lexemesFrom_blank [] h]
  rfl

/-- Blanks are skipped. -/
theorem read_blanks (s : State) (b : Blanks) (rest : Input) :
    s.read (b.chars.map some ++ rest) = s.read rest := by
  obtain ⟨cs, all⟩ := b
  induction cs with
  | nil => rfl
  | cons c cs ih =>
    obtain ⟨blank, blanks⟩ : isJsonBlank c = true ∧ cs.all isJsonBlank = true := by
      simpa using all
    rw [List.map_cons, List.cons_append, read_blank s blank]
    exact ih blanks

/-- A lexeme at the front of an input is a step of the machine. -/
theorem read_of_lexeme? (s : State) {c : Char} {input rest : Input} {l : Lexeme}
    (hb : isJsonBlank c = false) (h : lexeme? (some c :: input) = some (l, rest)) :
    s.read (some c :: input) = (s.step l).bind (·.read rest) := by
  rw [read, lexemes?, lexemesFrom_of_lexeme? [] hb h, lexemesFrom_eq, Option.bind_map]
  cases hs : s.step l with
  | none =>
    cases lexemes? rest with
    | none => rfl
    | some ls =>
      show s.run (l :: ls) = none
      rw [run_cons, hs]
      rfl
  | some t =>
    refine congrArg (fun f => Option.bind (lexemes? rest) f) (funext fun ls => ?_)
    exact run_of_step hs ls

/-- A mark is a step of the machine. -/
theorem read_mark {s t : State} {c : Char} {l : Lexeme}
    (hb : isJsonBlank c = false) (h : ∀ rest, lexeme? (some c :: rest) = some (l, rest))
    (hs : s.step l = some t) (rest : Input) : s.read (some c :: rest) = t.read rest := by
  rw [read_of_lexeme? s hb (h rest), hs, Option.bind_some]

/-- Where a value may start. -/
def Awaits (s : State) (stack : List Frame) : Prop :=
  ∀ l, l ≠ .closeArray → s.step l = State.begin stack l

end State

/-! ## Values -/

/-- A text is read as a value wherever a value may start; only a number must end there. -/
def Reads (cs : List Char) (v : Json) : Prop :=
  ∀ {s : State} {stack : List Frame}, s.Awaits stack → ∀ {rest : Input},
    ((∃ n, v = .number n) → Ends rest) →
      s.read (cs.map some ++ rest) = (State.complete v stack).read rest

theorem isJsonBlank_iff {c : Char} :
    isJsonBlank c = true ↔ c = ' ' ∨ c = '\t' ∨ c = '\n' ∨ c = '\r' := by
  simp [isJsonBlank, or_assoc]

theorem toNat_lt_of_isJsonBlank (c : Char) (h : isJsonBlank c = true) : c.toNat < 128 := by
  rcases isJsonBlank_iff.mp h with rfl | rfl | rfl | rfl <;> decide

/-- A number is over where blanks follow on it, or a mark after them. -/
theorem ends_blanks (b : Blanks) {rest : Input} (h : Ends rest) :
    Ends (b.chars.map some ++ rest) := by
  obtain ⟨cs, all⟩ := b
  cases cs with
  | nil => exact h
  | cons c cs =>
    have blank : isJsonBlank c = true := List.all_eq_true.mp all c List.mem_cons_self
    rcases isJsonBlank_iff.mp blank with rfl | rfl | rfl | rfl <;>
      exact ends_cons (by decide) (by decide) _

/-- An item is read between its blanks. -/
theorem Item.read {i : Item} (h : Reads i.text i.value) {s : State} {stack : List Frame}
    (hs : s.Awaits stack) {rest : Input} (hr : Ends rest) :
    s.read (i.chars.map some ++ rest) = (State.complete i.value stack).read rest := by
  simp only [Item.chars, List.map_append, List.append_assoc]
  rw [State.read_blanks, h hs fun _ => ends_blanks i.after hr, State.read_blanks]

/-- A literal is a step of the machine. -/
theorem Denotes.read {gs : List Glyph} {s? : Option String} (h : Denotes gs s?) {s t : State}
    (hs : s.step (.string s?) = some t) (rest : Input) :
    s.read ((literal gs).map some ++ rest) = t.read rest := by
  have step := State.read_of_lexeme? s (by decide) (h.lexeme? rest)
  rw [hs, Option.bind_some] at step
  exact step

/-- A member is read where its name may stand. -/
theorem Member.read {m : Member} (hn : Denotes m.glyphs m.name)
    (hv : Reads m.item.text m.item.value) {s : State} {stack : List Frame}
    {done : List (Option String × Json)}
    (hs : s.step (.string m.name) = some (.colon done m.name stack)) {rest : Input}
    (hr : Ends rest) :
    s.read (m.chars.map some ++ rest) =
      (State.complete m.item.value (.member done m.name :: stack)).read rest := by
  simp only [Member.chars, List.map_append, List.map_cons, List.append_assoc, List.cons_append]
  rw [State.read_blanks, hn.read hs, State.read_blanks,
    State.read_mark (l := .colon) (by decide) (fun _ => rfl) rfl]
  exact Item.read hv (fun _ _ => rfl) hr

theorem ends_itemsText (is : List Item) (rest : Input) :
    Ends ((itemsText is).map some ++ rest) := by
  cases is with
  | nil => exact ends_cons (by decide) (by decide) _
  | cons i is => exact ends_cons (by decide) (by decide) _

theorem ends_membersText (ms : List Member) (rest : Input) :
    Ends ((membersText ms).map some ++ rest) := by
  cases ms with
  | nil => exact ends_cons (by decide) (by decide) _
  | cons m ms => exact ends_cons (by decide) (by decide) _

/-- After an item, the rest of an array is read as the array. -/
theorem read_itemsText (stack : List Frame) (rest : Input) (is : List Item)
    (h : ∀ i ∈ is, Reads i.text i.value) (done : List Json) (v : Json) :
    (State.complete v (.items done :: stack)).read ((itemsText is).map some ++ rest) =
      (State.complete (.array (done.reverse ++ v :: is.map Item.value)) stack).read rest := by
  induction is generalizing done v with
  | nil =>
    show State.read _ (some ']' :: rest) = _
    rw [State.read_mark (l := .closeArray) (by decide) (fun _ => rfl) rfl, List.reverse_cons]
    rfl
  | cons i is ih =>
    have here : Reads i.text i.value := h i List.mem_cons_self
    have later := ih (fun j hj => h j (List.mem_cons_of_mem i hj)) (v :: done) i.value
    rw [itemsText, List.map_cons, List.cons_append, List.map_append, List.append_assoc,
      State.read_mark (l := .comma) (by decide) (fun _ => rfl) rfl,
      Item.read here (fun _ _ => rfl) (ends_itemsText is rest), later]
    simp

/-- After a member, the rest of an object is read as the object. -/
theorem read_membersText (stack : List Frame) (rest : Input) (ms : List Member)
    (hn : ∀ m ∈ ms, Denotes m.glyphs m.name) (hv : ∀ m ∈ ms, Reads m.item.text m.item.value)
    (done : List (Option String × Json)) (n : Option String) (v : Json) :
    (State.complete v (.member done n :: stack)).read ((membersText ms).map some ++ rest) =
      (State.complete
        (closed ((ms.map Member.entry).reverse ++ (n, v) :: done)) stack).read rest := by
  induction ms generalizing done n v with
  | nil => exact State.read_mark (l := .closeObject) (by decide) (fun _ => rfl) rfl rest
  | cons m ms ih =>
    have named : Denotes m.glyphs m.name := hn m List.mem_cons_self
    have here : Reads m.item.text m.item.value := hv m List.mem_cons_self
    have later := ih (fun k hk => hn k (List.mem_cons_of_mem m hk))
      (fun k hk => hv k (List.mem_cons_of_mem m hk)) ((n, v) :: done) m.name m.item.value
    rw [membersText, List.map_cons, List.cons_append, List.map_append, List.append_assoc,
      State.read_mark (l := .comma) (by decide) (fun _ => rfl) rfl,
      Member.read named here rfl (ends_membersText ms rest), later]
    simp [Member.entry]

/-- An object is read as what its members say. -/
theorem read_object {s : State} {stack : List Frame} (hs : s.Awaits stack) {m : Member}
    {ms : List Member} (hn : ∀ n ∈ m :: ms, Denotes n.glyphs n.name)
    (hv : ∀ n ∈ m :: ms, Reads n.item.text n.item.value) (rest : Input) :
    s.read (('{' :: (m.chars ++ membersText ms)).map some ++ rest) =
      (State.complete (closed ((m :: ms).map Member.entry).reverse) stack).read rest := by
  rw [List.map_cons, List.cons_append, List.map_append, List.append_assoc,
    State.read_mark (l := .openObject) (by decide) (fun _ => rfl) (hs .openObject (by decide)),
    Member.read (hn m List.mem_cons_self) (hv m List.mem_cons_self) rfl (ends_membersText ms rest),
    read_membersText stack rest ms (fun k hk => hn k (List.mem_cons_of_mem m hk))
      (fun k hk => hv k (List.mem_cons_of_mem m hk)) [] m.name m.item.value]
  simp [Member.entry]

/-- One name that is no text makes an object unreadable. -/
theorem closed_eq_unreadable {members : List (Option String × Json)}
    (h : ∃ m ∈ members, m.1 = none) : closed members = .unreadable := by
  have none_of {ms : List (Option String × Json)} (h : ∃ m ∈ ms, m.1 = none) :
      (ms.mapM fun m => m.1.map (·, m.2)) = none := by
    induction ms with
    | nil =>
      obtain ⟨m, hm, -⟩ := h
      cases hm
    | cons n ms ih =>
      obtain ⟨m, hm, hn⟩ := h
      rw [List.mapM_cons]
      rcases List.mem_cons.mp hm with rfl | hm
      · rw [hn]
        rfl
      · rw [ih ⟨m, hm, hn⟩]
        cases n.1 <;> rfl
  obtain ⟨m, hm, hn⟩ := h
  rw [closed, none_of ⟨m, List.mem_reverse.mpr hm, hn⟩]

/-- A value that is one lexeme. -/
theorem State.Awaits.read_lexeme {s : State} {stack : List Frame} (hs : s.Awaits stack) {c : Char}
    {input rest : Input} {l : Lexeme} {v : Json} (hb : isJsonBlank c = false)
    (hl : lexeme? (some c :: input) = some (l, rest))
    (begins : State.begin stack l = some (.complete v stack)) :
    s.read (some c :: input) = (State.complete v stack).read rest := by
  have other : l ≠ .closeArray := by
    rintro rfl
    cases begins
  rw [State.read_of_lexeme? s hb hl, hs l other, begins, Option.bind_some]

/-- **A form of a value is read as the value.** The induction is on the rules of the grammar. -/
theorem Writes.reads {cs : List Char} {v : Json} (h : Writes cs v) : Reads cs v := by
  induction h with
  | null => exact fun hs _ _ => hs.read_lexeme (by decide) rfl rfl
  | true => exact fun hs _ _ => hs.read_lexeme (by decide) rfl rfl
  | false => exact fun hs _ _ => hs.read_lexeme (by decide) rfl rfl
  | @number cs n hw =>
    intro s stack hs rest hr
    have read := hw.lexeme? (hr ⟨n, rfl⟩)
    obtain ⟨c, front, hc, hb⟩ := hw.exists_cons
    rw [hc] at read ⊢
    exact hs.read_lexeme hb read rfl
  | @string gs s? hd =>
    intro s stack hs rest _
    cases s? with
    | none => exact hs.read_lexeme (by decide) (hd.lexeme? rest) rfl
    | some t => exact hs.read_lexeme (by decide) (hd.lexeme? rest) rfl
  | emptyArray b =>
    intro s stack hs rest _
    rw [List.map_cons, List.cons_append, List.map_append, List.append_assoc,
      State.read_mark (l := .openArray) (by decide) (fun _ => rfl) (hs .openArray (by decide)),
      State.read_blanks]
    exact State.read_mark (l := .closeArray) (by decide) (fun _ => rfl) rfl rest
  | @array i is _ ih =>
    intro s stack hs rest _
    -- where the first item may stand, a closing bracket is read as the end of the array
    have first : (State.firstItem stack).Awaits (.items [] :: stack) := by
      intro l hl
      cases l <;> first | exact absurd rfl hl | rfl
    rw [List.map_cons, List.cons_append, List.map_append, List.append_assoc,
      State.read_mark (l := .openArray) (by decide) (fun _ => rfl) (hs .openArray (by decide)),
      Item.read (ih i List.mem_cons_self) first (ends_itemsText is rest)]
    exact read_itemsText stack rest is (fun j hj => ih j (List.mem_cons_of_mem i hj)) [] i.value
  | emptyObject b =>
    intro s stack hs rest _
    rw [List.map_cons, List.cons_append, List.map_append, List.append_assoc,
      State.read_mark (l := .openObject) (by decide) (fun _ => rfl) (hs .openObject (by decide)),
      State.read_blanks]
    exact State.read_mark (l := .closeObject) (by decide) (fun _ => rfl) rfl rest
  | @object m ms members hn _ he ih =>
    intro s stack hs rest _
    rw [read_object hs hn ih rest, he, closed_named]
  | @nameless m ms hn _ he ih =>
    intro s stack hs rest _
    rw [read_object hs hn ih rest, closed_eq_unreadable]
    obtain ⟨n, hm, hn⟩ := he
    exact ⟨n.entry, List.mem_reverse.mpr (List.mem_map_of_mem hm), hn⟩

/-! ## Whole texts -/

theorem ofBytes?_eq_read (bs : Text.Bytes) :
    ofBytes? bs = ((State.value []).read (Text.readings bs)).bind State.result? := by
  rw [ofBytes?, State.read, Option.bind_assoc]
  rfl

/-- **A form of a value is read as the value**, with blanks around it. -/
theorem ofBytes?_text {cs : List Char} {v : Json} (h : Writes cs v) (before after : Blanks) :
    ofBytes? (Text.encodeChars (before.chars ++ (cs ++ after.chars))) = some v := by
  have starts : (State.value []).Awaits [] := fun _ _ => rfl
  have ending : Ends (after.chars.map some ++ []) := ends_blanks after ends_nil
  have input : Text.readings (Text.encodeChars (before.chars ++ (cs ++ after.chars))) =
      before.chars.map some ++ (cs.map some ++ (after.chars.map some ++ [])) := by
    rw [Text.readings, Text.readingsFrom_encodeChars]
    simp
  rw [ofBytes?_eq_read, input, State.read_blanks, h.reads starts fun _ => ending, State.read_blanks,
    State.read_nil]
  rfl

/-- A finished value admits blanks and nothing else. -/
theorem State.read_complete_of_junk (v : Json) {input : Input}
    (h : ∃ x ∈ input, ∀ c, x = some c → isJsonBlank c = false) :
    (State.complete v []).read input = none := by
  induction input with
  | nil =>
    obtain ⟨x, hx, -⟩ := h
    cases hx
  | cons x rest ih =>
    cases x with
    | none => rw [State.read, lexemes?, lexemesFrom, Option.bind_none]
    | some c =>
      cases hb : isJsonBlank c with
      | true =>
        rw [State.read_blank _ hb]
        refine ih ?_
        obtain ⟨y, hy, solid⟩ := h
        rcases List.mem_cons.mp hy with rfl | hy
        · rw [solid c rfl] at hb
          cases hb
        · exact ⟨y, hy, solid⟩
      | false =>
        cases hl : lexeme? (some c :: rest) with
        | none =>
          rw [State.read, lexemes?, lexemesFrom, hb]
          simp only [Bool.false_eq_true, if_false]
          split
          · next h' => cases hl.symm.trans h'
          · rfl
        | some next =>
          -- no lexeme may follow
          have stuck : (State.complete v []).step next.1 = none := by
            cases next.1 <;> rfl
          rw [State.read_of_lexeme? _ hb hl, stuck, Option.bind_none]

/-- **Nothing is read from a text after which something else stands than blanks.** Of a number this is
not said, since it may go on. -/
theorem ofBytes?_text_junk {cs : List Char} {v : Json} (h : Writes cs v) (hv : ∀ n, v ≠ .number n)
    (before : Blanks) {junk : Text.Bytes}
    (hj : ∃ b ∈ junk, isJsonBlank (Char.ofNat b.toNat) = false) :
    ofBytes? (Text.encodeChars (before.chars ++ cs) ++ junk) = none := by
  have starts : (State.value []).Awaits [] := fun _ _ => rfl
  have input : Text.readings (Text.encodeChars (before.chars ++ cs) ++ junk) =
      before.chars.map some ++ (cs.map some ++ Text.readings junk) := by
    rw [Text.readings_append, List.map_append, List.append_assoc]
  have solid := Text.exists_reading_of_byte toNat_lt_of_isJsonBlank hj
  rw [ofBytes?_eq_read, input, State.read_blanks,
    h.reads starts fun ⟨n, hn⟩ => absurd hn (hv n), State.read_complete_of_junk v solid]
  rfl

end ShortLink.Json
