/-
  The canonical text of a value is a form of an equal value.

  Two values are equal if they are built alike, whatever the order of the members of their objects
  (`Same`).  A plain value is one of null, booleans, integers of 64 bits, strings, arrays and objects
  without repeated names, to any depth (`Plain`).

  1. The canonical form of an object has its members in another order (`canonicalMembers_perm`), so
     that the canonical form of a plain value is equal to it (`Plain.same_canonical`).

  2. The text without blanks is a form of its value by the grammar: characters are glyphs
     (`exists_glyph`), printed numbers are numbers (`writesNumber_chars`), and the rest follows the
     printer (`writes_compactChars`).

  3. So the canonical text of a plain value is JSON, and denotes an equal value and no other
     (`Plain.canonical_text`).
-/
import Mathlib.Data.List.Forall2
import ShortLink.Proofs.Json.Grammar

namespace ShortLink.Json

/-! ## Equal values -/

/-- Values that are equal: the members of an object have no order. -/
inductive Same : Json → Json → Prop
  | null : Same .null .null
  | bool (b : Bool) : Same (.bool b) (.bool b)
  | number (n : Number) : Same (.number n) (.number n)
  | string (s : String) : Same (.string s) (.string s)
  | array {vs ws : List Json} : List.Forall₂ Same vs ws → Same (.array vs) (.array ws)
  | object {ms order ns : List (String × Json)} : ms.map Prod.fst = order.map Prod.fst →
    List.Forall₂ Same (ms.map Prod.snd) (order.map Prod.snd) → order.Perm ns →
    Same (.object ms) (.object ns)

/-- A value of null, booleans, integers of 64 bits, signed or not, strings, arrays and objects. -/
inductive Plain : Json → Prop
  | null : Plain .null
  | bool (b : Bool) : Plain (.bool b)
  | integer {i : Int} : Int64.minValue.toInt ≤ i → i < UInt64.size → Plain (ofInt i)
  | string (s : String) : Plain (.string s)
  | array {vs : List Json} : (∀ v ∈ vs, Plain v) → Plain (.array vs)
  | object {ms : List (String × Json)} : (ms.map Prod.fst).Nodup → (∀ m ∈ ms, Plain m.2) →
    Plain (.object ms)

/-! ## Canonical values -/

/-- An integer of 64 bits is written by its digits. -/
theorem canonical_ofInt {i : Int} (low : Int64.minValue.toInt ≤ i) (high : i < UInt64.size) :
    (ofInt i).canonical = ofInt i := by
  have inside : (Int64.minValue.toInt ≤ i && i < UInt64.size) = true := by
    rw [decide_eq_true low, decide_eq_true high, Bool.and_self]
  rw [ofInt, canonical, Number.canonical, Number.toInt?_ofInt]
  simp only [inside, if_true]

theorem canonicalItems_eq (vs : List Json) : canonicalItems vs = vs.map canonical := by
  induction vs with
  | nil => rfl
  | cons v vs ih => rw [canonicalItems, ih, List.map_cons]

/-- A member with a new name is put among the others. -/
theorem insertMember_perm {name : String} {v : Json} {done : List (String × Json)}
    (new : name ∉ done.map Prod.fst) : (insertMember name v done).Perm ((name, v) :: done) := by
  induction done with
  | nil => exact .refl _
  | cons m done ih =>
    obtain ⟨n, w⟩ := m
    rw [List.map_cons, List.mem_cons, not_or] at new
    rw [insertMember, if_neg new.1]
    split
    · exact .refl _
    · exact ((ih new.2).cons (n, w)).trans (.swap _ _ _)

/-- **Members whose names differ are only put in order.** -/
theorem canonicalMembers_perm {ms done : List (String × Json)}
    (distinct : ((ms ++ done).map Prod.fst).Nodup) :
    (canonicalMembers ms done).Perm (ms.map (fun m => (m.1, m.2.canonical)) ++ done) := by
  induction ms generalizing done with
  | nil => rw [canonicalMembers]; exact .refl _
  | cons m ms ih =>
    obtain ⟨n, v⟩ := m
    rw [List.cons_append, List.map_cons, List.nodup_cons] at distinct
    have new : n ∉ done.map Prod.fst := fun h =>
      distinct.1 (by rw [List.map_append]; exact List.mem_append_right _ h)
    have put := insertMember_perm (v := v.canonical) new
    have later : ((ms ++ insertMember n v.canonical done).map Prod.fst).Nodup := by
      have moved : (ms ++ insertMember n v.canonical done).Perm ((n, v.canonical) :: (ms ++ done)) :=
        (put.append_left ms).trans List.perm_middle
      exact (moved.map Prod.fst).nodup_iff.2 (List.nodup_cons.2 distinct)
    rw [canonicalMembers]
    exact (ih later).trans ((put.append_left _).trans List.perm_middle)

theorem canonicalMembers_nil_perm {ms : List (String × Json)} (distinct : (ms.map Prod.fst).Nodup) :
    (canonicalMembers ms []).Perm (ms.map fun m => (m.1, m.2.canonical)) := by
  rw [← List.append_nil ms] at distinct
  have perm := canonicalMembers_perm distinct
  rwa [List.append_nil] at perm

/-- **The canonical form of a plain value is equal to it.** The induction is on how it is built. -/
theorem Plain.same_canonical {v : Json} (h : Plain v) : Same v v.canonical := by
  induction h with
  | null => exact .null
  | bool b => exact .bool b
  | integer low high =>
    rw [canonical_ofInt low high]
    exact .number _
  | string s => exact .string s
  | @array vs _ ih =>
    rw [canonical, canonicalItems_eq]
    exact .array (List.forall₂_map_right_iff.2 (List.forall₂_same.2 ih))
  | @object ms distinct _ ih =>
    rw [canonical]
    refine .object ?_ ?_ (canonicalMembers_nil_perm distinct).symm
    · rw [List.map_map]
      rfl
    · rw [List.map_map, List.forall₂_map_left_iff, List.forall₂_map_right_iff, List.forall₂_same]
      exact ih

theorem readableItems_iff {vs : List Json} :
    readableItems vs = true ↔ ∀ v ∈ vs, v.readable = true := by
  induction vs with
  | nil => simp [readableItems]
  | cons v vs ih => simp [readableItems, ih]

theorem readableMembers_iff {ms : List (String × Json)} :
    readableMembers ms = true ↔ ∀ m ∈ ms, m.2.readable = true := by
  induction ms with
  | nil => simp [readableMembers]
  | cons m ms ih => simp [readableMembers, ih]

/-- Every string of a plain value is a text. -/
theorem Plain.readable_canonical {v : Json} (h : Plain v) : v.canonical.readable = true := by
  induction h with
  | null | bool | string => rfl
  | integer low high =>
    rw [canonical_ofInt low high]
    rfl
  | array _ ih =>
    rw [canonical, canonicalItems_eq, readable, readableItems_iff]
    simpa using ih
  | object distinct _ ih =>
    rw [canonical, readable, readableMembers_iff]
    intro m hm
    obtain ⟨n, hn, rfl⟩ := List.mem_map.1 ((canonicalMembers_nil_perm distinct).mem_iff.1 hm)
    exact ih n hn

/-! ## Printed values -/

theorem all_blank_nil : ([] : List Char).all isJsonBlank = true := rfl

/-- No blanks. -/
def Blanks.none : Blanks := ⟨[], all_blank_nil⟩

/-- Each character is printed as a glyph that means it. -/
theorem exists_glyph (c : Char) :
    ∃ g : Glyph, g.chars = escaped c ∧ ∀ {gs t}, Means gs t → Means (g :: gs) (c :: t) := by
  have letter (l d : Char) (known : simpleEscape? l = some d) (printed : escaped d = ['\\', l]) :
      ∃ g : Glyph, g.chars = escaped d ∧ ∀ {gs t}, Means gs t → Means (g :: gs) (d :: t) :=
    ⟨.simple l d known, printed.symm, .simple known⟩
  by_cases simple : c ∈ ['"', '\\', '\x08', '\x0C', '\n', '\r', '\t']
  · simp only [List.mem_cons, List.not_mem_nil, or_false] at simple
    rcases simple with rfl | rfl | rfl | rfl | rfl | rfl | rfl
    · exact letter '"' _ rfl rfl
    · exact letter '\\' _ rfl rfl
    · exact letter 'b' _ rfl rfl
    · exact letter 'f' _ rfl rfl
    · exact letter 'n' _ rfl rfl
    · exact letter 'r' _ rfl rfl
    · exact letter 't' _ rfl rfl
  · simp only [List.mem_cons, List.not_mem_nil, or_false, not_or] at simple
    obtain ⟨h₁, h₂, h₃, h₄, h₅, h₆, h₇⟩ := simple
    by_cases control : c < ' '
    · have small : c.toNat < 32 := control
      obtain ⟨x, y, z, w, digits, number⟩ := unit?_hexDigits (n := c.toNat) (by omega)
      have high : isHigh c.toNat = false := by simp [isHigh]; omega
      have low : isLow c.toNat = false := by simp [isLow]; omega
      refine ⟨.unit x y z w c.toNat number, ?_, fun h => ?_⟩
      · simp [escaped, h₁, h₂, h₃, h₄, h₅, h₆, h₇, control, digits, Glyph.chars]
      · have means := Means.unit number high low h
        rwa [Char.ofNat_toNat] at means
    · have ordinary : isOrdinary c = true := by simp [isOrdinary, h₁, h₂, control]
      refine ⟨.plain c ordinary, ?_, .plain ordinary⟩
      simp [escaped, h₁, h₂, h₃, h₄, h₅, h₆, h₇, control, Glyph.chars]

/-- A printed string is a literal that denotes it. -/
theorem exists_literal (s : String) : ∃ gs, literal gs = quoted s ∧ Denotes gs (some s) := by
  have glyphs (cs : List Char) :
      ∃ gs : List Glyph, gs.flatMap Glyph.chars = cs.flatMap escaped ∧ Means gs cs := by
    induction cs with
    | nil => exact ⟨[], rfl, .nil⟩
    | cons c cs ih =>
      obtain ⟨g, hg, means⟩ := exists_glyph c
      obtain ⟨gs, hgs, rest⟩ := ih
      exact ⟨g :: gs, by rw [List.flatMap_cons, List.flatMap_cons, hg, hgs], means rest⟩
  obtain ⟨gs, chars, means⟩ := glyphs s.toList
  refine ⟨gs, by rw [literal, quoted, chars], ?_⟩
  have text := Denotes.text means
  rwa [String.ofList_toList] at text

/-- A printed exponent is an exponent. -/
theorem writesExponent_exponentChars (e : Option Int) : WritesExponent (exponentChars e) e := by
  cases e with
  | none => exact .none
  | some e =>
    obtain ⟨d, ds, hd⟩ := digitsOf_nonempty e.natAbs
    have nonempty : digitsOf e.natAbs ≠ [] := by rw [hd]; exact List.cons_ne_nil _ _
    have marked : 'e' ∈ ['e', 'E'] := List.mem_cons_self
    rw [exponentChars, ← map_digitChar_digitsOf]
    by_cases negative : e < 0
    · have value : e = -(value (digitsOf e.natAbs) : Int) := by rw [value_digitsOf]; omega
      rw [if_pos negative]
      have form := WritesExponent.minus marked nonempty
      rwa [← value] at form
    · have value : e = (value (digitsOf e.natAbs) : Int) := by rw [value_digitsOf]; omega
      rw [if_neg negative]
      have form := WritesExponent.plain marked nonempty
      rwa [← value] at form

/-- A printed number is a number. -/
theorem writesNumber_chars (n : Number) : WritesNumber n.chars n := by
  rw [Number.chars_eq, Number.unsignedChars]
  exact .intro n.negative n.whole n.fraction (writesExponent_exponentChars n.exponent)

/-- A value as it is printed in an array. -/
def printedItem (v : Json) : Item := ⟨.none, compactChars v, v, .none⟩

theorem itemsText_printedItem (vs : List Json) :
    itemsText (vs.map printedItem) = laterItemChars vs := by
  induction vs with
  | nil => rfl
  | cons v vs ih =>
    rw [List.map_cons, itemsText, ih]
    simp [printedItem, Item.chars, Blanks.none, laterItemChars, compactItems]

/-- Printed members are members with the same entries. -/
theorem exists_members (ms : List (String × Json)) :
    ∃ printed : List Member, membersText printed = laterMemberChars ms ∧
      printed.map Member.entry = named ms ∧ (∀ m ∈ printed, Denotes m.glyphs m.name) ∧
      ∀ m ∈ printed, ∃ n ∈ ms, m.item = printedItem n.2 := by
  induction ms with
  | nil => exact ⟨[], rfl, rfl, List.forall_mem_nil _, List.forall_mem_nil _⟩
  | cons m ms ih =>
    obtain ⟨n, v⟩ := m
    obtain ⟨gs, hgs, denotes⟩ := exists_literal n
    obtain ⟨printed, text, entries, names, items⟩ := ih
    refine ⟨⟨.none, gs, some n, .none, printedItem v⟩ :: printed, ?_, ?_, ?_, ?_⟩
    · rw [membersText, text]
      simp [Member.chars, hgs, printedItem, Item.chars, Blanks.none, laterMemberChars,
        compactMembers]
    · rw [List.map_cons, entries]
      rfl
    · exact List.forall_mem_cons.2 ⟨denotes, names⟩
    · refine List.forall_mem_cons.2 ⟨⟨(n, v), List.mem_cons_self, rfl⟩, fun m hm => ?_⟩
      obtain ⟨k, hk, same⟩ := items m hm
      exact ⟨k, List.mem_cons_of_mem _ hk, same⟩

mutual

/-- **The text without blanks is a form of the value.** -/
theorem writes_compactChars : ∀ v : Json, v.readable = true → Writes (compactChars v) v
  | .null, _ => .null
  | .bool true, _ => .true
  | .bool false, _ => .false
  | .number n, _ => .number (writesNumber_chars n)
  | .string s, _ => by
    obtain ⟨gs, chars, denotes⟩ := exists_literal s
    rw [compactChars, ← chars]
    exact .string denotes
  | .array [], _ => .emptyArray .none
  | .array (v :: vs), h => by
    have items : ∀ w ∈ v :: vs, Writes (compactChars w) w := writes_compactItems (v :: vs) h
    have form : Writes ('[' :: ((printedItem v).chars ++ itemsText (vs.map printedItem)))
        (.array ((printedItem v :: vs.map printedItem).map Item.value)) := by
      refine .array fun j hj => ?_
      obtain ⟨w, hw, rfl⟩ := List.mem_map.1 (show j ∈ (v :: vs).map printedItem from hj)
      exact items w hw
    rw [itemsText_printedItem, List.map_cons, List.map_map] at form
    rw [compactChars_array]
    simpa [printedItem, Item.chars, Blanks.none, Function.comp_def] using form
  | .object [], _ => .emptyObject .none
  | .object ((n, v) :: ms), h => by
    have values : ∀ m ∈ (n, v) :: ms, Writes (compactChars m.2) m.2 :=
      writes_compactMembers ((n, v) :: ms) h
    obtain ⟨gs, chars, denotes⟩ := exists_literal n
    obtain ⟨printed, text, entries, names, items⟩ := exists_members ms
    let first : Member := ⟨.none, gs, some n, .none, printedItem v⟩
    have form : Writes ('{' :: (first.chars ++ membersText printed)) (.object ((n, v) :: ms)) := by
      refine .object (List.forall_mem_cons.2 ⟨denotes, names⟩)
        (List.forall_mem_cons.2 ⟨values (n, v) List.mem_cons_self, fun m hm => ?_⟩) ?_
      · obtain ⟨k, hk, same⟩ := items m hm
        rw [same]
        exact values k (List.mem_cons_of_mem _ hk)
      · rw [List.map_cons, entries]
        rfl
    rw [text] at form
    rw [compactChars_object]
    simpa [first, Member.chars, chars, printedItem, Item.chars, Blanks.none] using form

theorem writes_compactItems :
    ∀ vs : List Json, readableItems vs = true → ∀ v ∈ vs, Writes (compactChars v) v
  | [], _ => List.forall_mem_nil _
  | v :: vs, h => by
    obtain ⟨hv, hvs⟩ : v.readable = true ∧ readableItems vs = true := by
      simpa [readableItems] using h
    exact List.forall_mem_cons.2 ⟨writes_compactChars v hv, writes_compactItems vs hvs⟩

theorem writes_compactMembers :
    ∀ ms : List (String × Json), readableMembers ms = true →
      ∀ m ∈ ms, Writes (compactChars m.2) m.2
  | [], _ => List.forall_mem_nil _
  | (_, v) :: ms, h => by
    obtain ⟨hv, hms⟩ : v.readable = true ∧ readableMembers ms = true := by
      simpa [readableMembers] using h
    exact List.forall_mem_cons.2 ⟨writes_compactChars v hv, writes_compactMembers ms hms⟩

end

/-! ## Canonical texts -/

/-- A text is a form of one value at most. -/
theorem Writes.unique {cs : List Char} {v w : Json} (hv : Writes cs v) (hw : Writes cs w) : v = w :=
  Option.some.inj ((ofBytes?_text hv .none .none).symm.trans (ofBytes?_text hw .none .none))

/-- **The canonical text of a plain value is a form of an equal value, and of no other.** -/
theorem Plain.canonical_text {v : Json} (h : Plain v) :
    ∃ w, Same v w ∧ Writes v.canonical.compact.toList w ∧
      ∀ u, Writes v.canonical.compact.toList u → u = w := by
  have text : Writes v.canonical.compact.toList v.canonical := by
    rw [compact, String.toList_ofList]
    exact writes_compactChars v.canonical h.readable_canonical
  exact ⟨v.canonical, h.same_canonical, text, fun u hu => hu.unique text⟩

end ShortLink.Json
