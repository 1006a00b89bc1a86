/-
  The `Forwarded` field by its grammar (RFC 7239).

  A field is elements between commas, an element is parameters between semicolons, and the value of a
  parameter is a token or a quoted string, in which commas, semicolons and equals signs are like any
  other character and a backslash makes the next character stand for itself.  `Field` holds what such a
  text says, and `Field.chars` is the text.

  1. The value of a `for` parameter is a node: an address, a word for unknown ones, or a made-up name,
     and perhaps a port (`Node`).

  2. **Nodes are read as the grammar says** (`node?_of_node`), in quotes or not: as the address, or as
     none.  So a text is a node in one way at most (`Node.unique`).
-/
import ShortLink.Proofs.Http.Forwarding

namespace ShortLink

open ShortLink.Text (Bytes isBlank dropAround joinWith)
open ShortLink.Address (Spells)

namespace Forwarded

/-! ## The grammar -/

/-- A character of a token. -/
def isTokenChar (c : Char) : Bool := c.toNat < 128 && Http.isTokenByte (UInt8.ofNat c.toNat)

/-- A character that may stand in quotes: any byte that a field may hold. -/
def isQuotable (c : Char) : Bool := c.toNat < 256 && Http.isValueByte (UInt8.ofNat c.toNat)

structure Token where
  chars : List Char
  ne_nil : chars ≠ []
  all : chars.all isTokenChar = true

/-- A character that may stand in quotes without a backslash. -/
def isOrdinary (c : Char) : Bool := isQuotable c && c != '"' && c != '\\'

/-- A character in a quoted string. -/
inductive Glyph where
  /-- It stands for itself. -/
  | plain (c : Char) (ordinary : isOrdinary c = true)
  /-- It follows a backslash. -/
  | escaped (c : Char) (quotable : isQuotable c = true)

/-- The character that is meant. -/
def Glyph.char : Glyph → Char
  | plain c _ => c
  | escaped c _ => c

def Glyph.chars : Glyph → List Char
  | plain c _ => [c]
  | escaped c _ => ['\\', c]

/-- The value of a parameter. -/
inductive Value where
  | token (t : Token)
  | quoted (glyphs : List Glyph)

namespace Value

/-- The text that is meant. -/
def meant : Value → List Char
  | token t => t.chars
  | quoted glyphs => glyphs.map Glyph.char

/-- The text as it is written. -/
def chars : Value → List Char
  | token t => t.chars
  | quoted glyphs => '"' :: (glyphs.flatMap Glyph.chars ++ ['"'])

/-- A text in quotes, written without backslashes. -/
def inQuotes (cs : List Char) (h : cs.all isOrdinary = true) : Value :=
  quoted (cs.pmap Glyph.plain (List.all_eq_true.mp h))

/-- No character follows a backslash. -/
def Unescaped : Value → Prop
  | token _ => True
  | quoted glyphs => ∀ g ∈ glyphs, g.chars = [g.char]

instance : (v : Value) → Decidable v.Unescaped
  | token _ => inferInstanceAs (Decidable True)
  | quoted glyphs => inferInstanceAs (Decidable (∀ g ∈ glyphs, g.chars = [g.char]))

end Value

/-- A parameter. -/
structure Pair where
  name : Token
  value : Value

namespace Pair

def chars (p : Pair) : List Char := p.name.chars ++ '=' :: p.value.chars

/-- Names are compared without regard to case. -/
def IsFor (p : Pair) : Prop := p.name.chars.map Char.toLower = "for".toList

instance (p : Pair) : Decidable p.IsFor :=
  inferInstanceAs (Decidable (p.name.chars.map Char.toLower = "for".toList))

end Pair

/-- A place for a parameter, with blanks around it; it may be empty. -/
structure Slot where
  before : List Char
  pair : Option Pair
  after : List Char
  blank : ∀ c ∈ before ++ after, c = ' ' ∨ c = '\t'

/-- A place with a parameter and no blanks. -/
def Slot.tight (p : Pair) : Slot := ⟨[], some p, [], nofun⟩

def Slot.chars (s : Slot) : List Char := s.before ++ ((s.pair.elim [] Pair.chars) ++ s.after)

/-- A field: its elements, and the parameters of each. -/
structure Field where
  elements : List (List Slot)

namespace Field

def elementChars (slots : List Slot) : List Char := joinWith ';' (slots.map Slot.chars)

def chars (f : Field) : List Char := joinWith ',' (f.elements.map elementChars)

def bytes (f : Field) : Bytes := f.chars.map fun c => UInt8.ofNat c.toNat

/-- The parameters in order. -/
def pairs (f : Field) : List Pair := f.elements.flatMap fun slots => slots.filterMap Slot.pair

end Field

/-! ### Nodes -/

/-- A character of a name that an address is hidden behind. -/
def isObscureChar (c : Char) : Bool :=
  c.toNat < 128 && (c.isAlphanum || "._-".toList.contains c)

/-- The ports that may follow a node's name. -/
inductive NodePort : List Char → Prop
  | none : NodePort []
  | number {digits : List Char} : digits ≠ [] → digits.length ≤ 5 →
    (∀ c ∈ digits, c.isDigit = true) → NodePort (':' :: digits)
  | obscure {cs : List Char} : cs ≠ [] → (∀ c ∈ cs, isObscureChar c = true) →
    NodePort (':' :: '_' :: cs)

/-- The names of nodes, with the addresses of those that are addresses. -/
inductive NodeName : List Char → Option Address → Prop
  | v4 (x : Address.V4) : NodeName x.chars (some (.v4 x))
  | v6 {cs : List Char} {x : Address.V6} : Address.V6.Spells cs x.groups →
    NodeName ('[' :: (cs ++ [']'])) (some (.v6 x))
  | unknown {cs : List Char} : cs.map Char.toLower = "unknown".toList → NodeName cs none
  | obscure {cs : List Char} : cs ≠ [] → (∀ c ∈ cs, isObscureChar c = true) →
    NodeName ('_' :: cs) none

inductive Node : List Char → Option Address → Prop
  | intro {name port : List Char} {a? : Option Address} : NodeName name a? → NodePort port →
    Node (name ++ port) a?

/-! ## Reading nodes -/

/-- A character of a node. -/
def isNodeChar (c : Char) : Bool := isObscureChar c || ":[]".toList.contains c

theorem plain_of_isNodeChar {c : Char} (h : isNodeChar c = true) :
    isBlank c = false ∧ c ∉ ['"', ',', ';'] := by
  rw [isNodeChar, Bool.or_eq_true] at h
  rcases h with h | h
  · have small := h
    rw [isObscureChar, Bool.and_eq_true, decide_eq_true_eq] at small
    exact Text.of_forall_ascii (P := fun c => isObscureChar c = true →
      isBlank c = false ∧ c ∉ ['"', ',', ';']) (by decide +kernel) small.1 h
  · have mark : c = ':' ∨ c = '[' ∨ c = ']' := by simpa using h
    rcases mark with rfl | rfl | rfl <;> decide

theorem isNodeChar_of_spells {cs : List Char} {a : Address} (h : Spells cs a) :
    ∀ c ∈ cs, isNodeChar c = true := by
  intro c hc
  rcases h.of_mem hc with hx | rfl | rfl
  · obtain ⟨d, hd⟩ := Option.isSome_iff_exists.mp hx
    exact Text.of_forall_ascii (P := fun c => (Text.hexValue? c).isSome = true →
      isNodeChar c = true) (by decide +kernel) (Text.toNat_lt_of_hexValue? hd) hx
  · decide
  · decide

theorem isNodeChar_of_isObscureChar {c : Char} (h : isObscureChar c = true) :
    isNodeChar c = true := by
  rw [isNodeChar, h, Bool.true_or]

/-- The letters of the word for unknown nodes. -/
theorem isObscureChar_of_unknown {cs : List Char} (h : cs.map Char.toLower = "unknown".toList) :
    ∀ c ∈ cs, isObscureChar c = true := by
  intro c hc
  have letter : c.toLower ∈ "unknown".toList := h ▸ List.mem_map_of_mem hc
  by_cases small : c.toNat < 128
  · exact Text.of_forall_ascii (P := fun c => c.toLower ∈ "unknown".toList →
      isObscureChar c = true) (by decide +kernel) small letter
  · rw [Text.toLower_eq_self small] at letter
    have letters : ("unknown".toList.all isObscureChar) = true := by decide
    exact List.all_eq_true.mp letters c letter

theorem NodePort.isNodeChar {port : List Char} (h : NodePort port) :
    ∀ c ∈ port, isNodeChar c = true := by
  cases h with
  | none => nofun
  | number _ _ hd =>
    intro c hc
    rcases List.mem_cons.mp hc with rfl | hc
    · decide
    · obtain ⟨d, hx⟩ := Option.isSome_iff_exists.mp (Text.isSome_hexValue?_of_isDigit (hd c hc))
      exact Text.of_forall_ascii (P := fun c => c.isDigit = true → Forwarded.isNodeChar c = true)
        (by decide +kernel) (Text.toNat_lt_of_hexValue? hx) (hd c hc)
  | obscure _ ho =>
    intro c hc
    rcases List.mem_cons.mp hc with rfl | hc
    · decide
    · rcases List.mem_cons.mp hc with rfl | hc
      · decide
      · exact isNodeChar_of_isObscureChar (ho c hc)

/-- A port is nothing, or a colon and no further one. -/
theorem NodePort.eq_nil_or {port : List Char} (h : NodePort port) :
    port = [] ∨ ∃ rest, port = ':' :: rest ∧ ':' ∉ rest := by
  cases h with
  | none => exact .inl rfl
  | number _ _ hd => exact .inr ⟨_, rfl, fun hc => absurd (hd _ hc) (by decide)⟩
  | obscure _ ho =>
    refine .inr ⟨_, rfl, fun hc => ?_⟩
    rcases List.mem_cons.mp hc with hc | hc
    · exact absurd hc (by decide)
    · exact absurd (ho _ hc) (by decide)

theorem NodeName.isNodeChar {name : List Char} {a? : Option Address} (h : NodeName name a?) :
    ∀ c ∈ name, isNodeChar c = true := by
  cases h with
  | v4 x => exact isNodeChar_of_spells (.v4 x)
  | v6 hs =>
    intro c hc
    rw [List.mem_cons, List.mem_append, List.mem_singleton] at hc
    rcases hc with rfl | hc | rfl
    · decide
    · exact isNodeChar_of_spells (.v6 hs) c hc
    · decide
  | unknown hu => exact fun c hc => isNodeChar_of_isObscureChar (isObscureChar_of_unknown hu c hc)
  | obscure _ ho =>
    intro c hc
    rcases List.mem_cons.mp hc with rfl | hc
    · decide
    · exact isNodeChar_of_isObscureChar (ho c hc)

theorem NodeName.ne_nil {name : List Char} {a? : Option Address} (h : NodeName name a?) :
    name ≠ [] := by
  cases h with
  | v4 x => exact List.ne_nil_of_mem x.point_mem_chars
  | v6 => exact List.cons_ne_nil _ _
  | unknown hu =>
    rintro rfl
    cases hu
  | obscure => exact List.cons_ne_nil _ _

theorem Node.plain {node : List Char} {a? : Option Address} (h : Node node a?) :
    ∀ c ∈ node, isBlank c = false ∧ c ∉ ['"', ',', ';'] := by
  obtain ⟨hn, hp⟩ := h
  intro c hc
  rcases List.mem_append.mp hc with hc | hc
  · exact plain_of_isNodeChar (hn.isNodeChar c hc)
  · exact plain_of_isNodeChar (hp.isNodeChar c hc)

/-- A text is no address if there is a character in it that no address has. -/
theorem ofChars?_of_stray {cs : List Char} {c : Char} (hc : c ∈ cs)
    (stray : (Text.hexValue? c).isSome = false ∧ c ≠ ':' ∧ c ≠ '.') :
    Address.ofChars? cs = none := by
  cases h : Address.ofChars? cs with
  | none => rfl
  | some a =>
    rcases (Address.ofChars?_eq_some_iff.mp h).of_mem hc with hx | hx | hx
    · rw [stray.1] at hx
      cases hx
    · exact absurd hx stray.2.1
    · exact absurd hx stray.2.2

/-- A name that is no address is not read, whatever its port. -/
theorem node?_of_stray {name port value : List Char} {c : Char}
    (hv : dropAround (· == '"') (Text.trimChars value) = name ++ port) (hp : NodePort port)
    (hc : c ∈ name) (stray : (Text.hexValue? c).isSome = false ∧ c ≠ ':' ∧ c ≠ '.')
    (ho : ∀ d ∈ name, isObscureChar d = true) : node? value = none := by
  have head : (name ++ port).head? ≠ some '[' := by
    rw [List.head?_append_of_ne_nil _ (List.ne_nil_of_mem hc)]
    exact fun hh => absurd (ho _ (List.mem_of_mem_head? hh)) (by decide)
  have free : ':' ∉ name := fun hm => absurd (ho _ hm) (by decide)
  rw [node?_of_ne hv head, ofChars?_of_stray (List.mem_append_left _ hc) stray, Option.none_or]
  rcases hp.eq_nil_or with rfl | ⟨rest, rfl, single⟩
  · rw [List.append_nil, Text.cutLast?_of_not_mem free]
    rfl
  · rw [Text.cutLast?_append _ single, Option.bind_some]
    exact ofChars?_of_stray hc stray

/-- An IPv4 address is read, whatever its port. -/
theorem node?_of_v4 {x : Address.V4} {port value : List Char}
    (hv : dropAround (· == '"') (Text.trimChars value) = x.chars ++ port) (hp : NodePort port) :
    node? value = some (.v4 x) := by
  have head : (x.chars ++ port).head? ≠ some '[' := by
    rw [List.head?_append_of_ne_nil _ (List.ne_nil_of_mem x.point_mem_chars)]
    intro hh
    rcases Address.V4.isDigit_or_of_mem_chars (List.mem_of_mem_head? hh) with hd | hd
    · exact absurd hd (by decide)
    · exact absurd hd (by decide)
  have read := Address.ofChars?_eq_some_iff.mpr (.v4 x)
  rw [node?_of_ne hv head]
  rcases hp.eq_nil_or with rfl | ⟨rest, rfl, single⟩
  · rw [List.append_nil, read]
    rfl
  · rw [ofChars?_v4_port x single, Text.cutLast?_append _ single, Option.none_or,
      Option.bind_some, read]

/-- An IPv6 address is read between its brackets, whatever follows on them. -/
theorem node?_of_v6 {cs rest value : List Char} {x : Address.V6}
    (hv : dropAround (· == '"') (Text.trimChars value) = '[' :: (cs ++ ']' :: rest))
    (hs : Address.V6.Spells cs x.groups) : node? value = some (.v6 x) := by
  have spelled : Spells cs (.v6 x) := .v6 hs
  have free : ']' ∉ cs := fun hc => (spelled.plain _ hc).2 (by decide)
  unfold node?
  rw [hv]
  simp only [Text.cut?_append free]
  exact Address.ofChars?_eq_some_iff.mpr spelled

/-- The word for unknown nodes begins with a letter that no address has. -/
theorem stray_of_unknown {name : List Char} (h : name.map Char.toLower = "unknown".toList) :
    ∃ c ∈ name, (Text.hexValue? c).isSome = false ∧ c ≠ ':' ∧ c ≠ '.' := by
  obtain ⟨c, cs, rfl⟩ := List.exists_cons_of_ne_nil (NodeName.unknown h).ne_nil
  have first : c.toLower = 'u' := (List.cons.inj h).1
  refine ⟨c, List.mem_cons_self, ?_, ?_, ?_⟩
  · rw [← Text.hexValue?_toLower, first]
    decide
  · rintro rfl
    exact absurd first (by decide)
  · rintro rfl
    exact absurd first (by decide)

/-- **A node is read as the grammar says**, in quotes or not. -/
theorem node?_of_node {node value : List Char} {a? : Option Address} (h : Node node a?)
    (hq : Text.Around (· == '"') node value) : node? value = a? := by
  have stripped : dropAround (· == '"') (Text.trimChars value) = node := by
    have solid : ∀ c ∈ value, isBlank c = false := by
      intro c hc
      rcases hq.of_mem hc with hm | hm
      · rw [eq_of_beq hm]
        decide
      · exact (h.plain c hm).1
    have bare : ∀ c ∈ node, (c == '"') = false :=
      fun c hc => beq_false_of_ne fun he => (h.plain c hc).2 (he ▸ List.mem_cons_self)
    rw [Text.trimChars, Text.dropAround_of_forall solid, hq.dropAround_eq,
      Text.dropAround_of_forall bare]
  obtain ⟨hn, hp⟩ := h
  next name port =>
  cases hn with
  | v4 x => exact node?_of_v4 stripped hp
  | v6 hs =>
    rw [List.cons_append, List.append_assoc, List.singleton_append] at stripped
    exact node?_of_v6 stripped hs
  | unknown hu =>
    obtain ⟨c, hc, stray⟩ := stray_of_unknown hu
    exact node?_of_stray stripped hp hc stray (isObscureChar_of_unknown hu)
  | obscure ne ho =>
    refine node?_of_stray stripped hp List.mem_cons_self (by decide) fun d hd => ?_
    rcases List.mem_cons.mp hd with rfl | hd
    · decide
    · exact ho d hd

/-- A node names one address at most. -/
theorem Node.unique {node : List Char} {a? b? : Option Address} (ha : Node node a?)
    (hb : Node node b?) : a? = b? := by
  have bare : Text.Around (· == '"') node node := ⟨[], [], by simp, nofun, nofun⟩
  rw [← node?_of_node ha bare, node?_of_node hb bare]

end Forwarded

end ShortLink
