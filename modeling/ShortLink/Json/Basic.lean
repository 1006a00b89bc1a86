/-
  JSON values.

  A value keeps what its text says and no more: an object keeps its members in the order of the
  text, repeated names included, and a number keeps its literal, so that a reader can tell `1` from
  `1.0` and decide for itself how precisely to read it.  A string literal that is well formed but
  denotes no text (an unpaired surrogate escape, bytes that are not UTF-8) is the value `unreadable`,
  and so is an object with such a literal for a name.
-/

namespace ShortLink

/-- The literal of a JSON number: an optional minus sign, an integer part without leading zeros, the
digits after the point (none if there is no point) and an exponent. -/
structure Json.Number where
  negative : Bool
  whole : Nat
  fraction : List (Fin 10)
  exponent : Option Int
  deriving DecidableEq, Repr

/-- A JSON value. -/
inductive Json where
  | null
  | bool (value : Bool)
  | number (literal : Json.Number)
  | string (text : String)
  | unreadable
  | array (items : List Json)
  | object (members : List (String × Json))
  deriving Repr, Inhabited

namespace Json

/-- The literal of an integer. -/
def Number.ofInt (n : Int) : Number := ⟨n < 0, n.natAbs, [], none⟩

/-- The integer that a literal writes: one without point and exponent, and not `-0`. -/
def Number.toInt? (n : Number) : Option Int :=
  if n.fraction = [] && n.exponent = none then
    if n.negative then (if n.whole = 0 then none else some (-(n.whole : Int))) else some n.whole
  else none

theorem Number.toInt?_ofInt (n : Int) : (Number.ofInt n).toInt? = some n := by
  unfold Number.ofInt Number.toInt?
  by_cases h : n < 0
  · have hn : n.natAbs ≠ 0 := by omega
    have he : -(n.natAbs : Int) = n := by omega
    simp only [h, hn, he, decide_true, if_true, if_false, Bool.and_true]
  · have he : (n.natAbs : Int) = n := by omega
    simp only [h, he, decide_true, decide_false, if_true, Bool.and_true, Bool.false_eq_true,
      if_false]

/-- An integer as a value. -/
def ofInt (n : Int) : Json := .number (Number.ofInt n)

/-- A natural number as a value. -/
def ofNat (n : Nat) : Json := ofInt n

/-- A value or null. -/
def ofOption {α : Type} (f : α → Json) : Option α → Json
  | none => .null
  | some a => f a

end Json

end ShortLink
