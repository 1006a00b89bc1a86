/-
  Records in JSON.

  A record is read from an object with its fields in any order, or from an array with a value for
  each field in the declared order.  An object may hold members that are no fields, and these may
  repeat; a field that repeats is refused.  `Decoder`s read the single values: integers of a width,
  numbers, strings, truth values, and what may be null or missing.
-/
import ShortLink.Json.Reader
import ShortLink.Decimal.Reading

namespace ShortLink.Json

/-- Reads a value. -/
abbrev Decoder (α : Type) := Json → Option α

/-- The value of a member. -/
def member? (name : String) (members : List (String × Json)) : Option Json :=
  (members.find? fun m => m.1 == name).map (·.2)

/-- How many members have a name. -/
def memberCount (name : String) (members : List (String × Json)) : Nat :=
  members.countP fun m => m.1 == name

/-- The values of a record's fields, in the declared order; a field may be missing from an object,
not from an array. -/
def fields? (names : List String) : Json → Option (List (Option Json))
  | .object members =>
    if names.all fun n => memberCount n members ≤ 1 then
      some (names.map fun n => member? n members)
    else none
  | .array items => if items.length = names.length then some (items.map some) else none
  | _ => none

/-- A field that must be there. -/
def required {α : Type} (decode : Decoder α) (field : Option Json) : Option α := field.bind decode

/-- A field that may be missing or null. -/
def optional {α : Type} (decode : Decoder α) : Option Json → Option (Option α)
  | none => some none
  | some .null => some none
  | some v => (decode v).map some

/-- A field that may be missing, not null. -/
def withDefault {α : Type} (default : α) (decode : Decoder α) : Option Json → Option α
  | none => some default
  | some v => decode v

namespace Decoder

/-- A string. -/
def string : Decoder String
  | .string s => some s
  | _ => none

/-- A truth value. -/
def bool : Decoder Bool
  | .bool b => some b
  | _ => none

/-- An integer between two bounds. -/
def intWithin (low high : Int) : Decoder Int
  | .number n => n.toInt?.bind fun i => if low ≤ i && i ≤ high then some i else none
  | _ => none

/-- A signed integer of 64 bits. -/
def int64 : Decoder Int64 := fun v =>
  (intWithin Int64.minValue.toInt Int64.maxValue.toInt v).map Int64.ofInt

/-- A natural number below a bound. -/
def natBelow (bound : Nat) : Decoder Nat := fun v => (intWithin 0 (bound - 1) v).map Int.toNat

/-- One of a list of named values, written as its name or as an object from the name to null. -/
def named {α : Type} (names : List (String × α)) : Decoder α
  | .string s => names.lookup s
  | .object [(s, .null)] => names.lookup s
  | _ => none

/-- An array of values of one kind. -/
def list {α : Type} (decode : Decoder α) : Decoder (List α)
  | .array items => items.mapM decode
  | _ => none

end Decoder

/-! ## Numbers as binary floating point

A literal with a point, an exponent or more digits than an integer holds is read by its leading
digits that fit in 64 bits, scaled by a power of ten in floating point. The result is near the
literal's value and not always the nearest number; what is too large is refused.
-/

/-- Take in digits while the number they write stays below `2 ^ 64`: the number, and how many digits
were left. -/
def leadingDigits : (n : Nat) → List Nat → Nat × Nat
  | n, [] => (n, 0)
  | n, d :: ds =>
    if 10 * n + d < UInt64.size then leadingDigits (10 * n + d) ds else (n, ds.length + 1)

/-- `x · 10 ^ e`, or nothing if it is infinite; the scaling takes one step of at most 308 places at
a time. -/
def scaled? (x : Float) (e : Int) : Option Float :=
  if e.natAbs ≤ 308 then
    let power := Decimal.Binary64.toFloat false (Decimal.nearestBits 1 e.natAbs)
    if 0 ≤ e then
      if (x * power).isInf then none else some (x * power)
    else some (x / power)
  else if x == 0 then some x
  else if 0 ≤ e then none
  else scaled? (x / Decimal.Binary64.toFloat false (Decimal.nearestBits 1 308)) (e + 308)
termination_by e.natAbs

/-- A number as binary floating point. -/
def Number.toFloat? (n : Number) : Option Float :=
  let sign (x : Float) : Float := if n.negative then -x else x
  let wholeDigits := (Nat.toDigits 10 n.whole).map fun c => c.toNat - '0'.toNat
  let (lead, dropped) := leadingDigits 0 wholeDigits
  let (lead, left) := leadingDigits lead (n.fraction.map (·.1))
  let places : Int := (dropped : Int) - (n.fraction.length - left : Nat)
  let exponent := n.exponent.getD 0
  if Nat.pow 2 31 ≤ exponent.natAbs then
    if lead ≠ 0 && 0 ≤ exponent then none else some (sign 0)
  else (scaled? (UInt64.ofNat lead).toFloat (places + exponent)).map sign

/-- A number as binary floating point. -/
def Decoder.float : Decoder Float
  | .number n => n.toFloat?
  | _ => none

end ShortLink.Json
