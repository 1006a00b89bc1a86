/-
  Canonical values.

  The canonical form of a value orders the members of each object by the code points of their names,
  of members with one name keeping the last, and writes each number in one way: an integer of 64
  bits by its digits, any other number by the shortest decimal that reads back as the binary64 number
  it stands for, always with a point or an exponent.
-/
import ShortLink.Json.Fields
import ShortLink.Decimal.Shortest

namespace ShortLink.Json

/-- The decimal digits of a number. -/
def digitsOf (n : Nat) : List (Fin 10) :=
  (Nat.toDigits 10 n).map fun c => Fin.ofNat 10 (c.toNat - '0'.toNat)

/-- The literal of a finite binary64 number: positional while the number is below `10 ^ 16` and not
below `10 ^ -5`, else with one digit before the point. -/
def Number.ofFloat (x : Float) : Number :=
  let negative := Decimal.Binary64.isNegative x
  let (n, e) := Decimal.shortest (Decimal.Binary64.magnitude x)
  let ds := digitsOf n
  let point := e + ds.length
  if n = 0 then ⟨negative, 0, [0], none⟩
  else if 0 ≤ e && point ≤ 16 then ⟨negative, n * Nat.pow 10 e.toNat, [0], none⟩
  else if 0 < point && point ≤ 16 then
    ⟨negative, n / Nat.pow 10 (-e).toNat, ds.drop point.toNat, none⟩
  else if -5 < point && point ≤ 0 then
    ⟨negative, 0, List.replicate (-point).toNat 0 ++ ds, none⟩
  else ⟨negative, value (ds.take 1), ds.drop 1, some (point - 1)⟩

/-- The canonical literal of a number: an integer that 64 bits hold, signed or not, or else the
nearby binary64 number. -/
def Number.canonical (n : Number) : Number :=
  match n.toInt? with
  | some i => if Int64.minValue.toInt ≤ i && i < UInt64.size then Number.ofInt i else fallback
  | none => fallback
where
  fallback : Number := (n.toFloat?.map Number.ofFloat).getD n

/-- Put a member into members ordered by name, in the place of one with the same name. -/
def insertMember (name : String) (v : Json) : List (String × Json) → List (String × Json)
  | [] => [(name, v)]
  | (n, w) :: ms =>
    if name = n then (name, v) :: ms
    else if name < n then (name, v) :: (n, w) :: ms
    else (n, w) :: insertMember name v ms

mutual

/-- The canonical form of a value. -/
def canonical : Json → Json
  | .number n => .number n.canonical
  | .array items => .array (canonicalItems items)
  | .object members => .object (canonicalMembers members [])
  | v => v

/-- The canonical forms of an array's items. -/
def canonicalItems : List Json → List Json
  | [] => []
  | v :: vs => canonical v :: canonicalItems vs

/-- Add the canonical forms of members to ordered members. -/
def canonicalMembers : List (String × Json) → List (String × Json) → List (String × Json)
  | [], done => done
  | (n, v) :: ms, done => canonicalMembers ms (insertMember n (canonical v) done)

end

end ShortLink.Json
