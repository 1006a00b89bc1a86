/-
  Rounding a fraction to binary64.

  A finite binary64 number is `m · 2 ^ q` with `m < 2 ^ 53` and `q ≥ -1074`.  `ofFraction` rounds an
  exact fraction of natural numbers to the nearest of them, a tie to the even `m`, and gives the
  number's bits; what rounds beyond the largest finite number is infinite.  All of it is arithmetic
  on natural numbers.
-/

namespace ShortLink.Decimal

/-- The natural number nearest to `num / den`, of two equally near ones the even one. -/
def roundDiv (num den : Nat) : Nat :=
  let q := num / den
  let r := num % den
  if 2 * r < den then q
  else if den < 2 * r then q + 1
  else q + q % 2

/-- Whether `base ^ e ≤ num / den`. -/
def powerLe (base : Nat) (e : Int) (num den : Nat) : Bool :=
  if 0 ≤ e then Nat.pow base e.toNat * den ≤ num else den ≤ num * Nat.pow base (-e).toNat

/-- The number of digits of `n` in a base. -/
def digitCount (base n : Nat) : Nat :=
  if base = 2 then n.log2 + 1 else (Nat.toDigits base n).length

/-- The greatest `e` with `base ^ e ≤ num / den`, for positive `num` and `den`: the difference of
the digit counts, or one less. -/
def floorLog (base num den : Nat) : Int :=
  let e : Int := digitCount base num - digitCount base den
  if powerLe base e num den then e else e - 1

namespace Binary64

/-- The bits of positive infinity. -/
def infinityBits : Nat := 0x7FF * Nat.pow 2 52

/-- The bits of the number nearest to `num / den`. -/
def ofFraction (num den : Nat) : Nat :=
  if num = 0 then 0
  else
    let q : Int := max (floorLog 2 num den - 52) (-1074)
    let m :=
      if 0 ≤ q then roundDiv num (den * Nat.pow 2 q.toNat)
      else roundDiv (num * Nat.pow 2 (-q).toNat) den
    let bits :=
      if m < Nat.pow 2 52 then m else (q + 1075).toNat * Nat.pow 2 52 + (m - Nat.pow 2 52)
    min bits infinityBits

/-- The number with the given sign and magnitude bits. -/
def toFloat (negative : Bool) (magnitude : Nat) : Float :=
  Float.ofBits (UInt64.ofNat (if negative then Nat.pow 2 63 + magnitude else magnitude))

/-- The sign bit. -/
def isNegative (x : Float) : Bool := Nat.pow 2 63 ≤ x.toBits.toNat

/-- The bits without the sign. -/
def magnitude (x : Float) : Nat := x.toBits.toNat % Nat.pow 2 63

/-- The integer `m` and the exponent `q` of a finite number `m · 2 ^ q`, given its magnitude. -/
def unpack (bits : Nat) : Nat × Int :=
  let e : Nat := bits / Nat.pow 2 52
  if e = 0 then (bits, -1074) else (bits % Nat.pow 2 52 + Nat.pow 2 52, Int.ofNat e - 1075)

end Binary64

example : roundDiv 5 2 = 2 ∧ roundDiv 7 2 = 4 ∧ roundDiv 8 3 = 3 := by decide

end ShortLink.Decimal
