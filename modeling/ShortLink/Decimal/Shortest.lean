/-
  The shortest decimal that reads back.

  The real numbers that round to a finite binary64 number `m · 2 ^ q` form an interval around it,
  with its ends exactly if `m` is even.  Of the decimals in that interval the one with the fewest
  digits is written, of several the nearest.  The search asks for 1, 2, … digits whether one of the
  two neighbours of the number on that decimal grid lies in the interval; seventeen digits always
  suffice.  All of it is exact arithmetic on natural numbers.
-/
import ShortLink.Decimal.Binary64

namespace ShortLink.Decimal

/-- Numbers in units of `2 ^ (q - 2)`, and whether the ends belong to the interval. -/
structure Interval where
  low : Nat
  value : Nat
  high : Nat
  closed : Bool
  deriving DecidableEq, Repr

/-- The interval of what rounds to `m · 2 ^ q`. Below a power of two the neighbours are half as far
apart, except below the smallest one. -/
def Interval.around (m : Nat) (q : Int) : Interval where
  low := if m = Nat.pow 2 52 && -1074 < q then 4 * m - 1 else 4 * m - 2
  value := 4 * m
  high := 4 * m + 2
  closed := m % 2 = 0

/-- Whether `digits · 10 ^ e` lies in the interval, where `num / den` is the unit of the interval
divided by `10 ^ e`. -/
def Interval.holds (i : Interval) (num den digits : Nat) : Bool :=
  if i.closed then i.low * num ≤ digits * den && digits * den ≤ i.high * num
  else i.low * num < digits * den && digits * den < i.high * num

/-- The decimal with the grid `10 ^ e` that reads back: of the two neighbours of the value the
nearer one in the interval, in a tie the even one. -/
def Interval.onGrid? (i : Interval) (num den : Nat) : Option Nat :=
  let below := i.value * num / den
  let near := roundDiv (i.value * num) den
  if i.holds num den near then some near
  else if i.holds num den below then some below
  else if i.holds num den (below + 1) then some (below + 1)
  else none

/-- The unit `2 ^ (q - 2)` divided by `10 ^ e`, as a fraction. -/
def unitOverPower (q e : Int) : Nat × Nat :=
  let binary : Nat × Nat :=
    if 2 ≤ q then (Nat.pow 2 (q - 2).toNat, 1) else (1, Nat.pow 2 (2 - q).toNat)
  if 0 ≤ e then (binary.1, binary.2 * Nat.pow 10 e.toNat)
  else (binary.1 * Nat.pow 10 (-e).toNat, binary.2)

/-- Search the grids from `top` downwards, `steps` of them. -/
def Interval.search (i : Interval) (q : Int) : (steps : Nat) → (e : Int) → Nat × Int
  | 0, e => (i.value * (unitOverPower q e).1 / (unitOverPower q e).2, e)
  | steps + 1, e =>
    match i.onGrid? (unitOverPower q e).1 (unitOverPower q e).2 with
    | some digits => (digits, e)
    | none => i.search q steps (e - 1)

/-- The digits and the exponent of the shortest decimal that reads back as the number with the given
magnitude bits. -/
def shortest (bits : Nat) : Nat × Int :=
  if bits = 0 then (0, 0)
  else
    let (m, q) := Binary64.unpack bits
    let unit : Nat × Nat := unitOverPower q 0
    let top := floorLog 10 (4 * m * unit.1) unit.2
    (Interval.around m q).search q 18 (top + 1)

/-! ## Layout -/

/-- Decimal digits of a number. -/
def digitChars (n : Nat) : List Char := Nat.toDigits 10 n

/-- `digits · 10 ^ exponent` with every digit written and no exponent. -/
def positional (digits : Nat) (exponent : Int) : List Char :=
  let ds := digitChars digits
  if 0 ≤ exponent then ds ++ List.replicate exponent.toNat '0'
  else
    let places := (-exponent).toNat
    if ds.length ≤ places then '0' :: '.' :: (List.replicate (places - ds.length) '0' ++ ds)
    else ds.take (ds.length - places) ++ '.' :: ds.drop (ds.length - places)

/-- A number without an exponent: the shortest digits that read back, no point after an integer, and
names for what is not finite. -/
def showPlain (x : Float) : String :=
  let sign := if Binary64.isNegative x then "-" else ""
  let bits := Binary64.magnitude x
  if Binary64.infinityBits < bits then "NaN"
  else if bits = Binary64.infinityBits then sign ++ "inf"
  else
    let (digits, exponent) := shortest bits
    sign ++ String.ofList (if digits = 0 then ['0'] else positional digits exponent)

end ShortLink.Decimal
