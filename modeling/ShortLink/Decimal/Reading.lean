/-
  Reading decimal numbers.

  A decimal number is written as an optional sign, digits with an optional point among or around
  them, and an optional exponent; infinity and "not a number" have names, in any case.  Its value is
  exact: `digits · 10 ^ exponent`.  `toFloat` rounds that value once, so that the nearest binary64
  number is read, whatever the number of digits.

  Unsigned integers are read separately: an optional plus sign and digits, below a bound.
-/
import ShortLink.Decimal.Binary64
import ShortLink.Text.Hex

namespace ShortLink.Decimal

open ShortLink.Text (digitValue?)

/-- Why a text is no number of the kind that was asked for. -/
inductive Fault where
  | emptyInteger
  | invalidDigit
  | tooLarge
  | tooSmall
  | emptyFloat
  | invalidFloat
  deriving DecidableEq, Repr

/-- The wording of a fault. -/
def Fault.message : Fault → String
  | .emptyInteger => "cannot parse integer from empty string"
  | .invalidDigit => "invalid digit found in string"
  | .tooLarge => "number too large to fit in target type"
  | .tooSmall => "number too small to fit in target type"
  | .emptyFloat => "cannot parse float from empty string"
  | .invalidFloat => "invalid float literal"

/-! ## Integers -/

/-- The value of a list of digits, if they are all digits. -/
def digitsValue? (cs : List Char) : Option Nat :=
  cs.foldlM (fun n c => (digitValue? c).map (10 * n + ·)) 0

/-- Whether one of the digits before the first character that is none already takes the value to the
bound: the digits are read from the left, and the first fault ends the reading. -/
def overflowsFirst (bound : Nat) : (value : Nat) → List Char → Bool
  | _, [] => false
  | value, c :: cs =>
    match digitValue? c with
    | none => false
    | some d => if bound ≤ 10 * value + d then true else overflowsFirst bound (10 * value + d) cs

/-- The natural number that a list of digits writes, if it is below the bound. -/
def naturalBelow (bound : Nat) (cs : List Char) : Except Fault Nat :=
  if overflowsFirst bound 0 cs then .error .tooLarge
  else match digitsValue? cs with
    | some n => .ok n
    | none => .error .invalidDigit

/-- An unsigned integer below the bound: an optional plus sign, then digits. A sign alone has an
invalid digit. -/
def unsignedBelow (bound : Nat) (s : String) : Except Fault Nat :=
  match s.toList with
  | [] => .error .emptyInteger
  | ['+'] | ['-'] => .error .invalidDigit
  | '+' :: cs => naturalBelow bound cs
  | cs => naturalBelow bound cs

/-- A signed integer of 64 bits: an optional sign, then digits. -/
def signed64 (s : String) : Except Fault Int :=
  match s.toList with
  | [] => .error .emptyInteger
  | ['+'] | ['-'] => .error .invalidDigit
  | '+' :: cs => (naturalBelow (Nat.pow 2 63) cs).map Int.ofNat
  | '-' :: cs =>
    match naturalBelow (Nat.pow 2 63 + 1) cs with
    | .ok n => .ok (-(n : Int))
    | .error .tooLarge => .error .tooSmall
    | .error fault => .error fault
  | cs => (naturalBelow (Nat.pow 2 63) cs).map Int.ofNat

/-! ## Numbers with a point -/

/-- What a number's text says. -/
inductive Numeral where
  /-- `digits · 10 ^ exponent`, with a sign. -/
  | finite (negative : Bool) (digits : Nat) (exponent : Int)
  | infinite (negative : Bool)
  | notANumber (negative : Bool)
  deriving DecidableEq, Repr

/-- The leading digits of a text and the rest. -/
def spanDigits (cs : List Char) : List Char × List Char :=
  (cs.takeWhile Char.isDigit, cs.dropWhile Char.isDigit)

/-- An exponent: a sign if there is one, and at least one digit. -/
def exponent? : List Char → Option Int
  | '+' :: cs => if cs.isEmpty then none else (digitsValue? cs).map Int.ofNat
  | '-' :: cs => if cs.isEmpty then none else (digitsValue? cs).map fun n => -(n : Int)
  | cs => if cs.isEmpty then none else (digitsValue? cs).map Int.ofNat

/-- The exponent that follows the digits; none is zero. -/
def exponentPart? : List Char → Option Int
  | [] => some 0
  | c :: cs => if c = 'e' || c = 'E' then exponent? cs else none

/-- A number without its sign. -/
def unsignedNumeral? (negative : Bool) (cs : List Char) : Option Numeral :=
  let name := cs.map Char.toLower
  if name = "inf".toList || name = "infinity".toList then some (.infinite negative)
  else if name = "nan".toList then some (.notANumber negative)
  else
    let (whole, rest) := spanDigits cs
    let (fraction, rest) := match rest with
      | '.' :: rest => spanDigits rest
      | rest => ([], rest)
    if whole.isEmpty && fraction.isEmpty then none
    else do
      let exponent ← exponentPart? rest
      let digits ← digitsValue? (whole ++ fraction)
      some (.finite negative digits (exponent - fraction.length))

/-- What a number's text says, if it is a number's. -/
def numeral? : List Char → Option Numeral
  | '+' :: cs => unsignedNumeral? false cs
  | '-' :: cs => unsignedNumeral? true cs
  | cs => unsignedNumeral? false cs

/-- The bits of the number nearest to `digits · 10 ^ exponent`. Exponents so far out that every
number with that many digits is infinite or zero are not expanded. -/
def nearestBits (digits : Nat) (exponent : Int) : Nat :=
  if digits = 0 then 0
  else
    let top := exponent + digitCount 10 digits
    if 310 < top then Binary64.infinityBits
    else if top < -330 then 0
    else if 0 ≤ exponent then Binary64.ofFraction (digits * Nat.pow 10 exponent.toNat) 1
    else Binary64.ofFraction digits (Nat.pow 10 (-exponent).toNat)

/-- The nearest binary64 number. -/
def Numeral.toFloat : Numeral → Float
  | .finite negative digits exponent => Binary64.toFloat negative (nearestBits digits exponent)
  | .infinite negative => Binary64.toFloat negative Binary64.infinityBits
  | .notANumber _ => Float.ofBits 0x7FF8000000000000

/-- The binary64 number that a text writes. -/
def readFloat (s : String) : Except Fault Float :=
  if s.isEmpty then .error .emptyFloat
  else match numeral? s.toList with
    | some numeral => .ok numeral.toFloat
    | none => .error .invalidFloat

example : unsignedBelow UInt16.size "+0065535" = .ok 65535 := by rfl
example : unsignedBelow UInt16.size "65536x" = .error .tooLarge := by rfl
example : unsignedBelow UInt16.size "-1" = .error .invalidDigit := by rfl
example : numeral? "-5.e-1".toList = some (.finite true 5 (-1)) := by decide

end ShortLink.Decimal
