/-
  IPv4 addresses.

  The text of an address is four decimal numbers with points between them, each written without
  leading zeros.  A number is accepted only in the spelling that it is printed in, so each address
  has one text.
-/
import ShortLink.Decimal.Reading
import ShortLink.Text.Split

namespace ShortLink.Address

/-- An IPv4 address. -/
structure V4 where
  a : UInt8
  b : UInt8
  c : UInt8
  d : UInt8
  deriving DecidableEq, Repr

namespace V4

/-- The text of an octet. -/
def octetChars (n : UInt8) : List Char := Nat.toDigits 10 n.toNat

/-- The octet that a text writes. -/
def octet? (cs : List Char) : Option UInt8 :=
  match Decimal.digitsValue? cs with
  | some n => if n < 256 && Nat.toDigits 10 n == cs then some (UInt8.ofNat n) else none
  | none => none

/-- The text of an address. -/
def chars (x : V4) : List Char :=
  Text.joinWith '.' [octetChars x.a, octetChars x.b, octetChars x.c, octetChars x.d]

/-- The address that a text writes. -/
def ofChars? (cs : List Char) : Option V4 :=
  match Text.splitOn '.' cs with
  | [a, b, c, d] =>
    match octet? a, octet? b, octet? c, octet? d with
    | some a, some b, some c, some d => some ⟨a, b, c, d⟩
    | _, _, _, _ => none
  | _ => none

/-- The addresses of the machine itself, 127.0.0.0/8. -/
def isLoopback (x : V4) : Bool := x.a == 127

example : ofChars? "192.168.0.1".toList = some ⟨192, 168, 0, 1⟩ := by decide
example : ofChars? "192.168.00.1".toList = none := by decide
example : ofChars? "256.1.1.1".toList = none := by decide

end V4

end ShortLink.Address
