/-
  Percent-encoded bytes.

  A percent sign and two hexadecimal digits stand for a byte; any other byte, a percent sign without
  two digits included, stands for itself.
-/
import ShortLink.Text.Hex
import ShortLink.Text.Split
import ShortLink.Text.Utf8

namespace ShortLink.Text

/-- The hexadecimal value of a byte that is an ASCII digit. -/
def hexByte? (b : UInt8) : Option Nat := hexValue? (Char.ofNat b.toNat)

/-- The bytes that percent-encoded bytes stand for, after those already found. -/
def percentDecodeFrom (found : Bytes) : Bytes → Bytes
  | [] => found.reverse
  | 0x25 :: a :: b :: rest =>
    match hexByte? a, hexByte? b with
    | some high, some low => percentDecodeFrom (UInt8.ofNat (16 * high + low) :: found) rest
    | _, _ => percentDecodeFrom (0x25 :: found) (a :: b :: rest)
  | b :: rest => percentDecodeFrom (b :: found) rest

/-- The bytes that percent-encoded bytes stand for. -/
def percentDecode (bs : Bytes) : Bytes := percentDecodeFrom [] bs

/-- A name and a value from a query: a plus sign is a blank, and bytes that are no text are
replaced. -/
def formDecode (bs : Bytes) : String :=
  decodeLossy (percentDecode (bs.map fun b => if b = 0x2B then 0x20 else b))

/-- The names and values of a query. -/
def formFields (query : Bytes) : List (String × String) :=
  ((splitOn 0x26 query).filter fun piece => piece != []).map fun piece =>
    match cut? 0x3D piece with
    | some (name, value) => (formDecode name, formDecode value)
    | none => (formDecode piece, "")

example : percentDecode (encode "a%20%4") = encode "a %4" := by decide +kernel

end ShortLink.Text
