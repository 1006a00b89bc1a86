/-
  Hexadecimal digits.
-/

namespace ShortLink.Text

/-- The value of a hexadecimal digit, in either case. -/
def hexValue? (c : Char) : Option Nat :=
  if '0' ≤ c && c ≤ '9' then some (c.toNat - '0'.toNat)
  else if 'a' ≤ c && c ≤ 'f' then some (c.toNat - 'a'.toNat + 10)
  else if 'A' ≤ c && c ≤ 'F' then some (c.toNat - 'A'.toNat + 10)
  else none

/-- The value of a decimal digit. -/
def digitValue? (c : Char) : Option Nat :=
  if '0' ≤ c && c ≤ '9' then some (c.toNat - '0'.toNat) else none

/-- The lower-case digit of a value below sixteen. -/
def hexDigit (n : Nat) : Char :=
  if n < 10 then Char.ofNat ('0'.toNat + n) else Char.ofNat ('a'.toNat + (n - 10))

/-- The value that a list of hexadecimal digits writes. -/
def hexNumber? (cs : List Char) : Option Nat :=
  cs.foldlM (fun n c => (hexValue? c).map (16 * n + ·)) 0

/-- `width` lower-case hexadecimal digits of `n`, the most significant first. -/
def hexDigits : (width : Nat) → (n : Nat) → List Char
  | 0, _ => []
  | width + 1, n => hexDigits width (n / 16) ++ [hexDigit (n % 16)]

/-- The two digits of each byte. -/
def hexOfBytes (bs : List UInt8) : String :=
  String.ofList (bs.flatMap fun b => hexDigits 2 b.toNat)

/-- The bytes that pairs of hexadecimal digits write. -/
def bytesOfHexFrom (found : List UInt8) : List Char → Option (List UInt8)
  | [] => some found.reverse
  | [_] => none
  | a :: b :: rest =>
    match hexValue? a, hexValue? b with
    | some high, some low => bytesOfHexFrom (UInt8.ofNat (16 * high + low) :: found) rest
    | _, _ => none

/-- The bytes that a text of hexadecimal digit pairs writes. -/
def bytesOfHex? (s : String) : Option (List UInt8) := bytesOfHexFrom [] s.toList

theorem hexValue?_hexDigit : ∀ n : Fin 16, hexValue? (hexDigit n.1) = some n.1 := by decide

example : hexOfBytes [0, 255] = "00ff" := by decide
example : bytesOfHex? "00fF" = some [0, 255] := by decide

end ShortLink.Text
