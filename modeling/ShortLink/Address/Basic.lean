/-
  Network addresses.

  An address is of one of two kinds, and each is the same address in whatever spelling it came: the
  texts of an address are read to the address, and an address is printed in one way.
-/
import ShortLink.Address.V6

namespace ShortLink

/-- A network address. -/
inductive Address where
  | v4 (address : Address.V4)
  | v6 (address : Address.V6)
  deriving DecidableEq, Repr

namespace Address

/-- The text of an address. -/
def chars : Address → List Char
  | .v4 x => x.chars
  | .v6 x => x.chars

/-- The text of an address. -/
def text (x : Address) : String := String.ofList x.chars

/-- The address that a text writes. -/
def ofChars? (cs : List Char) : Option Address :=
  match V4.ofChars? cs with
  | some x => some (.v4 x)
  | none => (V6.ofChars? cs).map .v6

/-- The address that a text writes. -/
def ofText? (s : String) : Option Address := ofChars? s.toList

/-- The machine itself. -/
def isLoopback : Address → Bool
  | .v4 x => x.isLoopback
  | .v6 x => x.isLoopback

/-- What is kept of an address's text: a text with a colon is an IPv6 address and is replaced
altogether, any other loses what follows its last point. -/
def mask (s : String) : String :=
  if s.toList.contains ':' then "IPv6 (Masked)"
  else match Text.cutLast? '.' s.toList with
    | some (before, _) => String.ofList (before ++ ['.', '0'])
    | none => s

example : mask "192.168.1.55" = "192.168.1.0" := by decide
example : mask "::ffff:1.2.3.4" = "IPv6 (Masked)" := by decide

end Address

end ShortLink
