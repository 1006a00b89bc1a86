/-
  IPv6 addresses.

  An address is eight groups of sixteen bits.  Its text writes groups of one to four hexadecimal
  digits with colons between them; a double colon stands for at least one group of zero, and the last
  two groups may be written as an IPv4 address.  Printing uses lower case, puts the double colon in
  the place of the first longest run of at least two groups of zero, and writes the last two groups
  of an IPv4-mapped address as the IPv4 address.
-/
import ShortLink.Address.V4
import ShortLink.Text.Hex

namespace ShortLink.Address

/-- An IPv6 address. -/
structure V6 where
  groups : List UInt16
  length_groups : groups.length = 8
  deriving DecidableEq, Repr

namespace V6

/-! ## Printing -/

/-- The text of a group. -/
def groupChars (g : UInt16) : List Char := Nat.toDigits 16 g.toNat

/-- How many groups at the front are zero. -/
def zeroRun (gs : List UInt16) : Nat := (gs.takeWhile (· == 0)).length

/-- Where the first longest run of zero groups starts and how long it is; the list starts at group
number `i`. -/
def longestRun (i : Nat) : List UInt16 → Nat × Nat
  | [] => (i, 0)
  | g :: gs =>
    let later := longestRun (i + 1) gs
    if zeroRun (g :: gs) < later.2 then later else (i, zeroRun (g :: gs))

/-- Groups with colons between them. -/
def joined (gs : List UInt16) : List Char := Text.joinWith ':' (gs.map groupChars)

/-- The groups of an address, the longest run of zero groups left out. -/
def compressed (gs : List UInt16) : List Char :=
  let (start, len) := longestRun 0 gs
  if 2 ≤ len then joined (gs.take start) ++ ':' :: ':' :: joined (gs.drop (start + len))
  else joined gs

/-- The IPv4 address in two groups. -/
def v4Of (high low : UInt16) : V4 :=
  ⟨(high >>> 8).toUInt8, high.toUInt8, (low >>> 8).toUInt8, low.toUInt8⟩

/-- The two groups of an IPv4 address. -/
def groupsOfV4 (x : V4) : List UInt16 :=
  [x.a.toUInt16 <<< 8 ||| x.b.toUInt16, x.c.toUInt16 <<< 8 ||| x.d.toUInt16]

/-- The IPv4 address that is mapped to this address, if one is. -/
def mapped? (x : V6) : Option V4 :=
  match x.groups with
  | [0, 0, 0, 0, 0, 0xFFFF, high, low] => some (v4Of high low)
  | _ => none

/-- The text of an address. -/
def chars (x : V6) : List Char :=
  match x.mapped? with
  | some y => "::ffff:".toList ++ y.chars
  | none => compressed x.groups

/-! ## Reading -/

/-- The group that a text writes. -/
def group? (cs : List Char) : Option UInt16 :=
  if 1 ≤ cs.length && cs.length ≤ 4 then (Text.hexNumber? cs).map UInt16.ofNat else none

/-- Groups of hexadecimal digits. -/
def groups? (pieces : List (List Char)) : Option (List UInt16) := pieces.mapM group?

/-- Groups of hexadecimal digits, the last two of which may be an IPv4 address. -/
def tail? : List (List Char) → Option (List UInt16)
  | [] => some []
  | [piece] =>
    match V4.ofChars? piece with
    | some x => some (groupsOfV4 x)
    | none => (group? piece).map ([·])
  | piece :: pieces =>
    match group? piece, tail? pieces with
    | some g, some gs => some (g :: gs)
    | _, _ => none

/-- What stands before and after the first double colon. -/
def cutDouble? : List Char → Option (List Char × List Char)
  | ':' :: ':' :: cs => some ([], cs)
  | [] => none
  | c :: cs => (cutDouble? cs).map fun (before, after) => (c :: before, after)

/-- The pieces between colons; an empty text has none. -/
def piecesOf (cs : List Char) : List (List Char) := if cs = [] then [] else Text.splitOn ':' cs

/-- The groups that a text writes. -/
def groupsOf? (cs : List Char) : Option (List UInt16) :=
  match cutDouble? cs with
  | none => tail? (Text.splitOn ':' cs)
  | some (before, after) =>
    match groups? (piecesOf before), tail? (piecesOf after) with
    | some head, some tail =>
      if head.length + tail.length ≤ 7 then
        some (head ++ List.replicate (8 - (head.length + tail.length)) 0 ++ tail)
      else none
    | _, _ => none

/-- The address that a text writes. -/
def ofChars? (cs : List Char) : Option V6 :=
  match groupsOf? cs with
  | some gs => if h : gs.length = 8 then some ⟨gs, h⟩ else none
  | none => none

/-- The address of the machine itself, ::1. -/
def isLoopback (x : V6) : Bool := x.groups == [0, 0, 0, 0, 0, 0, 0, 1]

example : (ofChars? "2001:DB8:0::1".toList).map chars = some "2001:db8::1".toList := by decide
example : (ofChars? "::1.2.3.4".toList).map chars = some "::102:304".toList := by decide
example : (ofChars? "::FFFF:1.2.3.4".toList).map chars = some "::ffff:1.2.3.4".toList := by decide
example : (ofChars? "1:0:0:2:0:0:0:3".toList).map chars = some "1:0:0:2::3".toList := by decide
example : (ofChars? "1:2:3:4:5:6:7::".toList).map chars = some "1:2:3:4:5:6:7:0".toList := by decide
example : ofChars? "1:2:3:4:5:6:7:8::".toList = none := by decide
example : ofChars? "1.2.3.4::".toList = none := by decide
example : ofChars? ":::".toList = none := by decide

end V6

end ShortLink.Address
