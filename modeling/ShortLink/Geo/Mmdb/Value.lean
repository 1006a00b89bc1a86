/-
  Values in a MaxMind DB file.

  A section of the file holds values one after the other.  A value begins with a byte that tells its
  type and size; a pointer stands for the value at another place of the section and is not followed
  when it is read.  A value whose size does not fit its type is `malformed`: it can be passed over,
  not used.
-/
import ShortLink.Text.Utf8

namespace ShortLink.Geo.Mmdb

/-- A value. -/
inductive Value where
  | pointer (target : Nat)
  | string (bytes : Text.Bytes)
  | bytes (bytes : Text.Bytes)
  /-- A floating point number; nobody asks which. -/
  | real
  /-- An unsigned integer of at most 64 bits. -/
  | unsigned (n : Nat)
  | signed (n : Int)
  /-- An unsigned integer of 128 bits. -/
  | wide
  | bool (value : Bool)
  | map (entries : List (Value × Value))
  | array (items : List Value)
  | malformed
  deriving Repr, Inhabited

/-- A part of a file: the bytes from a place on. -/
structure Section where
  bytes : ByteArray
  start : Nat

namespace Section

/-- The byte at a place of the section. -/
def byte? (s : Section) (i : Nat) : Option UInt8 := s.bytes[s.start + i]?

/-- So many bytes from a place on. -/
def slice? (s : Section) (i n : Nat) : Option Text.Bytes :=
  if s.start + i + n ≤ s.bytes.size then
    some ((List.range n).filterMap fun k => s.byte? (i + k))
  else none

/-- The number that so many bytes from a place on write, the most significant byte first. -/
def number? (s : Section) (i n : Nat) : Option Nat :=
  (s.slice? i n).map fun bs => bs.foldl (fun m b => 256 * m + b.toNat) 0

end Section

/-- The size that the first byte tells, and where the value goes on: sizes from 29 on take further
bytes. -/
def size? (s : Section) (first : Nat) (i : Nat) : Option (Nat × Nat) :=
  match first % 32 with
  | 29 => (s.number? i 1).map fun n => (29 + n, i + 1)
  | 30 => (s.number? i 2).map fun n => (285 + n, i + 2)
  | 31 => (s.number? i 3).map fun n => (65821 + n, i + 3)
  | n => some (n, i)

/-- The pointer that starts with a byte, and where it ends. -/
def pointer? (s : Section) (first : Nat) (i : Nat) : Option (Value × Nat) :=
  let high := first % 8
  match first / 8 % 4 with
  | 0 => (s.number? i 1).map fun n => (.pointer (high * 0x100 + n), i + 1)
  | 1 => (s.number? i 2).map fun n => (.pointer (high * 0x10000 + n + 2048), i + 2)
  | 2 => (s.number? i 3).map fun n => (.pointer (high * 0x1000000 + n + 526336), i + 3)
  | _ => (s.number? i 4).map fun n => (.pointer n, i + 4)

/-- An integer of at most so many bytes. -/
def unsigned? (s : Section) (most i size : Nat) : Option Value :=
  (s.number? i size).map fun n => if size ≤ most then .unsigned n else .malformed

/-- A signed integer; one of fewer than four bytes is not negative. -/
def signed? (s : Section) (i size : Nat) : Option Value :=
  (s.number? i size).map fun n =>
    if 4 < size then .malformed
    else .signed (if 0x80000000 ≤ n then (n : Int) - 0x100000000 else n)

/-- A value of a type other than pointers and containers, at a place and of a size. -/
def leaf? (s : Section) (type i size : Nat) : Option (Value × Nat) :=
  let ofSize (v : Value) (right : Bool) : Option Value :=
    (s.slice? i size).map fun _ => if right then v else .malformed
  let value : Option Value :=
    match type with
    | 2 => (s.slice? i size).map .string
    | 3 => ofSize .real (size == 8)
    | 4 => (s.slice? i size).map .bytes
    | 5 => unsigned? s 2 i size
    | 6 => unsigned? s 4 i size
    | 8 => signed? s i size
    | 9 => unsigned? s 8 i size
    | 10 => ofSize .wide (size ≤ 16)
    | 15 => ofSize .real (size == 4)
    | _ => none
  value.map fun v => (v, i + size)

/-- The type and size of the value at a place that is no pointer, and where it goes on. -/
def header? (s : Section) (first i : Nat) : Option (Nat × Nat × Nat) := do
  let (type, i) ←
    if first / 32 = 0 then (s.byte? i).map fun b => (b.toNat + 7, i + 1)
    else some (first / 32, i)
  let (size, i) ← size? s first i
  return (type, size, i)

mutual

/-- The value at a place, and where it ends. Every value takes a byte at least, so that `fuel` needs
to be no more than the bytes there are. -/
def value? (s : Section) : (fuel : Nat) → (i : Nat) → Option (Value × Nat)
  | 0, _ => none
  | fuel + 1, i =>
    match s.byte? i with
    | none => none
    | some b =>
      if b.toNat / 32 = 1 then pointer? s b.toNat (i + 1)
      else
        match header? s b.toNat (i + 1) with
        | none => none
        | some (7, size, i) => (entries? s fuel size i []).map fun (es, i) => (.map es, i)
        | some (11, size, i) => (items? s fuel size i []).map fun (vs, i) => (.array vs, i)
        | some (14, size, i) => some (if size ≤ 1 then .bool (size == 1) else .malformed, i)
        | some (type, size, i) => leaf? s type i size

/-- So many entries of a map. -/
def entries? (s : Section) :
    (fuel : Nat) → (count i : Nat) → List (Value × Value) → Option (List (Value × Value) × Nat)
  | _, 0, i, done => some (done.reverse, i)
  | 0, _ + 1, _, _ => none
  | fuel + 1, count + 1, i, done =>
    match value? s fuel i with
    | none => none
    | some (key, i) =>
      match value? s fuel i with
      | none => none
      | some (v, i) => entries? s fuel count i ((key, v) :: done)

/-- So many items of an array. -/
def items? (s : Section) :
    (fuel : Nat) → (count i : Nat) → List Value → Option (List Value × Nat)
  | _, 0, i, done => some (done.reverse, i)
  | 0, _ + 1, _, _ => none
  | fuel + 1, count + 1, i, done =>
    match value? s fuel i with
    | none => none
    | some (v, i) => items? s fuel count i (v :: done)

end

namespace Section

/-- The value at a place. -/
def valueAt? (s : Section) (i : Nat) : Option Value :=
  (value? s (2 * s.bytes.size + 2) i).map (·.1)

/-- How many pointers may stand in a row. -/
def pointerLimit : Nat := 512

/-- The value that a value stands for, with pointers followed. -/
def follow? (s : Section) : (limit : Nat) → Value → Option Value
  | 0, _ => none
  | limit + 1, .pointer target => (s.valueAt? target).bind (s.follow? limit)
  | _ + 1, v => some v

/-- The value that a value stands for. -/
def resolve? (s : Section) (v : Value) : Option Value := s.follow? pointerLimit v

end Section

end ShortLink.Geo.Mmdb
