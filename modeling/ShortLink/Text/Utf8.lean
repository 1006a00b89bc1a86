/-
  UTF-8: bytes as text.

  `decodeFirst?` reads one well-formed character (shortest form, no surrogate, at most U+10FFFF) off
  the front of a byte sequence.  Three readings of a whole sequence are built on it:

    * `decode?` — strict: text if every byte belongs to a well-formed character;
    * `readings` — one entry for each character, and `none` for each byte outside every one, so that
      a reader of a textual format can still find its ASCII marks between bytes that are no text;
    * `decodeLossy` — each maximal ill-formed piece replaced by U+FFFD.
-/

namespace ShortLink.Text

/-- A sequence of bytes. -/
abbrev Bytes := List UInt8

/-- The bytes of a list of characters. -/
def encodeChars (cs : List Char) : Bytes := cs.flatMap String.utf8EncodeChar

/-- The bytes of a text. -/
def encode (s : String) : Bytes := encodeChars s.toList

/-- A continuation byte, `10xxxxxx`. -/
def isTail (b : UInt8) : Bool := 0x80 ≤ b && b ≤ 0xBF

/-- The second bytes that may follow the first byte of a character of three or four bytes: they
exclude the overlong forms, the surrogates and what lies above U+10FFFF. -/
def isSecond (first second : UInt8) : Bool :=
  isTail second &&
    (if first == 0xE0 then 0xA0 ≤ second
     else if first == 0xED then second ≤ 0x9F
     else if first == 0xF0 then 0x90 ≤ second
     else if first == 0xF4 then second ≤ 0x8F
     else true)

/-- The six payload bits of a continuation byte. -/
def tailBits (b : UInt8) : Nat := b.toNat % 64

/-- The first character of a byte sequence and the bytes after it, if it is well formed. -/
def decodeFirst? : Bytes → Option (Char × Bytes)
  | [] => none
  | a :: rest =>
    if a < 0x80 then some (Char.ofNat a.toNat, rest)
    else if a < 0xC2 then none
    else if a < 0xE0 then
      match rest with
      | b :: rest =>
        if isTail b then some (Char.ofNat (a.toNat % 32 * 64 + tailBits b), rest) else none
      | _ => none
    else if a < 0xF0 then
      match rest with
      | b :: c :: rest =>
        if isSecond a b && isTail c then
          some (Char.ofNat ((a.toNat % 16 * 64 + tailBits b) * 64 + tailBits c), rest)
        else none
      | _ => none
    else if a < 0xF5 then
      match rest with
      | b :: c :: d :: rest =>
        if isSecond a b && isTail c && isTail d then
          some (Char.ofNat
            (((a.toNat % 8 * 64 + tailBits b) * 64 + tailBits c) * 64 + tailBits d), rest)
        else none
      | _ => none
    else none

/-- Reading a character uses up at least one byte. -/
theorem length_of_decodeFirst? {bs rest : Bytes} {c : Char}
    (h : decodeFirst? bs = some (c, rest)) : rest.length < bs.length := by
  unfold decodeFirst? at h
  split at h
  · simp at h
  · repeat' split at h
    all_goals simp_all
    all_goals omega

/-- One entry for each character, and `none` for each byte outside every well-formed character. -/
def readingsFrom (found : List (Option Char)) (bs : Bytes) : List (Option Char) :=
  match bs with
  | [] => found.reverse
  | b :: bs =>
    match h : decodeFirst? (b :: bs) with
    | some (c, rest) =>
      have := length_of_decodeFirst? h
      readingsFrom (some c :: found) rest
    | none => readingsFrom (none :: found) bs
termination_by bs.length
decreasing_by all_goals simp only [List.length_cons] at *; omega

/-- The characters of a byte sequence, with `none` for each byte that belongs to none. -/
def readings (bs : Bytes) : List (Option Char) := readingsFrom [] bs

/-- The text that a byte sequence is the UTF-8 form of. -/
def decode? (bs : Bytes) : Option String :=
  ((readings bs).mapM id).map String.ofList

/-- How many bytes at the front of an ill-formed sequence are replaced together: the longest piece
that some well-formed character starts with, and one byte if there is none. -/
def illFormedLength : Bytes → Nat
  | a :: b :: rest =>
    if 0xE0 ≤ a && a < 0xF5 && isSecond a b then
      match rest with
      | c :: _ => if 0xF0 ≤ a && isTail c then 3 else 2
      | [] => 2
    else 1
  | _ => 1

/-- The text of a byte sequence, each maximal ill-formed piece replaced by U+FFFD. -/
def decodeLossyFrom (found : List Char) (bs : Bytes) : List Char :=
  match bs with
  | [] => found.reverse
  | b :: bs =>
    match h : decodeFirst? (b :: bs) with
    | some (c, rest) =>
      have := length_of_decodeFirst? h
      decodeLossyFrom (c :: found) rest
    | none => decodeLossyFrom ('\uFFFD' :: found) (bs.drop (illFormedLength (b :: bs) - 1))
termination_by bs.length
decreasing_by all_goals simp only [List.length_cons, List.length_drop] at *; omega

/-- The text of a byte sequence, each maximal ill-formed piece replaced by U+FFFD. -/
def decodeLossy (bs : Bytes) : String := String.ofList (decodeLossyFrom [] bs)

example : decode? [0x61, 0xC3, 0xA9] = some "aé" := by decide +kernel
example : decode? [0xC0, 0x80] = none := by decide +kernel
example : decode? [0xED, 0xA0, 0x80] = none := by decide +kernel
example : decodeLossy [0x61, 0xF0, 0x9F, 0x98, 0x62, 0xFF] = "a\uFFFDb\uFFFD" := by decide +kernel

end ShortLink.Text
