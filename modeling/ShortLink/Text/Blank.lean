/-
  Blank characters and trimming.

  `isBlank` is the White_Space property of the Unicode Character Database: 25 code points, which is
  more than the ASCII blanks (`Char.isWhitespace`) and more than any protocol's own idea of a space.
  `trim` removes the longest blank run at each end of a text; it is computed on the list of
  characters, so that its laws are laws of `List.dropWhile`.
-/

namespace ShortLink.Text

/-- The White_Space property, as ranges of code points. -/
def blankRanges : List (Nat × Nat) :=
  [(0x09, 0x0D), (0x20, 0x20), (0x85, 0x85), (0xA0, 0xA0), (0x1680, 0x1680), (0x2000, 0x200A),
   (0x2028, 0x2029), (0x202F, 0x202F), (0x205F, 0x205F), (0x3000, 0x3000)]

/-- A character with the White_Space property. -/
def isBlank (c : Char) : Bool :=
  blankRanges.any fun r => r.1 ≤ c.toNat && c.toNat ≤ r.2

/-- Drop what satisfies `p` from the end of a list. -/
def dropEndWhile {α : Type} (p : α → Bool) (xs : List α) : List α :=
  (xs.reverse.dropWhile p).reverse

/-- Drop what satisfies `p` from both ends of a list. -/
def dropAround {α : Type} (p : α → Bool) (xs : List α) : List α :=
  dropEndWhile p (xs.dropWhile p)

/-- Blank characters removed from both ends. -/
def trimChars (cs : List Char) : List Char := dropAround isBlank cs

/-- Blank characters removed from both ends of a text. -/
def trim (s : String) : String := String.ofList (trimChars s.toList)

example : trim "\u00a0 x y\u2028\n" = "x y" := by decide
example : trim " \t" = "" := by decide

end ShortLink.Text
