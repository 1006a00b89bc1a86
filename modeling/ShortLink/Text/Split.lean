/-
  Splitting lists at a separator.

  `splitOn` cuts at every separator and keeps the empty pieces, so that the pieces joined by the
  separator give the list back (`joinWith_splitOn`); `cut?` cuts once at the first separator and
  `cutLast?` once at the last one.
-/

namespace ShortLink.Text

variable {α : Type} [DecidableEq α]

/-- The pieces between separators; one more than there are separators. -/
def splitOn (sep : α) : List α → List (List α)
  | [] => [[]]
  | x :: xs =>
    if x = sep then [] :: splitOn sep xs
    else match splitOn sep xs with
      | [] => [[x]]
      | piece :: pieces => (x :: piece) :: pieces

/-- Pieces with a separator between each two. -/
def joinWith (sep : α) : List (List α) → List α
  | [] => []
  | [piece] => piece
  | piece :: pieces => piece ++ sep :: joinWith sep pieces

/-- What stands before and after the first separator, if there is one. -/
def cut? (sep : α) : List α → Option (List α × List α)
  | [] => none
  | x :: xs =>
    if x = sep then some ([], xs)
    else (cut? sep xs).map fun (before, after) => (x :: before, after)

/-- What stands before and after the last separator, if there is one. -/
def cutLast? (sep : α) : List α → Option (List α × List α)
  | [] => none
  | x :: xs =>
    match cutLast? sep xs with
    | some (before, after) => some (x :: before, after)
    | none => if x = sep then some ([], xs) else none

/-- Whether `needle` stands somewhere in the list, in one piece. -/
def occursIn (needle : List α) : List α → Bool
  | [] => needle.isEmpty
  | x :: xs => needle.isPrefixOf (x :: xs) || occursIn needle xs

/-! ## Laws -/

theorem splitOn_ne_nil (sep : α) (xs : List α) : splitOn sep xs ≠ [] := by
  cases xs with
  | nil => simp [splitOn]
  | cons x xs =>
    simp only [splitOn]
    split
    · simp
    · split <;> simp

/-- Joining the pieces with the separator gives the list back. -/
theorem joinWith_splitOn (sep : α) (xs : List α) : joinWith sep (splitOn sep xs) = xs := by
  induction xs with
  | nil => rfl
  | cons x xs ih =>
    simp only [splitOn]
    split
    · next h =>
      subst h
      cases hs : splitOn x xs with
      | nil => exact absurd hs (splitOn_ne_nil x xs)
      | cons piece pieces => rw [hs] at ih; simp [joinWith, ih]
    · cases hs : splitOn sep xs with
      | nil => exact absurd hs (splitOn_ne_nil sep xs)
      | cons piece pieces =>
        rw [hs] at ih
        cases pieces with
        | nil => simpa [joinWith] using ih
        | cons p ps => simpa [joinWith] using ih

/-- A cut gives the list back with the separator between the parts. -/
theorem eq_append_of_cut? {sep : α} {xs before after : List α}
    (h : cut? sep xs = some (before, after)) : xs = before ++ sep :: after := by
  induction xs generalizing before with
  | nil => simp [cut?] at h
  | cons x xs ih =>
    simp only [cut?] at h
    split at h
    · next hx => simp only [Option.some.injEq, Prod.mk.injEq] at h; simp [← h.1, ← h.2, hx]
    · obtain ⟨⟨b, a⟩, hc, he⟩ := Option.map_eq_some_iff.1 h
      simp only [Prod.mk.injEq] at he
      obtain ⟨rfl, rfl⟩ := he
      simp [ih hc]

end ShortLink.Text
