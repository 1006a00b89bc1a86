/-
  Texts that are put together are taken apart again.

  What `joinWith` puts together is what `splitOn` finds, as long as no piece holds the separator
  (`splitOn_joinWith`); a cut finds the separator that was put there (`cut?_append`,
  `cutLast?_append`); and what is dropped from both ends of a list can be put there without changing
  what is left (`dropAround_append_append`).
-/
import ShortLink.Text.Blank
import ShortLink.Text.Split

namespace ShortLink.Text

variable {α : Type}

theorem joinWith_cons_of_ne_nil (sep : α) (piece : List α) {pieces : List (List α)}
    (h : pieces ≠ []) :
    joinWith sep (piece :: pieces) = piece ++ sep :: joinWith sep pieces := by
  cases pieces with
  | nil => exact absurd rfl h
  | cons p ps => rfl

theorem mem_joinWith {sep x : α} {pieces : List (List α)} (h : x ∈ joinWith sep pieces) :
    x = sep ∨ ∃ piece ∈ pieces, x ∈ piece := by
  induction pieces with
  | nil => cases h
  | cons piece pieces ih =>
    by_cases hp : pieces = []
    · subst hp
      exact .inr ⟨piece, List.mem_cons_self, h⟩
    · rw [joinWith_cons_of_ne_nil sep piece hp, List.mem_append, List.mem_cons] at h
      rcases h with h | h | h
      · exact .inr ⟨piece, List.mem_cons_self, h⟩
      · exact .inl h
      · rcases ih h with h | ⟨p, hm, hx⟩
        · exact .inl h
        · exact .inr ⟨p, List.mem_cons_of_mem piece hm, hx⟩

section

variable [DecidableEq α] {sep : α}

/-! ## Splitting -/

/-- A list without separators is one piece. -/
theorem splitOn_of_not_mem {xs : List α} (h : sep ∉ xs) : splitOn sep xs = [xs] := by
  induction xs with
  | nil => rfl
  | cons x xs ih =>
    rw [List.mem_cons, not_or] at h
    rw [splitOn, if_neg (Ne.symm h.1), ih h.2]

/-- A separator parts the pieces before it from those after it. -/
theorem splitOn_append_cons (xs ys : List α) :
    splitOn sep (xs ++ sep :: ys) = splitOn sep xs ++ splitOn sep ys := by
  induction xs with
  | nil =>
    show splitOn sep (sep :: ys) = [] :: splitOn sep ys
    rw [splitOn, if_pos rfl]
  | cons x xs ih =>
    rw [List.cons_append, splitOn, splitOn, ih]
    by_cases hx : x = sep
    · rw [if_pos hx, if_pos hx, List.cons_append]
    · obtain ⟨piece, pieces, hs⟩ := List.exists_cons_of_ne_nil (splitOn_ne_nil sep xs)
      rw [if_neg hx, if_neg hx, hs]
      rfl

/-- **Pieces that were joined are found again.** -/
theorem splitOn_joinWith {pieces : List (List α)} (hne : pieces ≠ [])
    (h : ∀ piece ∈ pieces, sep ∉ piece) : splitOn sep (joinWith sep pieces) = pieces := by
  induction pieces with
  | nil => exact absurd rfl hne
  | cons piece pieces ih =>
    have first : sep ∉ piece := h piece List.mem_cons_self
    have others : ∀ p ∈ pieces, sep ∉ p := fun p hp => h p (List.mem_cons_of_mem piece hp)
    by_cases hp : pieces = []
    · subst hp
      exact splitOn_of_not_mem first
    · rw [joinWith_cons_of_ne_nil sep piece hp, splitOn_append_cons, splitOn_of_not_mem first,
        ih hp others, List.singleton_append]

/-! ## Cutting -/

theorem cut?_append {xs : List α} (h : sep ∉ xs) (ys : List α) :
    cut? sep (xs ++ sep :: ys) = some (xs, ys) := by
  induction xs with
  | nil => rw [List.nil_append, cut?, if_pos rfl]
  | cons x xs ih =>
    rw [List.mem_cons, not_or] at h
    rw [List.cons_append, cut?, if_neg (Ne.symm h.1), ih h.2]
    rfl

theorem cutLast?_of_not_mem {xs : List α} (h : sep ∉ xs) : cutLast? sep xs = none := by
  induction xs with
  | nil => rfl
  | cons x xs ih =>
    rw [List.mem_cons, not_or] at h
    simp only [cutLast?, ih h.2, if_neg (Ne.symm h.1)]

/-- A list with separators has a last one. -/
theorem exists_append_cons_of_mem {xs : List α} (h : sep ∈ xs) :
    ∃ before after, xs = before ++ sep :: after ∧ sep ∉ after := by
  induction xs with
  | nil => cases h
  | cons x xs ih =>
    by_cases later : sep ∈ xs
    · obtain ⟨before, after, rfl, last⟩ := ih later
      exact ⟨x :: before, after, rfl, last⟩
    · obtain rfl : sep = x := (List.mem_cons.mp h).resolve_right later
      exact ⟨[], xs, rfl, later⟩

theorem cutLast?_append (xs : List α) {ys : List α} (h : sep ∉ ys) :
    cutLast? sep (xs ++ sep :: ys) = some (xs, ys) := by
  induction xs with
  | nil => simp only [List.nil_append, cutLast?, cutLast?_of_not_mem h, if_true]
  | cons x xs ih => simp only [List.cons_append, cutLast?, ih]

end

/-! ## Dropping -/

section

variable {p : α → Bool} {before after : List α}

theorem dropEndWhile_append_of_all (h : ∀ x ∈ after, p x = true) (xs : List α) :
    dropEndWhile p (xs ++ after) = dropEndWhile p xs := by
  have reversed : ∀ x ∈ after.reverse, p x = true := fun x hx => h x (List.mem_reverse.mp hx)
  rw [dropEndWhile, List.reverse_append, List.dropWhile_append_of_pos reversed, ← dropEndWhile]

/-- Only what is to be dropped is dropped from the end. -/
theorem exists_dropEndWhile_append (p : α → Bool) (xs : List α) :
    ∃ after, xs = dropEndWhile p xs ++ after ∧ ∀ x ∈ after, p x = true := by
  refine ⟨(xs.reverse.takeWhile p).reverse, ?_, fun x hx => ?_⟩
  · rw [dropEndWhile, ← List.reverse_append, List.takeWhile_append_dropWhile, List.reverse_reverse]
  · exact List.all_eq_true.mp List.all_takeWhile x (List.mem_reverse.mp hx)

/-- What is left ends with something that is not to be dropped. -/
theorem of_getLast?_dropEndWhile {xs : List α} {x : α}
    (h : (dropEndWhile p xs).getLast? = some x) : p x = false := by
  rw [dropEndWhile, List.getLast?_reverse] at h
  have first := List.head?_dropWhile_not p xs.reverse
  rwa [h] at first

/-- **What is dropped from the ends may stand there or not.** -/
theorem dropAround_append_append (hb : ∀ x ∈ before, p x = true) (ha : ∀ x ∈ after, p x = true)
    (xs : List α) : dropAround p (before ++ (xs ++ after)) = dropAround p xs := by
  have none : after.dropWhile p = [] := by
    rw [← List.append_nil after, List.dropWhile_append_of_pos ha, List.dropWhile_nil]
  rw [dropAround, dropAround, List.dropWhile_append_of_pos hb, List.dropWhile_append]
  split
  · next h =>
    -- nothing is left of the list, and so nothing of what follows it
    rw [none, List.isEmpty_iff.mp h]
  · exact dropEndWhile_append_of_all ha _

/-- Nothing is dropped from a list whose ends stay. -/
theorem dropAround_eq_self {xs : List α} (hh : ∀ x ∈ xs.head?, p x = false)
    (hl : ∀ x ∈ xs.getLast?, p x = false) : dropAround p xs = xs := by
  have keeps {ys : List α} (hy : ∀ y ∈ ys.head?, p y = false) : ys.dropWhile p = ys := by
    cases ys with
    | nil => rfl
    | cons y ys =>
      rw [List.dropWhile_cons, hy y rfl]
      rfl
  rw [← List.head?_reverse] at hl
  rw [dropAround, keeps hh, dropEndWhile, keeps hl, List.reverse_reverse]

end

/-! ## What stands around a text -/

/-- A text with others around it that are dropped when it is read. -/
def Around (p : Char → Bool) (inner outer : List Char) : Prop :=
  ∃ before after, outer = before ++ (inner ++ after) ∧ (∀ c ∈ before, p c = true) ∧
    ∀ c ∈ after, p c = true

section

variable {p : Char → Bool} {inner outer : List Char}

theorem Around.dropAround_eq (h : Around p inner outer) :
    dropAround p outer = dropAround p inner := by
  obtain ⟨before, after, rfl, hb, ha⟩ := h
  exact dropAround_append_append hb ha inner

theorem Around.of_mem (h : Around p inner outer) {c : Char} (hc : c ∈ outer) :
    p c = true ∨ c ∈ inner := by
  obtain ⟨before, after, rfl, hb, ha⟩ := h
  rw [List.mem_append, List.mem_append] at hc
  rcases hc with hc | hc | hc
  · exact .inl (hb c hc)
  · exact .inr hc
  · exact .inl (ha c hc)

theorem Around.ne_nil (h : Around p inner outer) (hi : inner ≠ []) : outer ≠ [] := by
  obtain ⟨before, after, rfl, -, -⟩ := h
  simp [hi]

/-- Nothing is dropped from a text that holds nothing to drop. -/
theorem dropAround_of_forall {cs : List Char} (h : ∀ c ∈ cs, p c = false) : dropAround p cs = cs :=
  dropAround_eq_self (fun c hc => h c (List.mem_of_mem_head? hc))
    fun c hc => h c (List.mem_of_getLast? hc)

end

end ShortLink.Text
