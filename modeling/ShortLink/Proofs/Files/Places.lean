/-
  Where a path leads when a name is put below it.

  A path is read piece by piece: a name leads one step further, and what says nothing leads nowhere.

  1. A path with a name below it starts from the root iff the path does (`isAbsolute_join`), and its
     names are those of the path and the name (`names_join`).

  2. So it leads to the name below the place of the path (`place_join`).  Such a place is neither
     the root nor the current directory, so that something can be put there and taken away again
     (`place_join_below`).

  3. What is put at one place leaves the others as they are (`node?_put_of_ne`).  Making directories
     leaves what lies below them as it is (`node?_makeDirectories`), and a file that was written is
     read back (`read?_write`).
-/
import ShortLink.Files.Tree
import ShortLink.Proofs.Text.Splitting

namespace ShortLink.Files

namespace Path

/-- Whether a text is the name of an entry of a directory. -/
structure IsName (name : String) : Prop where
  noSlash : '/' ∉ name.toList
  notEmpty : name ≠ ""
  notHere : name ≠ "."
  notBack : name ≠ ".."

/-! ## Paths that begin and end with a slash -/

theorem startsWith_slash_iff {s : String} :
    s.startsWith "/" = true ↔ ∃ rest, s.toList = '/' :: rest := by
  rw [String.startsWith_string_iff]
  constructor
  · rintro ⟨rest, h⟩
    exact ⟨rest, h.symm⟩
  · rintro ⟨rest, h⟩
    exact ⟨rest, h.symm⟩

theorem endsWith_slash_iff {s : String} :
    s.endsWith "/" = true ↔ ∃ start, s.toList = start ++ ['/'] := by
  show s.toSlice.endsWith "/" = true ↔ _
  rw [String.Slice.endsWith_string_iff, String.copy_toSlice]
  constructor
  · rintro ⟨start, h⟩
    exact ⟨start, h.symm⟩
  · rintro ⟨start, h⟩
    exact ⟨start, h.symm⟩

theorem IsName.startsWith_slash {name : String} (h : IsName name) :
    name.startsWith "/" = false := by
  rw [Bool.eq_false_iff, ne_eq, startsWith_slash_iff]
  rintro ⟨rest, hr⟩
  exact h.noSlash (hr ▸ List.mem_cons_self)

/-- The characters of a path with a name below it: a slash parts them, unless there is one already
or there is nothing to part. -/
theorem toList_join (dir : Path) {name : String} (h : IsName name) :
    (dir.join name).toList =
      if dir = "" ∨ dir.endsWith "/" = true then dir.toList ++ name.toList
      else dir.toList ++ '/' :: name.toList := by
  unfold join
  rw [h.startsWith_slash, Bool.false_or]
  by_cases empty : dir = ""
  · rw [if_pos (String.isEmpty_iff.2 empty), if_pos (.inl empty), empty]
    rfl
  · rw [if_neg (fun he => empty (String.isEmpty_iff.1 he))]
    by_cases slash : dir.endsWith "/" = true
    · rw [if_pos slash, if_pos (.inr slash), String.toList_append]
    · rw [if_neg slash, if_neg (not_or.2 ⟨empty, slash⟩), String.toList_append,
        String.toList_append, List.append_assoc]
      rfl

/-! ## Names -/

/-- One piece of a path, read when the names so far are known, the last one first. -/
def enter (back : List String) (piece : String) : List String :=
  if piece = "" || piece = "." then back
  else if piece = ".." then back.drop 1
  else piece :: back

/-- The pieces of a path. -/
def pieces (p : List Char) : List String := (Text.splitOn '/' p).map String.ofList

theorem names_eq (p : Path) : p.names = ((pieces p.toList).foldl enter []).reverse := rfl

theorem enter_name {name : String} (h : IsName name) (back : List String) :
    enter back name = name :: back := by
  simp [enter, h.notEmpty, h.notHere, h.notBack]

theorem pieces_append_slash (p q : List Char) : pieces (p ++ '/' :: q) = pieces p ++ pieces q := by
  rw [pieces, Text.splitOn_append_cons, List.map_append]
  rfl

theorem pieces_name {name : String} (h : IsName name) : pieces name.toList = [name] := by
  rw [pieces, Text.splitOn_of_not_mem h.noSlash, List.map_cons, List.map_nil, String.ofList_toList]

/-- A slash at the end of a path adds an empty piece, which leads nowhere. -/
theorem foldl_enter_append_slash (p : List Char) :
    (pieces (p ++ ['/'])).foldl enter [] = (pieces p).foldl enter [] := by
  rw [pieces_append_slash, List.foldl_append]
  rfl

/-- A name below a path leads one step further. -/
theorem names_join (dir : Path) {name : String} (h : IsName name) :
    (dir.join name).names = dir.names ++ [name] := by
  have further (p : List Char) :
      ((pieces (p ++ '/' :: name.toList)).foldl enter []).reverse =
        ((pieces p).foldl enter []).reverse ++ [name] := by
    rw [pieces_append_slash, pieces_name h, List.foldl_append, List.foldl_cons, List.foldl_nil,
      enter_name h, List.reverse_cons]
  rw [names_eq, names_eq, toList_join dir h]
  split
  next closed =>
    rcases closed with empty | slash
    · rw [empty, String.toList_empty, List.nil_append, pieces_name h, List.foldl_cons,
        List.foldl_nil, enter_name h]
      rfl
    · obtain ⟨start, hs⟩ := endsWith_slash_iff.1 slash
      rw [hs, List.append_assoc, foldl_enter_append_slash]
      exact further start
  next => exact further dir.toList

/-! ## Places -/

/-- A name below a path does not change where the path starts. -/
theorem isAbsolute_join (dir : Path) {name : String} (h : IsName name) :
    (dir.join name).isAbsolute = dir.isAbsolute := by
  rw [Bool.eq_iff_iff]
  show (dir.join name).startsWith "/" = true ↔ dir.startsWith "/" = true
  by_cases empty : dir = ""
  · have bare : dir.join name = name := by
      rw [← String.toList_inj, toList_join dir h, if_pos (.inl empty), empty]
      rfl
    rw [bare, h.startsWith_slash, empty]
    decide
  · obtain ⟨c, rest, hd⟩ :=
      List.exists_cons_of_ne_nil (mt String.toList_eq_nil_iff.1 empty)
    rw [startsWith_slash_iff, startsWith_slash_iff, toList_join dir h, hd]
    split <;> simp

/-- **A name below a path leads to the name below the place of the path.** -/
theorem place_join (dir : Path) {name : String} (h : IsName name) :
    (dir.join name).place = dir.place ++ [name] := by
  unfold place
  rw [isAbsolute_join dir h, names_join dir h]
  split <;> rfl

/-- A place below another is neither the root nor the current directory. -/
theorem place_join_below (dir : Path) {name : String} (h : IsName name) :
    (dir.join name).place ≠ [] ∧ (dir.join name).place ≠ ["/"] := by
  rw [place_join dir h]
  refine ⟨by simp, fun root => ?_⟩
  have slash : name = "/" := by simpa using congrArg List.getLast? root
  exact h.noSlash (slash ▸ by decide)

end Path

namespace Tree

/-! ## Trees -/

theorem lookup_filter_of_ne (es : List (List String × Node)) {place other : List String}
    (h : other ≠ place) : (es.filter fun e => e.1 != place).lookup other = es.lookup other := by
  induction es with
  | nil => rfl
  | cons e es ih =>
    by_cases kept : e.1 = place
    · rw [List.filter_cons_of_neg (by simp [kept]), ih, List.lookup_cons,
        beq_false_of_ne (kept ▸ h)]
    · rw [List.filter_cons_of_pos (by simp [kept]), List.lookup_cons, List.lookup_cons, ih]

/-- What is put at a place leaves the other places as they are. -/
theorem node?_put_of_ne (t : Tree) {place other : List String} (node : Node) (h : other ≠ place) :
    (t.put place node).node? other = t.node? other := by
  have apart : (other == place) = false := beq_false_of_ne h
  show (if _ then _ else _) = (if _ then _ else _)
  simp only [put, List.lookup_cons, apart, lookup_filter_of_ne t.entries h]

/-- Making directories leaves what lies below them as it is. -/
theorem node?_makeDirectories {t made : Tree} {place other : List String}
    (h : t.makeDirectories place = .ok made) (below : place.length < other.length) :
    made.node? other = t.node? other := by
  -- Each directory that is made stands at a beginning of the place, and is no longer than it.
  have kept (places : List (List String)) (short : ∀ p ∈ places, p.length < other.length) :
      ∀ t : Tree, (places.foldl
        (fun t p => if t.isThere p then t else t.put p .directory) t).node? other =
          t.node? other := by
    induction places with
    | nil => exact fun t => rfl
    | cons p places ih =>
      intro t
      rw [List.foldl_cons, ih fun q hq => short q (List.mem_cons_of_mem p hq)]
      split
      · rfl
      · refine node?_put_of_ne t .directory fun same => ?_
        exact absurd (short p List.mem_cons_self) (same ▸ Nat.lt_irrefl _)
  unfold makeDirectories at h
  split at h
  · cases h
  split at h
  · cases h
  · cases h
    rfl
  · cases h
    refine kept _ (fun p hp => ?_) t
    obtain ⟨i, -, rfl⟩ := List.mem_map.1 hp
    exact Nat.lt_of_le_of_lt (List.length_take_le' _ _) below

theorem read?_put {t : Tree} {place : List String} {content : Text.Bytes} {mode : Nat}
    (h : place ≠ [] ∧ place ≠ ["/"]) :
    (t.put place (.file content mode)).read? place = some content := by
  rw [read?, node?_put h]

/-- To write a file is to put it at a place to which no file is in the way. -/
theorem exists_put_of_write {t written : Tree} {place : List String} {content : Text.Bytes}
    (h : t.write place content = .ok written) :
    t.isBlocked place = false ∧ ∃ mode, written = t.put place (.file content mode) := by
  unfold write at h
  split at h
  · cases h
  next blocked =>
    refine ⟨Bool.eq_false_iff.mpr blocked, ?_⟩
    split at h
    · split at h
      · cases h
      · exact ⟨_, (Except.ok.inj h).symm⟩
      · exact ⟨_, (Except.ok.inj h).symm⟩
    · cases h

/-- A file that was written is read back. -/
theorem read?_write {t written : Tree} {place : List String} {content : Text.Bytes}
    (h : place ≠ [] ∧ place ≠ ["/"]) (hw : t.write place content = .ok written) :
    written.read? place = some content := by
  obtain ⟨-, mode, rfl⟩ := exists_put_of_write hw
  exact read?_put h

/-! ## Paths into them -/

theorem node?_makePath {t made : Tree} {path : Path} {other : List String}
    (h : t.makePath path = .ok made) (below : path.place.length < other.length) :
    made.node? other = t.node? other := by
  unfold makePath at h
  split at h
  · cases h
  · exact node?_makeDirectories h below

theorem read?_writePath {t written : Tree} {path : Path} {content : Text.Bytes}
    (h : path.place ≠ [] ∧ path.place ≠ ["/"]) (hw : t.writePath path content = .ok written) :
    written.read? path.place = some content := by
  unfold writePath at hw
  split at hw
  · cases hw
  · exact read?_write h hw

end Tree

end ShortLink.Files
