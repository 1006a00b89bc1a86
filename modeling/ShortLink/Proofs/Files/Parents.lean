/-
  The directory that contains what a path names.

  A path is followed from where it starts, one step for each of its pieces that says something.  What
  a step leads to is a matter of the files, of their links and of which directories there are
  (`Surroundings`); which steps are made is a matter of the text alone.

  1. What `dropNoise` drops from the end of a path says nothing, and it leaves the beginning
     (`stepsOf_dropNoise`, `getLast?_dropNoise`).

  2. So the parent of a path that ends in a name makes the same steps but the last one, from the same
     place (`steps_of_parent?`).  It is empty for a bare name and for no other path
     (`parent?_eq_empty_iff`).

  3. In any surroundings a parent that is not empty denotes the directory that contains what the path
     names.  The empty one denotes nothing (`isDirectoryOf_parent_iff`).

  4. A file that is written under its name below the parent is what the path names
     (`lookUp_of_writePath`).
-/
import ShortLink.Proofs.Files.Places

namespace ShortLink.Files

namespace Path

/-! ## Steps -/

/-- Whether a piece of a path says something. -/
def saysSomething (piece : String) : Bool := piece != "" && piece != "."

/-- The pieces of a path that say something. -/
def stepsOf (p : List Char) : List String := (pieces p).filter saysSomething

/-- The steps of a path; `..` is one. -/
def steps (p : Path) : List String := stepsOf p.toList

theorem stepsOf_append_slash (p q : List Char) :
    stepsOf (p ++ '/' :: q) = stepsOf p ++ stepsOf q := by
  rw [stepsOf, pieces_append_slash, List.filter_append]
  rfl

theorem stepsOf_name {name : String} (h : IsName name) : stepsOf name.toList = [name] := by
  rw [stepsOf, pieces_name h]
  simp [saysSomething, h.notEmpty, h.notHere]

/-- A slash at the end of a path adds no step. -/
theorem stepsOf_slash (p : List Char) : stepsOf (p ++ ['/']) = stepsOf p := by
  rw [stepsOf_append_slash]
  exact List.append_nil _

/-- The names on the way to a file are what its steps come to. -/
theorem names_eq_steps (p : Path) : p.names = (p.steps.foldl enter []).reverse := by
  rw [names_eq, steps, stepsOf, List.foldl_filter]
  congr 2
  funext back piece
  by_cases empty : piece = ""
  · simp [enter, saysSomething, empty]
  by_cases here : piece = "."
  · simp [enter, saysSomething, here]
  · simp [saysSomething, empty, here]

/-! ## What is dropped from the end -/

/-- What is dropped makes no step. -/
theorem stepsOf_dropNoise (back : List Char) :
    stepsOf (dropNoise back).reverse = stepsOf back.reverse := by
  fun_induction dropNoise back with
  | case1 c rest ih =>
    rw [ih, List.reverse_cons (a := '/')]
    exact (stepsOf_slash _).symm
  | case2 rest ih =>
    have dot : stepsOf ['.'] = [] := rfl
    have reversed : ('.' :: '/' :: rest).reverse = rest.reverse ++ '/' :: ['.'] := by simp
    rw [ih, reversed, stepsOf_append_slash, dot, List.append_nil, List.reverse_cons, stepsOf_slash]
  | case3 => rfl

/-- What is dropped is not the beginning of the path. -/
theorem getLast?_dropNoise (back : List Char) : (dropNoise back).getLast? = back.getLast? := by
  fun_induction dropNoise back with
  | case1 c rest ih => rw [ih, List.getLast?_cons_cons]
  | case2 rest ih => rw [ih, List.getLast?_cons_cons]
  | case3 => rfl

theorem dropNoise_eq_nil_iff {back : List Char} : dropNoise back = [] ↔ back = [] := by
  rw [← List.getLast?_eq_none_iff, getLast?_dropNoise, List.getLast?_eq_none_iff]

/-! ## Paths that end in a name -/

/-- Whether a path ends in a name: it is the name, or a slash stands before it. -/
def EndsIn (p : Path) (name : String) : Prop :=
  IsName name ∧ (p = name ∨ ∃ before : String, p = before ++ "/" ++ name)

theorem EndsIn.exists_front {p : Path} {name : String} (h : EndsIn p name) :
    ∃ front, p.toList = front ++ name.toList ∧ (front = [] ∨ ∃ cs, front = cs ++ ['/']) := by
  obtain ⟨-, rfl | ⟨before, rfl⟩⟩ := h
  · exact ⟨[], rfl, .inl rfl⟩
  · refine ⟨before.toList ++ ['/'], ?_, .inr ⟨before.toList, rfl⟩⟩
    rw [String.toList_append, String.toList_append]
    rfl

/-- A name is not dropped from the end of a path. -/
theorem dropNoise_name {name : String} (h : IsName name) (back : List Char) :
    dropNoise (name.toList.reverse ++ back) = name.toList.reverse ++ back := by
  have noSlash : '/' ∉ name.toList.reverse := mt List.mem_reverse.mp h.noSlash
  have notHere : name.toList.reverse ≠ ['.'] := fun he =>
    h.notHere (String.toList_inj.mp (List.reverse_eq_iff.mp he))
  obtain ⟨c, cs, hc⟩ := List.exists_cons_of_ne_nil
    (mt List.reverse_eq_nil_iff.mp (mt String.toList_eq_nil_iff.mp h.notEmpty))
  rw [hc] at noSlash notHere ⊢
  refine dropNoise.eq_3 _ (fun d rest he => ?_) fun rest he => ?_
  · exact noSlash ((List.cons.inj he).1 ▸ List.mem_cons_self)
  · -- a dot at the very end is not the whole name, and what stands before it is no slash
    obtain ⟨rfl, hr⟩ := List.cons.inj he
    cases cs with
    | nil => exact notHere rfl
    | cons d ds =>
      obtain rfl : d = '/' := (List.cons.inj hr).1
      exact noSlash (List.mem_cons_of_mem _ List.mem_cons_self)

/-- The parent of a path that ends in a name is what stands before the name. -/
theorem parent?_eq {p : Path} {name : String} (h : IsName name) {front : List Char}
    (hp : p.toList = front ++ name.toList) (hf : front = [] ∨ ∃ cs, front = cs ++ ['/']) :
    parent? p = some (String.ofList (dropNoise front.reverse).reverse) := by
  have kept : dropNoise p.toList.reverse = name.toList.reverse ++ front.reverse := by
    rw [hp, List.reverse_append, dropNoise_name h]
  have inName : ∀ c ∈ name.toList.reverse, (c != '/') = true := fun c hc => by
    rw [bne_iff_ne]
    rintro rfl
    exact h.noSlash (List.mem_reverse.mp hc)
  have cut : (name.toList.reverse ++ front.reverse).dropWhile (· != '/') = front.reverse := by
    rw [List.dropWhile_append_of_pos inName]
    rcases hf with rfl | ⟨cs, rfl⟩
    · rfl
    · rw [List.reverse_append]
      rfl
  obtain ⟨c, cs, hc⟩ := List.exists_cons_of_ne_nil
    (mt List.reverse_eq_nil_iff.mp (mt String.toList_eq_nil_iff.mp h.notEmpty))
  have first : c ≠ '/' := bne_iff_ne.mp (inName c (hc ▸ List.mem_cons_self))
  rw [parent?, kept]
  split
  · next he => simp [hc] at he
  · next he =>
    rw [hc] at he
    exact absurd (List.cons.inj he).1 first
  · rw [cut]

theorem isAbsolute_iff_head? {p : Path} : p.isAbsolute = true ↔ p.toList.head? = some '/' := by
  rw [isAbsolute, startsWith_slash_iff, List.head?_eq_some_iff]

theorem exists_parent? {p : Path} {name : String} (h : EndsIn p name) :
    ∃ dir, parent? p = some dir := by
  obtain ⟨front, hp, hf⟩ := h.exists_front
  exact ⟨_, parent?_eq h.1 hp hf⟩

section Parent

variable {p dir : Path} {name : String} (h : EndsIn p name) (hd : parent? p = some dir)

include h hd

/-- The parent is what stands before the name, without what says nothing at the end. -/
theorem exists_front_of_parent? :
    ∃ front, p.toList = front ++ name.toList ∧ (front = [] ∨ ∃ cs, front = cs ++ ['/']) ∧
      dir.toList = (dropNoise front.reverse).reverse := by
  obtain ⟨front, hp, hf⟩ := h.exists_front
  rw [parent?_eq h.1 hp hf] at hd
  exact ⟨front, hp, hf, by rw [← Option.some.inj hd, String.toList_ofList]⟩

/-- The parent of a path that ends in a name is empty just for the bare name. -/
theorem parent?_eq_empty_iff : dir = "" ↔ p = name := by
  obtain ⟨front, hp, -, hdir⟩ := exists_front_of_parent? h hd
  rw [← String.toList_eq_nil_iff, hdir, List.reverse_eq_nil_iff, dropNoise_eq_nil_iff,
    List.reverse_eq_nil_iff, ← String.toList_inj, hp]
  exact List.append_left_eq_self.symm

/-- The parent starts where the path starts. -/
theorem isAbsolute_of_parent? : dir.isAbsolute = p.isAbsolute := by
  obtain ⟨front, hp, hf, hdir⟩ := exists_front_of_parent? h hd
  rw [Bool.eq_iff_iff, isAbsolute_iff_head?, isAbsolute_iff_head?, hdir, List.head?_reverse,
    getLast?_dropNoise, List.getLast?_reverse, hp]
  rcases hf with rfl | ⟨cs, rfl⟩
  · have relative : name.toList.head? ≠ some '/' := fun hh =>
      h.1.noSlash (List.mem_of_mem_head? hh)
    simpa using relative
  · simp [List.head?_append]

/-- **The parent makes the steps of a path but the last one.** -/
theorem steps_of_parent? : p.steps = dir.steps ++ [name] := by
  obtain ⟨front, hp, hf, hdir⟩ := exists_front_of_parent? h hd
  rw [steps, steps, hdir, stepsOf_dropNoise, List.reverse_reverse, hp]
  rcases hf with rfl | ⟨cs, rfl⟩
  · exact stepsOf_name h.1
  · rw [List.append_assoc, List.singleton_append, stepsOf_append_slash, stepsOf_slash,
      stepsOf_name h.1]

end Parent

/-! ## Following a path -/

/-- The steps of a name below a path are those of the path and the name. -/
theorem steps_join (dir : Path) {name : String} (h : IsName name) :
    (dir.join name).steps = dir.steps ++ [name] := by
  rw [steps, steps, toList_join dir h]
  split
  next closed =>
    rcases closed with empty | slash
    · rw [empty]
      exact stepsOf_name h
    · obtain ⟨start, hs⟩ := endsWith_slash_iff.1 slash
      rw [hs, List.append_assoc, List.singleton_append, stepsOf_append_slash, stepsOf_slash,
        stepsOf_name h]
  next => rw [stepsOf_append_slash, stepsOf_name h]

end Path

/-- What paths are followed through: the directories where they start, and the directory that a name
leads to from another one, be it by a link. The name `..` leads somewhere like any other. -/
structure Surroundings (α : Type) where
  root : α
  here : α
  enter : α → String → Option α

namespace Surroundings

variable {α : Type} (s : Surroundings α)

/-- Where a path starts. -/
def start (p : Path) : α := if p.isAbsolute then s.root else s.here

/-- The directory that a path denotes. The empty path denotes none. -/
def directory? (p : Path) : Option α :=
  if p = "" then none else p.steps.foldlM s.enter (s.start p)

/-- The directory that contains what a path names: the one that all steps but the last lead to. -/
def container? (p : Path) : Option α := p.steps.dropLast.foldlM s.enter (s.start p)

theorem start_congr {p q : Path} (h : p.isAbsolute = q.isAbsolute) : s.start p = s.start q := by
  rw [start, start, h]

/-- A name below a path is an entry of the directory that the path leads to. -/
theorem container?_join (dir : Path) {name : String} (h : Path.IsName name) :
    s.container? (dir.join name) = dir.steps.foldlM s.enter (s.start dir) := by
  rw [container?, Path.steps_join dir h, List.dropLast_concat,
    s.start_congr (Path.isAbsolute_join dir h)]

end Surroundings

namespace Path

/-- Whether a path is the directory of another one: it is not empty, and in all surroundings it
denotes the directory that contains what the other one names. -/
def IsDirectoryOf (dir p : Path) : Prop :=
  dir ≠ "" ∧ ∀ (α : Type) (s : Surroundings α), s.directory? dir = s.container? p

/-- The steps of the parent lead to the directory that contains what the path names. -/
theorem container?_eq {α : Type} (s : Surroundings α) {p dir : Path} {name : String}
    (h : EndsIn p name) (hd : parent? p = some dir) :
    s.container? p = dir.steps.foldlM s.enter (s.start dir) := by
  rw [Surroundings.container?, steps_of_parent? h hd, List.dropLast_concat,
    s.start_congr (isAbsolute_of_parent? h hd)]

/-- **The parent of a path that ends in a name is its directory**, unless the path is just the
name. -/
theorem isDirectoryOf_parent_iff {p dir : Path} {name : String} (h : EndsIn p name)
    (hd : parent? p = some dir) : IsDirectoryOf dir p ↔ p ≠ name := by
  have empty := parent?_eq_empty_iff h hd
  constructor
  · exact fun denotes bare => denotes.1 (empty.mpr bare)
  · intro longer
    have nonempty : dir ≠ "" := mt empty.mp longer
    refine ⟨nonempty, fun α s => ?_⟩
    rw [Surroundings.directory?, if_neg nonempty, container?_eq s h hd]

/-- The same file is named by a path and by its name below the parent. -/
theorem place_eq_of_parent? {p dir : Path} {name : String} (h : EndsIn p name)
    (hd : parent? p = some dir) : p.place = (dir.join name).place := by
  have names : p.names = dir.names ++ [name] := by
    rw [names_eq_steps, names_eq_steps, steps_of_parent? h hd, List.foldl_append, List.foldl_cons,
      List.foldl_nil, enter_name h.1, List.reverse_cons]
  rw [place_join dir h.1, place, place, names, isAbsolute_of_parent? h hd]
  split <;> rfl

theorem EndsIn.asksForDirectory_eq {p : Path} {name : String} (h : EndsIn p name) :
    p.asksForDirectory = false := by
  obtain ⟨front, hp, hf⟩ := h.exists_front
  have last : (Text.splitOn '/' p.toList).getLast? = some name.toList := by
    rw [hp]
    rcases hf with rfl | ⟨cs, rfl⟩
    · rw [List.nil_append, Text.splitOn_of_not_mem h.1.noSlash]
      rfl
    · rw [List.append_assoc, List.singleton_append, Text.splitOn_append_cons,
        Text.splitOn_of_not_mem h.1.noSlash, List.getLast?_concat]
  rw [asksForDirectory, last, Option.any_some, String.ofList_toList]
  simp [h.1.notEmpty, h.1.notHere, h.1.notBack]

theorem EndsIn.ne_empty {p : Path} {name : String} (h : EndsIn p name) : p ≠ "" := by
  obtain ⟨front, hp, -⟩ := h.exists_front
  rintro rfl
  exact h.1.notEmpty (String.toList_eq_nil_iff.mp (List.append_eq_nil_iff.mp hp.symm).2)

end Path

namespace Tree

/-- What is put at a place is not in the way to it. -/
theorem isBlocked_put (t : Tree) (place : List String) (node : Node) :
    (t.put place node).isBlocked place = t.isBlocked place := by
  have same : ∀ i ∈ List.range place.length,
      (t.put place node).node? (place.take i) = t.node? (place.take i) := fun i hi => by
    refine node?_put_of_ne t node fun whole => ?_
    have shorter : i < place.length := List.mem_range.mp hi
    have length := congrArg List.length whole
    rw [List.length_take] at length
    omega
  unfold isBlocked
  rw [Bool.eq_iff_iff, List.any_eq_true, List.any_eq_true]
  exact exists_congr fun i => and_congr_right fun hi => by rw [same i hi]

/-- **A file that is written under its name below the parent of a path is what the path names.** -/
theorem lookUp_of_writePath {t written : Tree} {p dir : Path} {name : String}
    {content : Text.Bytes} (h : p.EndsIn name) (hd : p.parent? = some dir)
    (hw : t.writePath (dir.join name) content = .ok written) (short : p.isTooLong = false) :
    ∃ mode, written.lookUp p = .ok (.file content mode) := by
  unfold writePath at hw
  split at hw
  · cases hw
  obtain ⟨free, mode, rfl⟩ := exists_put_of_write hw
  have place := Path.place_eq_of_parent? h hd
  have below := Path.place_join_below dir h.1
  refine ⟨mode, ?_⟩
  rw [lookUp, short, place, isBlocked_put, free, node?_put below, h.asksForDirectory_eq,
    if_neg h.ne_empty]
  rfl

end Tree

end ShortLink.Files
