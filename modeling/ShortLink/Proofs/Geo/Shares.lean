/-
  Shares in generations are counted right.

  `Counted` compares the count of each generation with a list of owners, one entry for each share:
  the count is the number of the entries, and the dataset was released, once, just if there is
  none.  To take a share or to give one up is to put an entry into the list or to take one out
  (`Counted.share`, `Counted.giveUp`), and what an operation of the directory does to the list
  follows from the shares that it moves (`Counted.load`, `Counted.release`, `Counted.hold`).  That
  all names of readers differ is needed where a reader lets go: one entry leaves the list, and one
  share is given up.
-/
import Mathlib.Data.List.Perm.Basic
import ShortLink.Geo.Directory

namespace ShortLink.Geo

namespace Directory

/-! ## Counting -/

/-- All datasets loaded so far. -/
def datasets (d : Directory) : List Dataset := d.generations.map Generation.dataset

theorem dataset?_eq (d : Directory) (g : Nat) : d.dataset? g = d.datasets[g]? := by
  rw [datasets, List.getElem?_map]
  rfl

/-- Each generation has a share for each of its owners, and was released once if it has none. -/
def Counted (d : Directory) (owners : List Nat) : Prop :=
  ∀ g gen, d.generations[g]? = some gen →
    gen.shares = owners.count g ∧ gen.releases = if g ∈ owners then 0 else 1

section

variable {d : Directory} {owners : List Nat}

theorem Counted.perm (h : d.Counted owners) {others : List Nat} (hp : owners.Perm others) :
    d.Counted others := by
  intro g gen hg
  obtain ⟨hs, hr⟩ := h g gen hg
  rw [hs, hr, hp.count_eq]
  simp only [hp.mem_iff, and_self]

/-- A generation after a change of one. -/
theorem generations_update {i g : Nat} {f : Generation → Generation} {gen : Generation}
    (h : (d.update i f).generations[g]? = some gen) :
    ∃ old, d.generations[g]? = some old ∧ gen = if i = g then f old else old := by
  simp only [update, List.getElem?_modify] at h
  obtain ⟨old, ho, he⟩ := Option.map_eq_some_iff.mp h
  exact ⟨old, ho, he.symm⟩

/-- Who has a share lets another have one. -/
theorem Counted.share (h : d.Counted owners) {i : Nat} (hi : i ∈ owners) :
    (d.share i).Counted (i :: owners) := by
  intro g gen hg
  obtain ⟨old, ho, rfl⟩ := generations_update hg
  obtain ⟨hs, hr⟩ := h g old ho
  by_cases e : i = g
  · subst e
    simp [Generation.share, hs, hr, hi]
  · simp [e, Ne.symm e, hs, hr]

/-- A share is given up; the last one takes the dataset with it. -/
theorem Counted.giveUp {i : Nat} (h : d.Counted (i :: owners)) :
    (d.giveUp (some i)).Counted owners := by
  intro g gen hg
  obtain ⟨old, ho, rfl⟩ := generations_update hg
  obtain ⟨hs, hr⟩ := h g old ho
  by_cases e : i = g
  · subst e
    -- the share given up is the last one just if nobody else is an owner
    simp only [if_true, Generation.giveUp, hs, List.count_cons_self, Nat.add_sub_cancel, true_and]
    by_cases hm : i ∈ owners
    · have others := List.count_pos_iff.mpr hm
      simp only [hr, List.mem_cons_self, hm, if_true]
      exact if_neg (by omega)
    · simp [hr, hm, List.count_eq_zero.mpr hm]
  · simp [e, Ne.symm e, hs, hr]

theorem Counted.giveUp? {i? : Option Nat} (h : d.Counted (i?.toList ++ owners)) :
    (d.giveUp i?).Counted owners := by
  cases i? with
  | none => exact h
  | some i => exact Counted.giveUp h

theorem Counted.load (h : d.Counted owners) (new : d.generations.length ∉ owners)
    (dataset : Dataset) : (d.load dataset).2.Counted ((d.load dataset).1 :: owners) := by
  intro g gen hg
  show gen.shares = (d.generations.length :: owners).count g ∧
    gen.releases = if g ∈ d.generations.length :: owners then 0 else 1
  have hg : (d.generations ++ [⟨dataset, 1, 0⟩])[g]? = some gen := hg
  -- an old generation, the new one, or none at all
  rcases Nat.lt_trichotomy g d.generations.length with hlt | rfl | hlt
  · rw [List.getElem?_append_left hlt] at hg
    obtain ⟨hs, hr⟩ := h g gen hg
    have other : g ≠ d.generations.length := Nat.ne_of_lt hlt
    simp [hs, hr, other, Ne.symm other]
  · obtain rfl : ⟨dataset, 1, 0⟩ = gen := by simpa using hg
    simp [List.count_eq_zero.mpr new]
  · rw [List.getElem?_eq_none (by simp; omega)] at hg
    cases hg

end

/-! ## What a change leaves alone -/

@[simp] theorem giveUp_current (d : Directory) (i? : Option Nat) :
    (d.giveUp i?).current = d.current := by
  cases i? <;> rfl

@[simp] theorem giveUp_held (d : Directory) (i? : Option Nat) : (d.giveUp i?).held = d.held := by
  cases i? <;> rfl

theorem datasets_update (d : Directory) (i : Nat) {f : Generation → Generation}
    (hf : ∀ gen, (f gen).dataset = gen.dataset) : (d.update i f).datasets = d.datasets := by
  refine List.ext_getElem? fun g => ?_
  simp only [datasets, update, List.getElem?_map, List.getElem?_modify]
  cases d.generations[g]? with
  | none => rfl
  | some gen =>
    by_cases e : i = g <;> simp [e, hf]

@[simp] theorem datasets_giveUp (d : Directory) (i? : Option Nat) :
    (d.giveUp i?).datasets = d.datasets := by
  cases i? with
  | none => rfl
  | some i => exact d.datasets_update i fun _ => rfl

@[simp] theorem datasets_load (d : Directory) (dataset : Dataset) :
    (d.load dataset).2.datasets = d.datasets ++ [dataset] := by
  simp [load, datasets]

@[simp] theorem datasets_install (d : Directory) (i : Nat) :
    (d.install i).datasets = d.datasets := datasets_giveUp _ _

@[simp] theorem datasets_release (d : Directory) (name : String) :
    (d.release name).2.datasets = d.datasets := datasets_giveUp _ _

@[simp] theorem datasets_hold (d : Directory) (name : String) :
    (d.hold name).2.datasets = d.datasets := by
  unfold hold
  split
  · next i _ =>
    show ((d.share i).release name).2.datasets = d.datasets
    rw [datasets_release]
    exact d.datasets_update i fun _ => rfl
  · rfl

@[simp] theorem hold_current (d : Directory) (name : String) :
    (d.hold name).2.current = d.current := by
  unfold hold
  split
  · next i h => exact (giveUp_current _ _).trans rfl
  · rfl

/-! ## Readers -/

/-- The entry of a name is one of the list; where names are unique, it is the only one with it. -/
theorem perm_filter_of_lookup {l : List (String × Nat)} (hn : (l.map Prod.fst).Nodup)
    {name : String} {g : Nat} (h : l.lookup name = some g) :
    l.Perm ((name, g) :: l.filter fun e => e.1 != name) := by
  induction l with
  | nil => cases h
  | cons e l ih =>
    obtain ⟨k, v⟩ := e
    obtain ⟨fresh, rest⟩ := List.nodup_cons.mp hn
    by_cases he : name = k
    · subst he
      have hg : v = g := by simpa using h
      have others : l.filter (fun e => e.1 != name) = l := by
        refine List.filter_eq_self.mpr fun e hm => ?_
        have other : e.1 ≠ name := fun same => fresh (List.mem_map.mpr ⟨e, hm, same⟩)
        simpa using other
      rw [List.filter_cons_of_neg (by simp), others, hg]
    · have no : (name == k) = false := by simpa using he
      have below : l.lookup name = some g := by simpa [List.lookup_cons, no] using h
      rw [List.filter_cons_of_pos (by simpa using Ne.symm he)]
      exact ((ih rest below).cons (k, v)).trans (.swap _ _ _)

theorem release_held (d : Directory) (name : String) :
    (d.release name).2.held = d.held.filter fun e => e.1 != name := giveUp_held _ _

theorem release_current (d : Directory) (name : String) :
    (d.release name).2.current = d.current := giveUp_current _ _

theorem lookup_filter_ne {l : List (String × Nat)} {name other : String} (h : name ≠ other) :
    (l.filter fun e => e.1 != other).lookup name = l.lookup name := by
  induction l with
  | nil => rfl
  | cons e l ih =>
    obtain ⟨k, v⟩ := e
    by_cases hk : k = other
    · subst hk
      have no : (name == k) = false := by simpa using h
      rw [List.filter_cons_of_neg (by simp), ih, List.lookup_cons, no]
    · rw [List.filter_cons_of_pos (by simpa using hk), List.lookup_cons, List.lookup_cons, ih]

/-- What a reader holds is an entry with its name. -/
theorem heldBy?_eq_some_iff {d : Directory} (hn : (d.held.map Prod.fst).Nodup) {name : String}
    {g : Nat} : d.heldBy? name = some g ↔ (name, g) ∈ d.held := by
  constructor
  · intro h
    exact (perm_filter_of_lookup hn h).mem_iff.mpr List.mem_cons_self
  · intro h
    cases hl : d.held.lookup name with
    | none => simpa using List.lookup_eq_none_iff.mp hl _ h
    | some k =>
      rcases List.mem_cons.mp ((perm_filter_of_lookup hn hl).mem_iff.mp h) with he | he
      · obtain ⟨-, rfl⟩ := Prod.mk.inj he
        exact hl
      · simpa using (List.mem_filter.mp he).2

theorem hold_held (d : Directory) {i : Nat} (h : d.current = some i) (name : String) :
    (d.hold name).2.held = (name, i) :: d.held.filter fun e => e.1 != name := by
  simp only [hold, h]
  rw [release_held]
  rfl

/-- A reader who lets go takes one share with it. -/
theorem Counted.release {d : Directory} {others : List Nat}
    (h : d.Counted (d.held.map Prod.snd ++ others)) (hn : (d.held.map Prod.fst).Nodup)
    (name : String) :
    (d.release name).2.Counted ((d.release name).2.held.map Prod.snd ++ others) := by
  rw [release_held]
  unfold Directory.release heldBy?
  cases hl : d.held.lookup name with
  | none =>
    have all : d.held.filter (fun e => e.1 != name) = d.held := by
      refine List.filter_eq_self.mpr fun e he => ?_
      have other : name ≠ e.1 := by simpa using List.lookup_eq_none_iff.mp hl e he
      simpa using Ne.symm other
    rw [all]
    exact h
  | some g =>
    refine Counted.giveUp (d := { d with held := _ }) (h.perm ?_)
    exact ((perm_filter_of_lookup hn hl).map Prod.snd).append_right others

/-- A reader who takes a share in what answers adds one, in the place of its own. -/
theorem Counted.hold {d : Directory} {others : List Nat}
    (h : d.Counted (d.held.map Prod.snd ++ (d.current.toList ++ others)))
    (hn : (d.held.map Prod.fst).Nodup) (name : String) :
    (d.hold name).2.Counted
      ((d.hold name).2.held.map Prod.snd ++ (d.current.toList ++ others)) := by
  unfold Directory.hold
  cases hc : d.current with
  | none =>
    rw [hc] at h
    exact h
  | some i =>
    rw [hc] at h
    -- the new share comes first and the old one goes after it, so nothing is released in between
    have shared : (d.share i).Counted
        ((d.share i).held.map Prod.snd ++ (i :: ((some i).toList ++ others))) :=
      (h.share (by simp)).perm List.perm_middle.symm
    have released := shared.release hn name
    exact Counted.perm (d := { ((d.share i).release name).2 with held := _ }) released
      List.perm_middle

end Directory

end ShortLink.Geo
