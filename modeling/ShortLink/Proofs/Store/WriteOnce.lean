/-
  Links are written once.

  Statements are carried out one after the other: the tables are made, links are asked for and
  written.  What comes of it is described by the links that were written, each as it was given and as
  it was stored (`written`), and by nothing else.

  1. A statement that writes a link does one of three things (`insertLink_cases`).

  2. `WrittenOnce` is the invariant: the store has the links that were written, in order, under ids that
     go up, and no two with one code.  It is kept by each statement (`WrittenOnce.execute`) and so by
     any row of them (`WrittenOnce.after`).

  3. Under the invariant the store is a map from codes to the links that were written (`find_eq`), a
     code that is taken stays so (`insertLink_of_taken`), and one that is free can be taken
     (`insertLink_of_free`).
-/
import Mathlib.Data.List.Find
import Mathlib.Data.List.Nodup
import ShortLink.Store

namespace ShortLink.Store

/-! ## Statements -/

/-- A statement about links. -/
inductive Statement where
  | init
  | find (code : String)
  | insert (link : Link)

/-- What a statement is answered. -/
inductive Reply where
  | made
  | found (answer : Except StoreError (Option Link))
  | inserted (answer : Except StoreError Link)

/-- Carry out a statement. -/
def execute (s : Store) : Statement → Reply × Store
  | .init => (.made, s.init)
  | .find code => (.found (s.find code), s)
  | .insert link => (.inserted (s.insertLink link).1, (s.insertLink link).2)

/-- The store after a row of statements. -/
def after (s : Store) (statements : List Statement) : Store :=
  statements.foldl (fun s statement => (s.execute statement).2) s

/-- A row of statements, each with its reply. -/
def log : Store → List Statement → List (Statement × Reply)
  | _, [] => []
  | s, statement :: rest =>
    (statement, (s.execute statement).1) :: log (s.execute statement).2 rest

/-- The link that a statement wrote, as it was given and as it was stored. -/
def written? : Statement × Reply → Option (Link × Link)
  | (.insert given, .inserted (.ok stored)) => some (given, stored)
  | _ => none

/-- The links that were written, in order. -/
def written (log : List (Statement × Reply)) : List (Link × Link) := log.filterMap written?

/-- How many statements tried to write a link. -/
def attempts (statements : List Statement) : Nat :=
  statements.countP fun
    | .insert _ => true
    | _ => false

/-- Whether the tables were made. -/
def makes (statements : List Statement) : Bool :=
  statements.any fun
    | .init => true
    | _ => false

/-- **What comes of writing a link**: the store cannot do it, the code is taken, or the link is
written under the next id. Where it is not written, the tables are as they were. -/
theorem insertLink_cases (s : Store) (link : Link) :
    (¬ (s.ready = true ∧ s.nextLinkId ≤ maxLinkId) ∧
      s.insertLink link = (.error .unavailable, s)) ∨
    (s.ready = true ∧ s.nextLinkId ≤ maxLinkId ∧ (s.link? link.code).isSome = true ∧
      s.insertLink link = (.error .conflict, { s with nextLinkId := s.nextLinkId + 1 })) ∨
    (s.ready = true ∧ s.nextLinkId ≤ maxLinkId ∧ s.link? link.code = none ∧
      s.insertLink link =
        (.ok { link with id := Int64.ofNat s.nextLinkId },
         { s with
            links := s.links ++ [{ link with id := Int64.ofNat s.nextLinkId }]
            nextLinkId := s.nextLinkId + 1 })) := by
  unfold insertLink
  by_cases able : s.ready = true ∧ s.nextLinkId ≤ maxLinkId
  · rw [if_pos able]
    cases hl : s.link? link.code with
    | some old => exact .inr (.inl ⟨able.1, able.2, rfl, rfl⟩)
    | none => exact .inr (.inr ⟨able.1, able.2, rfl, rfl⟩)
  · rw [if_neg able]
    exact .inl ⟨able, rfl⟩

theorem links_of_insertLink_error {s : Store} {link : Link} {error : StoreError}
    (h : (s.insertLink link).1 = .error error) : (s.insertLink link).2.links = s.links := by
  obtain ⟨-, hi⟩ | ⟨-, -, -, hi⟩ | ⟨-, -, -, hi⟩ := s.insertLink_cases link
  · rw [hi]
  · rw [hi]
  · rw [hi] at h
    cases h

/-! ## The invariant -/

/-- A store whose links are those that were written. -/
structure WrittenOnce (written : List (Link × Link)) (s : Store) : Prop where
  links : s.links = written.map Prod.snd
  given : ∀ p ∈ written, p.2 = { p.1 with id := p.2.id }
  codes : (written.map fun p => p.1.code).Nodup
  increasing : (written.map fun p => p.2.id).Pairwise (· < ·)
  below : ∀ p ∈ written, p.2.id.toInt < s.nextLinkId
  unmade : s.ready = false → written = []

namespace WrittenOnce

variable {written : List (Link × Link)} {s : Store}

theorem blank : WrittenOnce [] blank where
  links := rfl
  given := fun _ hp => absurd hp List.not_mem_nil
  codes := List.nodup_nil
  increasing := List.Pairwise.nil
  below := fun _ hp => absurd hp List.not_mem_nil
  unmade := fun _ => rfl

/-- The link with a code is the one that was written first under it. -/
theorem link?_eq (h : WrittenOnce written s) (code : String) :
    s.link? code = (written.find? fun p => p.1.code == code).map Prod.snd := by
  have kept (p : Link × Link) (hp : p ∈ written) : (p.2.code == code) = (p.1.code == code) := by
    rw [h.given p hp]
  rw [link?, h.links, List.find?_map, ← List.find?_congr kept]
  rfl

theorem isSome_link?_iff (h : WrittenOnce written s) {code : String} :
    (s.link? code).isSome = true ↔ ∃ p ∈ written, p.1.code = code := by
  rw [h.link?_eq, Option.isSome_map, List.find?_isSome]
  simp only [beq_iff_eq]

theorem link?_eq_none_iff (h : WrittenOnce written s) {code : String} :
    s.link? code = none ↔ ∀ p ∈ written, p.1.code ≠ code := by
  rw [← Option.not_isSome_iff_eq_none, h.isSome_link?_iff]
  simp only [not_exists, not_and, ne_eq]

/-- The store is a map from codes to the links that were written. -/
theorem find_eq (h : WrittenOnce written s) (hs : s.ready = true) (code : String) :
    s.find code = .ok ((written.find? fun p => p.1.code == code).map Prod.snd) := by
  rw [find, if_pos hs, h.link?_eq]

/-- A link whose code is taken is refused, and the tables stay as they are. -/
theorem insertLink_of_taken (h : WrittenOnce written s) {link : Link}
    (taken : ∃ p ∈ written, p.1.code = link.code) (left : s.nextLinkId ≤ maxLinkId) :
    s.insertLink link = (.error .conflict, { s with nextLinkId := s.nextLinkId + 1 }) := by
  have there : (s.link? link.code).isSome = true := h.isSome_link?_iff.mpr taken
  obtain ⟨cannot, -⟩ | ⟨-, -, -, refused⟩ | ⟨-, -, free, -⟩ := s.insertLink_cases link
  · have ready : s.ready = true := by
      obtain ⟨p, hp, -⟩ := taken
      by_contra unready
      rw [h.unmade (Bool.eq_false_iff.mpr unready)] at hp
      exact List.not_mem_nil hp
    exact absurd ⟨ready, left⟩ cannot
  · exact refused
  · rw [free] at there
    cases there

/-- A link whose code is free is written under the next id. -/
theorem insertLink_of_free (h : WrittenOnce written s) (hs : s.ready = true) {link : Link}
    (free : ∀ p ∈ written, p.1.code ≠ link.code) (left : s.nextLinkId ≤ maxLinkId) :
    (s.insertLink link).1 = .ok { link with id := Int64.ofNat s.nextLinkId } := by
  have none : s.link? link.code = none := h.link?_eq_none_iff.mpr free
  obtain ⟨cannot, -⟩ | ⟨-, -, taken, -⟩ | ⟨-, -, -, done⟩ := s.insertLink_cases link
  · exact absurd ⟨hs, left⟩ cannot
  · rw [none] at taken
    cases taken
  · rw [done]

/-- One more link is written, under an id above all others. -/
theorem concat (h : WrittenOnce written s) (hs : s.ready = true) {link : Link}
    (left : s.nextLinkId ≤ maxLinkId) (free : s.link? link.code = none) :
    let stored := { link with id := Int64.ofNat s.nextLinkId }
    WrittenOnce (written ++ [(link, stored)])
      { s with links := s.links ++ [stored], nextLinkId := s.nextLinkId + 1 } := by
  intro stored
  have id : stored.id.toInt = s.nextLinkId :=
    Int64.toInt_ofNat_of_lt (Nat.lt_of_le_of_lt left (by decide))
  have others := h.link?_eq_none_iff.mp free
  refine ⟨?_, ?_, ?_, ?_, ?_, ?_⟩
  · rw [List.map_append, ← h.links]
    rfl
  · intro p hp
    rcases List.mem_append.mp hp with hp | hp
    · exact h.given p hp
    · rw [List.mem_singleton.mp hp]
  · rw [List.map_append, List.nodup_append]
    refine ⟨h.codes, List.nodup_singleton _, fun c hc d hd => ?_⟩
    obtain ⟨p, hp, rfl⟩ := List.mem_map.mp hc
    rw [List.mem_singleton.mp hd]
    exact others p hp
  · rw [List.map_append, List.pairwise_append]
    refine ⟨h.increasing, List.pairwise_singleton _ _, fun a ha b hb => ?_⟩
    obtain ⟨p, hp, rfl⟩ := List.mem_map.mp ha
    rw [List.mem_singleton.mp hb, Int64.lt_iff_toInt_lt]
    show p.2.id.toInt < stored.id.toInt
    rw [id]
    exact h.below p hp
  · intro p hp
    show p.2.id.toInt < ((s.nextLinkId + 1 : Nat) : Int)
    rcases List.mem_append.mp hp with hp | hp
    · have := h.below p hp
      omega
    · rw [List.mem_singleton.mp hp, id]
      omega
  · intro unready
    rw [hs] at unready
    cases unready

/-- Each statement keeps the invariant, for what it writes. -/
theorem execute (h : WrittenOnce written s) (statement : Statement) :
    WrittenOnce (written ++ (written? (statement, (s.execute statement).1)).toList)
      (s.execute statement).2 := by
  cases statement with
  | init =>
    show WrittenOnce (written ++ []) s.init
    rw [List.append_nil]
    exact { h with unmade := nofun }
  | find code =>
    show WrittenOnce (written ++ []) s
    rwa [List.append_nil]
  | insert link =>
    show WrittenOnce (written ++ (written? (.insert link, .inserted (s.insertLink link).1)).toList)
      (s.insertLink link).2
    obtain ⟨-, cannot⟩ | ⟨-, -, -, refused⟩ | ⟨ready, left, free, done⟩ := s.insertLink_cases link
    · rw [cannot]
      show WrittenOnce (written ++ []) s
      rwa [List.append_nil]
    · rw [refused]
      show WrittenOnce (written ++ []) { s with nextLinkId := s.nextLinkId + 1 }
      rw [List.append_nil]
      refine { h with below := fun p hp => ?_ }
      have := h.below p hp
      show p.2.id.toInt < ((s.nextLinkId + 1 : Nat) : Int)
      omega
    · rw [done]
      exact h.concat ready left free

end WrittenOnce

/-! ## Rows of statements -/

theorem written_log_cons (s : Store) (statement : Statement) (rest : List Statement) :
    written (s.log (statement :: rest)) =
      (written? (statement, (s.execute statement).1)).toList ++
        written ((s.execute statement).2.log rest) := by
  rw [log, written, List.filterMap_cons]
  cases written? (statement, (s.execute statement).1) <;> rfl

/-- **The store has the links that were written**, after any row of statements. -/
theorem WrittenOnce.after {earlier : List (Link × Link)} {s : Store} (h : WrittenOnce earlier s)
    (statements : List Statement) :
    WrittenOnce (earlier ++ written (s.log statements)) (s.after statements) := by
  induction statements generalizing earlier s with
  | nil => rwa [log, written, List.filterMap_nil, List.append_nil]
  | cons statement rest ih =>
    rw [written_log_cons, ← List.append_assoc]
    exact ih (h.execute statement)

/-- The tables are there once they were made. -/
theorem ready_after (s : Store) (statements : List Statement) :
    (s.after statements).ready = (s.ready || makes statements) := by
  induction statements generalizing s with
  | nil => exact (Bool.or_false s.ready).symm
  | cons statement rest ih =>
    have rest' := ih (s.execute statement).2
    cases statement with
    | init => exact rest'.trans (by simp [execute, Store.init, makes])
    | find code => exact rest'
    | insert link =>
      have same : (s.execute (.insert link)).2.ready = s.ready := by
        show (s.insertLink link).2.ready = s.ready
        obtain ⟨-, h⟩ | ⟨-, -, -, h⟩ | ⟨-, -, -, h⟩ := s.insertLink_cases link <;> rw [h]
      rw [same] at rest'
      exact rest'

/-- Each attempt uses up one id at most. -/
theorem nextLinkId_after_le (s : Store) (statements : List Statement) :
    (s.after statements).nextLinkId ≤ s.nextLinkId + attempts statements := by
  induction statements generalizing s with
  | nil => exact Nat.le_refl _
  | cons statement rest ih =>
    have rest' := ih (s.execute statement).2
    cases statement with
    | init => exact rest'
    | find code => exact rest'
    | insert link =>
      have one : (s.execute (.insert link)).2.nextLinkId ≤ s.nextLinkId + 1 := by
        show (s.insertLink link).2.nextLinkId ≤ s.nextLinkId + 1
        obtain ⟨-, h⟩ | ⟨-, -, -, h⟩ | ⟨-, -, -, h⟩ := s.insertLink_cases link
        · rw [h]
          exact Nat.le_succ s.nextLinkId
        · rw [h]
        · rw [h]
      have count : attempts (.insert link :: rest) = attempts rest + 1 := by
        simp [attempts]
      rw [count]
      exact Nat.le_trans rest' (by omega)

end ShortLink.Store
