/-
  Who is on a list of allowed addresses.

  A list is written with commas between its entries.  An entry is an address with blanks around it, as
  many and of whatever kind, or blanks alone, or nothing (`Lists`).  However it is written, the list
  admits the addresses that were put on it and no other (`allows_iff_mem`); and what one list admits, a
  longer one admits too (`allows_of_subset`).
-/
import ShortLink.Link
import ShortLink.Proofs.Text.Splitting

namespace ShortLink

open ShortLink.Text (isBlank trimChars dropAround splitOn joinWith Around)

/-! ## Written lists -/

/-- An address as it may stand on a list. -/
structure IsListable (address : String) : Prop where
  ne_nil : address.toList ≠ []
  comma : ',' ∉ address.toList
  first : ∀ c ∈ address.toList.head?, isBlank c = false
  last : ∀ c ∈ address.toList.getLast?, isBlank c = false

/-- Whether an address may stand on a list is seen from its characters. -/
instance (address : String) : Decidable (IsListable address) :=
  decidable_of_iff
    (address.toList ≠ [] ∧ ',' ∉ address.toList ∧
      (address.toList.head?.all fun c => isBlank c = false) = true ∧
      (address.toList.getLast?.all fun c => isBlank c = false) = true) <| by
    simp only [Option.all_eq_true, decide_eq_true_eq]
    exact ⟨fun ⟨ne_nil, comma, first, last⟩ => ⟨ne_nil, comma, first, last⟩,
      fun ⟨ne_nil, comma, first, last⟩ => ⟨ne_nil, comma, first, last⟩⟩

/-- The entries of a list, and the addresses that were put on it. -/
inductive Lists : List String → List (List Char) → Prop
  | nil : Lists [] []
  | address {address : String} {entry : List Char} {addresses : List String}
      {entries : List (List Char)} :
    IsListable address → Around isBlank address.toList entry → Lists addresses entries →
      Lists (address :: addresses) (entry :: entries)
  | empty {entry : List Char} {addresses : List String} {entries : List (List Char)} :
    (∀ c ∈ entry, isBlank c = true) → Lists addresses entries → Lists addresses (entry :: entries)

theorem IsListable.trimChars_eq {address : String} (h : IsListable address) {entry : List Char}
    (ha : Around isBlank address.toList entry) : trimChars entry = address.toList := by
  rw [trimChars, ha.dropAround_eq]
  exact Text.dropAround_eq_self h.first h.last

theorem trimChars_of_blank {entry : List Char} (h : ∀ c ∈ entry, isBlank c = true) :
    trimChars entry = [] := by
  have around : Around isBlank [] entry := ⟨entry, [], by simp, h, nofun⟩
  rw [trimChars, around.dropAround_eq]
  rfl

theorem not_comma_of_isBlank {c : Char} (h : isBlank c = true) : c ≠ ',' := by
  rintro rfl
  cases h

namespace Lists

variable {addresses : List String} {entries : List (List Char)}

/-- No entry holds a comma. -/
theorem comma_not_mem (h : Lists addresses entries) : ∀ entry ∈ entries, ',' ∉ entry := by
  induction h with
  | nil => nofun
  | address hl ha _ ih =>
    intro entry he hc
    rcases List.mem_cons.mp he with rfl | he
    · rcases ha.of_mem hc with hb | hm
      · exact not_comma_of_isBlank hb rfl
      · exact hl.comma hm
    · exact ih entry he hc
  | empty hb _ ih =>
    intro entry he hc
    rcases List.mem_cons.mp he with rfl | he
    · exact not_comma_of_isBlank (hb _ hc) rfl
    · exact ih entry he hc

/-- An address on the list takes up a part of the text. -/
theorem exists_entry_ne_nil (h : Lists addresses entries) (hne : addresses ≠ []) :
    ∃ entry ∈ entries, entry ≠ [] := by
  induction h with
  | nil => exact absurd rfl hne
  | address hl ha _ _ => exact ⟨_, List.mem_cons_self, ha.ne_nil hl.ne_nil⟩
  | empty _ _ ih =>
    obtain ⟨entry, he, h⟩ := ih hne
    exact ⟨entry, List.mem_cons_of_mem _ he, h⟩

/-- **Trimmed, the entries are the addresses**, and empty texts, which are no address. -/
theorem mem_trimChars_iff (h : Lists addresses entries) {client : String}
    (hc : IsListable client) :
    client.toList ∈ entries.map trimChars ↔ client ∈ addresses := by
  induction h with
  | nil => simp
  | address hl ha _ ih =>
    rw [List.map_cons, List.mem_cons, List.mem_cons, ih, hl.trimChars_eq ha, String.toList_inj]
  | empty hb _ ih =>
    rw [List.map_cons, List.mem_cons, ih, trimChars_of_blank hb]
    constructor
    · rintro (h | h)
      · exact absurd h hc.ne_nil
      · exact h
    · exact .inr

end Lists

theorem joinWith_ne_nil {sep : Char} {entries : List (List Char)}
    (h : ∃ entry ∈ entries, entry ≠ []) : joinWith sep entries ≠ [] := by
  obtain ⟨entry, he, hne⟩ := h
  cases entries with
  | nil => cases he
  | cons e es =>
    by_cases hs : es = []
    · subst hs
      rw [List.mem_singleton] at he
      rw [← he]
      exact hne
    · rw [Text.joinWith_cons_of_ne_nil sep e hs]
      simp

/-! ## What a link admits -/

namespace Link

/-- The list of a link is a written list of some addresses. -/
def ListsAddresses (link : Link) (addresses : List String) : Prop :=
  ∃ entries, Lists addresses entries ∧ link.allowedIps.toList = joinWith ',' entries

theorem allows_iff (link : Link) (client : String) :
    link.allows client = true ↔ link.allowedIps = "" ∨ client.toList ∈ link.allowedEntries := by
  rw [allows, Bool.or_eq_true, String.isEmpty_iff, List.contains_iff_mem]

/-- **A list admits the addresses that were put on it, and no other.** -/
theorem allows_iff_mem {link : Link} {addresses : List String} (h : link.ListsAddresses addresses)
    (hne : addresses ≠ []) {client : String} (hc : IsListable client) :
    link.allows client = true ↔ client ∈ addresses := by
  obtain ⟨entries, hl, ht⟩ := h
  have some : ∃ entry ∈ entries, entry ≠ [] := hl.exists_entry_ne_nil hne
  have written : link.allowedIps ≠ "" := by
    intro he
    rw [he] at ht
    exact joinWith_ne_nil some ht.symm
  have found : splitOn ',' link.allowedIps.toList = entries := by
    obtain ⟨entry, he, -⟩ := some
    rw [ht]
    exact Text.splitOn_joinWith (List.ne_nil_of_mem he) hl.comma_not_mem
  rw [allows_iff, allowedEntries, found, hl.mem_trimChars_iff hc]
  exact or_iff_right written

/-- **Who is admitted by a list is admitted by one that has all its entries.** -/
theorem allows_of_subset {link other : Link} (hne : link.allowedIps ≠ "")
    (hs : link.allowedEntries ⊆ other.allowedEntries) {client : String}
    (h : link.allows client = true) : other.allows client = true := by
  rw [allows_iff] at h ⊢
  rcases h with h | h
  · exact absurd h hne
  · exact .inr (hs h)

end Link

end ShortLink
