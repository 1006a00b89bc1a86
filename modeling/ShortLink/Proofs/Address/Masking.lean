/-
  What a record shows of an address.

  A record does not keep the address of a visit but its masked text, and beside it the place of the
  address.  Masking works on texts, by the separators that it finds in them.  What it hides is a
  matter of how addresses are printed: the text of an IPv4 address holds points and no colon, and the
  text of an IPv6 address always holds a colon.

  1. A text is masked in one of three ways (`mask_of_colon`, `mask_of_point`, `mask_of_neither`), and
     each of them leaves a text that is masked to itself (`mask_mask`).

  2. The masked text of an address is that of its network, and all IPv6 addresses are of one network
     here (`mask_text_v4`, `mask_text_v6`).  No two networks have one masked text
     (`mask_text_eq_iff`).

  3. The place of a record is that of the address that was printed (`location_ofVisit`).  So the
     records of two visits that differ in their addresses only are equal exactly if network and place
     are the same (`ofVisit_eq_iff`).
-/
import ShortLink.Enrichment
import ShortLink.Proofs.Geo.Places

namespace ShortLink

namespace Address

/-! ## Masking a text -/

theorem mask_of_colon {s : String} (h : ':' ∈ s.toList) : mask s = "IPv6 (Masked)" := by
  rw [mask, if_pos (List.contains_iff_mem.mpr h)]

theorem mask_of_point {before after : List Char} (colon : ':' ∉ before ++ '.' :: after)
    (last : '.' ∉ after) :
    mask (String.ofList (before ++ '.' :: after)) = String.ofList (before ++ ['.', '0']) := by
  rw [mask, String.toList_ofList, if_neg (mt List.contains_iff_mem.mp colon),
    Text.cutLast?_append before last]

theorem mask_of_neither {s : String} (colon : ':' ∉ s.toList) (point : '.' ∉ s.toList) :
    mask s = s := by
  rw [mask, if_neg (mt List.contains_iff_mem.mp colon), Text.cutLast?_of_not_mem point]

/-- **A masked text is masked already**, whatever the text. -/
theorem mask_mask (s : String) : mask (mask s) = mask s := by
  by_cases colon : ':' ∈ s.toList
  · -- the words that stand for an IPv6 address hold neither separator
    rw [mask_of_colon colon]
    decide
  by_cases point : '.' ∈ s.toList
  · obtain ⟨before, after, hs, last⟩ := Text.exists_append_cons_of_mem point
    rw [hs] at colon
    have front : ':' ∉ before := fun h => colon (List.mem_append_left _ h)
    have still : ':' ∉ before ++ '.' :: ['0'] := by simpa using front
    rw [← String.ofList_toList (s := s), hs, mask_of_point colon last,
      mask_of_point still (by decide)]
  · rw [mask_of_neither colon point, mask_of_neither colon point]

/-! ## Masking an address -/

/-- The text of an IPv4 address, by its numbers. -/
theorem text_v4 (a b c d : UInt8) :
    (Address.v4 ⟨a, b, c, d⟩).text =
      toString a ++ "." ++ toString b ++ "." ++ toString c ++ "." ++ toString d := by
  have digits (n : UInt8) : (toString n).toList = V4.octetChars n := String.toList_ofList
  have point : ".".toList = ['.'] := rfl
  rw [← String.toList_inj, text, String.toList_ofList]
  simp only [chars, V4.chars, Text.joinWith, String.toList_append, digits, point, List.append_assoc,
    List.cons_append, List.nil_append]

/-- The text of an IPv4 address is cut behind its network. -/
theorem chars_v4 (a b c d : UInt8) :
    (Address.v4 ⟨a, b, c, d⟩).chars =
      Text.joinWith '.' [V4.octetChars a, V4.octetChars b, V4.octetChars c] ++
        '.' :: V4.octetChars d := by
  simp only [chars, V4.chars, Text.joinWith, List.append_assoc, List.cons_append]

theorem mask_text_v4 (a b c d : UInt8) :
    mask (Address.v4 ⟨a, b, c, d⟩).text = (Address.v4 ⟨a, b, c, 0⟩).text := by
  have last : '.' ∉ V4.octetChars d := fun h =>
    absurd (V4.isDigit_of_mem_octetChars h) (by decide)
  have colon := V4.colon_not_mem_chars ⟨a, b, c, d⟩
  have cut := chars_v4 a b c d
  rw [text, cut, mask_of_point (cut ▸ colon) last, text, chars_v4]
  rfl

theorem mask_text_v6 (x : V6) : mask (Address.v6 x).text = "IPv6 (Masked)" := by
  refine mask_of_colon ?_
  rw [text, String.toList_ofList]
  exact x.spells_chars.colon_mem

/-- Addresses of one network: IPv4 addresses that differ in their last number only, or any two IPv6
addresses. -/
inductive SameNetwork : Address → Address → Prop
  | v4 (a b c d e : UInt8) : SameNetwork (.v4 ⟨a, b, c, d⟩) (.v4 ⟨a, b, c, e⟩)
  | v6 (x y : V6) : SameNetwork (.v6 x) (.v6 y)

/-- The words that stand for an IPv6 address are no address themselves. -/
theorem text_ne_label (x : Address) : x.text ≠ "IPv6 (Masked)" := by
  intro h
  have unreadable : ofText? "IPv6 (Masked)" = none := by decide
  rw [← h, ofText?_text] at unreadable
  cases unreadable

/-- **The masked text tells addresses apart by their networks**, and by nothing else. -/
theorem mask_text_eq_iff {x y : Address} : mask x.text = mask y.text ↔ SameNetwork x y := by
  constructor
  · intro h
    cases x with
    | v4 x =>
      obtain ⟨a, b, c, d⟩ := x
      rw [mask_text_v4] at h
      cases y with
      | v4 y =>
        obtain ⟨a', b', c', e⟩ := y
        rw [mask_text_v4, text_inj] at h
        cases h
        exact .v4 a b c d e
      | v6 y => exact absurd (h.trans (mask_text_v6 y)) (text_ne_label _)
    | v6 x =>
      rw [mask_text_v6] at h
      cases y with
      | v4 y =>
        obtain ⟨a, b, c, d⟩ := y
        rw [mask_text_v4] at h
        exact absurd h.symm (text_ne_label _)
      | v6 y => exact .v6 x y
  · rintro (⟨a, b, c, d, e⟩ | ⟨x, y⟩)
    · rw [mask_text_v4, mask_text_v4]
    · rw [mask_text_v6, mask_text_v6]

end Address

/-! ## Records -/

namespace VisitRecord

/-- The place that a record keeps. -/
def location (r : VisitRecord) : Geo.Location := ⟨r.country, r.region, r.city⟩

/-- The place of a record is that of the address as it was before it was masked. -/
theorem location_ofVisit (d : Geo.Directory) (v : Visit) (x : Address) :
    (ofVisit d { v with clientIp := x.text }).location = d.place x :=
  d.locate_text x

/-- **A record shows the network and the place of an address**, and nothing else of it. -/
theorem ofVisit_eq_iff (d : Geo.Directory) (v : Visit) (x y : Address) :
    ofVisit d { v with clientIp := x.text } = ofVisit d { v with clientIp := y.text } ↔
      Address.SameNetwork x y ∧ d.place x = d.place y := by
  rw [← Address.mask_text_eq_iff, ← d.locate_text x, ← d.locate_text y]
  constructor
  · intro h
    exact ⟨congrArg ipAddress h, congrArg location h⟩
  · rintro ⟨masked, place⟩
    simp only [ofVisit, masked, place]

end VisitRecord

end ShortLink
