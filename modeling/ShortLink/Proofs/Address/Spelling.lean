/-
  What writes an address.

  An IPv4 address has one text, the one it is printed as (`V4.ofChars?_eq_some_iff`).  An IPv6 address
  has many: its digits may be of either case and have zeros in front, any zero groups in a row may be
  left out, and the last two groups may be written as an IPv4 address.  `V6.Spells` says so rule by
  rule, and the reader accepts a text for an address exactly if the text spells it
  (`V6.ofChars?_eq_some_iff`).  The printed text is one of the spellings (`V6.spells_chars`), so an
  address comes back from its text (`ofText?_text`), and no two addresses have one text.

  1. Groups: up to four hexadecimal digits (`group?_eq_some_iff`).

  2. Pieces between colons: groups, the last two perhaps as an IPv4 address (`tail?_eq_some_iff`).

  3. The double colon: pieces hold no colon and are not empty, so that the first double colon is the
     one that was put there (`cutDouble?_joinWith_append`).

  4. Printing: what is left out is a run of zero groups (`exists_of_longestRun`).
-/
import ShortLink.Address.Basic
import ShortLink.Proofs.Text.Digits
import ShortLink.Proofs.Text.Splitting
import Mathlib.Data.List.Forall2
import Mathlib.Data.List.TakeWhile

namespace ShortLink.Address

open ShortLink.Text (splitOn joinWith hexValue? hexNumber?)

/-! ## IPv4 -/

namespace V4

theorem octet?_eq_some_iff {cs : List Char} {n : UInt8} :
    octet? cs = some n ↔ cs = octetChars n := by
  constructor
  · intro h
    unfold octet? at h
    split at h
    · next m hm =>
      split at h
      · next hc =>
        rw [Bool.and_eq_true, decide_eq_true_eq, beq_iff_eq] at hc
        obtain rfl := Option.some.inj h
        have number : (UInt8.ofNat m).toNat = m := UInt8.toNat_ofNat_of_lt hc.1
        rw [octetChars, number, hc.2]
      · cases h
    · cases h
  · rintro rfl
    have small : n.toNat < 256 := n.toNat_lt
    rw [octet?, octetChars, Text.digitsValue?_toDigits]
    simp [small]

theorem isDigit_of_mem_octetChars {n : UInt8} {c : Char} (h : c ∈ octetChars n) :
    c.isDigit = true :=
  Nat.isDigit_of_mem_toDigits (by decide) (by decide) h

/-- **An IPv4 address has one text**, and it is read as the address. -/
theorem ofChars?_eq_some_iff {cs : List Char} {x : V4} : ofChars? cs = some x ↔ cs = x.chars := by
  constructor
  · intro h
    unfold ofChars? at h
    split at h
    · next a b c d hs =>
      have whole := Text.joinWith_splitOn '.' cs
      rw [hs] at whole
      split at h
      · next a' b' c' d' ha hb hc hd =>
        obtain rfl := Option.some.inj h
        rw [octet?_eq_some_iff] at ha hb hc hd
        rw [chars, ← ha, ← hb, ← hc, ← hd, whole]
      · cases h
    · cases h
  · rintro rfl
    have apart : splitOn '.' x.chars =
        [octetChars x.a, octetChars x.b, octetChars x.c, octetChars x.d] := by
      refine Text.splitOn_joinWith (by simp) fun piece hp hc => ?_
      have digits : ∃ n, piece = octetChars n := by
        simp only [List.mem_cons, List.not_mem_nil, or_false] at hp
        rcases hp with rfl | rfl | rfl | rfl <;> exact ⟨_, rfl⟩
      obtain ⟨n, rfl⟩ := digits
      exact absurd (isDigit_of_mem_octetChars hc) (by decide)
    have back (n : UInt8) : octet? (octetChars n) = some n := octet?_eq_some_iff.mpr rfl
    simp only [ofChars?, apart, back]

/-- An address's text is digits and points. -/
theorem isDigit_or_of_mem_chars {x : V4} {c : Char} (h : c ∈ x.chars) :
    c.isDigit = true ∨ c = '.' := by
  simp only [chars, joinWith, List.mem_append, List.mem_cons] at h
  rcases h with h | rfl | h | rfl | h | rfl | h <;>
    first | exact .inr rfl | exact .inl (isDigit_of_mem_octetChars h)

theorem colon_not_mem_chars (x : V4) : ':' ∉ x.chars := by
  intro h
  rcases isDigit_or_of_mem_chars h with h | h
  · exact absurd h (by decide)
  · exact absurd h (by decide)

theorem point_mem_chars (x : V4) : '.' ∈ x.chars := by
  simp [chars, joinWith]

end V4

/-! ## Groups -/

namespace V6

/-- The spellings of a group: its digits, of either case and with zeros in front, but at most four
in all. -/
def SpellsGroup (cs : List Char) (g : UInt16) : Prop :=
  cs.length ≤ 4 ∧ ∃ zeros, cs.map Char.toLower = List.replicate zeros '0' ++ groupChars g

theorem SpellsGroup.ne_nil {cs : List Char} {g : UInt16} (h : SpellsGroup cs g) : cs ≠ [] := by
  rintro rfl
  obtain ⟨-, zeros, hz⟩ := h
  have pos : 0 < (groupChars g).length := Nat.length_toDigits_pos
  have length := congrArg List.length hz
  simp only [List.map_nil, List.length_nil, List.length_append, List.length_replicate] at length
  omega

theorem group?_eq_some_iff {cs : List Char} {g : UInt16} :
    group? cs = some g ↔ SpellsGroup cs g := by
  unfold group?
  constructor
  · intro h
    split at h
    · next hl =>
      rw [Bool.and_eq_true, decide_eq_true_eq, decide_eq_true_eq] at hl
      obtain ⟨n, hn, rfl⟩ := Option.map_eq_some_iff.mp h
      have ne : cs ≠ [] := List.ne_nil_of_length_pos hl.1
      obtain ⟨zeros, hz⟩ := (Text.hexNumber?_eq_some_iff ne).mp hn
      have small : n < 65536 := by
        have length := congrArg List.length hz
        simp only [List.length_map, List.length_append, List.length_replicate] at length
        have few : (Nat.toDigits 16 n).length ≤ 4 := by omega
        exact (Nat.length_toDigits_le_iff (by decide) (by decide)).mp few
      have number : (UInt16.ofNat n).toNat = n := UInt16.toNat_ofNat_of_lt small
      exact ⟨hl.2, zeros, by rw [hz, groupChars, number]⟩
    · cases h
  · intro h
    obtain ⟨hl, hz⟩ := h
    have ne : cs ≠ [] := SpellsGroup.ne_nil ⟨hl, hz⟩
    have pos : 1 ≤ cs.length := List.length_pos_iff.mpr ne
    have read : hexNumber? cs = some g.toNat := (Text.hexNumber?_eq_some_iff ne).mpr hz
    rw [decide_eq_true pos, decide_eq_true hl, Bool.and_self, if_pos rfl, read, Option.map_some,
      UInt16.ofNat_toNat]

/-- The characters of a group are hexadecimal digits. -/
theorem SpellsGroup.isSome_hexValue? {cs : List Char} {g : UInt16} (h : SpellsGroup cs g) {c : Char}
    (hc : c ∈ cs) : (hexValue? c).isSome = true := by
  obtain ⟨-, zeros, hz⟩ := h
  have lower : c.toLower ∈ List.replicate zeros '0' ++ groupChars g := by
    rw [← hz]
    exact List.mem_map_of_mem hc
  have values : ∀ d < 16, (hexValue? (Nat.digitChar d)).isSome = true := by decide
  rw [← Text.hexValue?_toLower]
  rcases List.mem_append.mp lower with hm | hm
  · rw [List.eq_of_mem_replicate hm]
    decide
  · obtain ⟨d, hd, he⟩ := Text.mem_toDigits (by decide) hm
    rw [he]
    exact values d hd

/-- The printed digits of a group spell it. -/
theorem spellsGroup_groupChars (g : UInt16) : SpellsGroup (groupChars g) g := by
  have small : g.toNat < 65536 := g.toNat_lt
  have lower : ∀ d < 16, (Nat.digitChar d).toLower = Nat.digitChar d := by decide
  refine ⟨(Nat.length_toDigits_le_iff (by decide) (by decide)).mpr small, 0, ?_⟩
  rw [List.replicate_zero, List.nil_append]
  refine (List.map_congr_left fun c hc => ?_).trans (List.map_id _)
  obtain ⟨d, hd, rfl⟩ := Text.mem_toDigits (by decide) hc
  exact lower d hd

/-! ## Pieces -/

/-- The spellings of groups by the pieces between colons: one for each group, but the last two groups
may be written as an IPv4 address. -/
inductive SpellsTail : List (List Char) → List UInt16 → Prop
  | nil : SpellsTail [] []
  | v4 (x : V4) : SpellsTail [x.chars] (groupsOfV4 x)
  | cons {piece : List Char} {g : UInt16} {pieces : List (List Char)} {gs : List UInt16} :
    SpellsGroup piece g → SpellsTail pieces gs → SpellsTail (piece :: pieces) (g :: gs)

theorem SpellsTail.of_forall₂ {pieces : List (List Char)} {gs : List UInt16}
    (h : List.Forall₂ SpellsGroup pieces gs) : SpellsTail pieces gs := by
  induction h with
  | nil => exact .nil
  | cons hg _ ih => exact .cons hg ih

/-- A group is not written as an IPv4 address. -/
theorem SpellsGroup.ofChars?_eq_none {cs : List Char} {g : UInt16} (h : SpellsGroup cs g) :
    V4.ofChars? cs = none := by
  cases hx : V4.ofChars? cs with
  | none => rfl
  | some x =>
    obtain rfl := V4.ofChars?_eq_some_iff.mp hx
    exact absurd (h.isSome_hexValue? x.point_mem_chars) (by decide)

theorem groups?_eq_some_iff {pieces : List (List Char)} {gs : List UInt16} :
    groups? pieces = some gs ↔ List.Forall₂ SpellsGroup pieces gs := by
  induction pieces generalizing gs with
  | nil => simp [groups?, eq_comm]
  | cons piece pieces ih =>
    have unfolded : groups? (piece :: pieces) =
        (group? piece).bind fun g => (groups? pieces).map (g :: ·) := by
      simp only [groups?, List.mapM_cons]
      cases group? piece with
      | none => rfl
      | some g => cases List.mapM group? pieces <;> rfl
    rw [unfolded, Option.bind_eq_some_iff, List.forall₂_cons_left_iff]
    constructor
    · rintro ⟨g, hg, h⟩
      obtain ⟨gs', hs, rfl⟩ := Option.map_eq_some_iff.mp h
      exact ⟨g, gs', group?_eq_some_iff.mp hg, ih.mp hs, rfl⟩
    · rintro ⟨g, gs', hg, hs, rfl⟩
      exact ⟨g, group?_eq_some_iff.mpr hg, by rw [ih.mpr hs, Option.map_some]⟩

theorem tail?_eq_some_iff {pieces : List (List Char)} {gs : List UInt16} :
    tail? pieces = some gs ↔ SpellsTail pieces gs := by
  constructor
  · intro h
    induction pieces generalizing gs with
    | nil =>
      obtain rfl : [] = gs := Option.some.inj h
      exact .nil
    | cons piece pieces ih =>
      cases pieces with
      | nil =>
        rw [tail?] at h
        split at h
        · next x hx =>
          obtain rfl := V4.ofChars?_eq_some_iff.mp hx
          obtain rfl := Option.some.inj h
          exact .v4 x
        · obtain ⟨g, hg, rfl⟩ := Option.map_eq_some_iff.mp h
          exact .cons (group?_eq_some_iff.mp hg) .nil
      | cons p ps =>
        rw [tail?] at h
        · split at h
          · next g gs' hg hs =>
            obtain rfl := Option.some.inj h
            exact .cons (group?_eq_some_iff.mp hg) (ih hs)
          · cases h
        · exact nofun
  · intro h
    induction h with
    | nil => rfl
    | v4 x =>
      have read : V4.ofChars? x.chars = some x := V4.ofChars?_eq_some_iff.mpr rfl
      rw [tail?, read]
    | @cons piece g pieces gs hg _ ih =>
      have read := group?_eq_some_iff.mpr hg
      cases pieces with
      | nil =>
        obtain rfl : [] = gs := Option.some.inj ih
        rw [tail?, hg.ofChars?_eq_none]
        simp only [read, Option.map_some]
      | cons p ps =>
        rw [tail?]
        · simp only [read, ih]
        · exact nofun

/-- Pieces are not empty and hold no colon. -/
theorem SpellsTail.proper {pieces : List (List Char)} {gs : List UInt16}
    (h : SpellsTail pieces gs) :
    ∀ piece ∈ pieces, piece ≠ [] ∧ ':' ∉ piece := by
  induction h with
  | nil => nofun
  | v4 x =>
    intro piece hp
    obtain rfl := List.mem_singleton.mp hp
    exact ⟨List.ne_nil_of_mem x.point_mem_chars, x.colon_not_mem_chars⟩
  | cons hg _ ih =>
    intro p hp
    rcases List.mem_cons.mp hp with rfl | hp
    · exact ⟨hg.ne_nil, fun hc => absurd (hg.isSome_hexValue? hc) (by decide)⟩
    · exact ih p hp

theorem SpellsTail.apart {pieces : List (List Char)} {gs : List UInt16} (h : SpellsTail pieces gs)
    (hne : pieces ≠ []) : splitOn ':' (joinWith ':' pieces) = pieces :=
  Text.splitOn_joinWith hne fun piece hp => (h.proper piece hp).2

theorem SpellsTail.piecesOf_joinWith {pieces : List (List Char)} {gs : List UInt16}
    (h : SpellsTail pieces gs) : piecesOf (joinWith ':' pieces) = pieces := by
  by_cases hp : pieces = []
  · rw [hp]
    rfl
  · have apart := h.apart hp
    have ne : joinWith ':' pieces ≠ [] := by
      intro he
      -- the empty text is one empty piece, and that is no spelling of a group
      rw [he] at apart
      have empty : [] ∈ pieces := by rw [← apart]; exact List.mem_singleton_self []
      exact (h.proper [] empty).1 rfl
    rw [piecesOf, if_neg ne, apart]

theorem joinWith_piecesOf (cs : List Char) : joinWith ':' (piecesOf cs) = cs := by
  by_cases h : cs = []
  · rw [h]
    rfl
  · rw [piecesOf, if_neg h, Text.joinWith_splitOn]

/-! ## The double colon -/

/-- A character that does not begin a double colon stands before it. -/
theorem cutDouble?_cons {c : Char} {cs : List Char} (h : ¬ (c = ':' ∧ cs.head? = some ':')) :
    cutDouble? (c :: cs) = (cutDouble? cs).map fun (before, after) => (c :: before, after) := by
  rw [cutDouble?.eq_def]
  split
  · next he =>
    obtain ⟨rfl, rfl⟩ := List.cons.inj he
    exact absurd ⟨rfl, rfl⟩ h
  · next he => cases he
  · next he =>
    obtain ⟨rfl, rfl⟩ := List.cons.inj he
    rfl

theorem cutDouble?_append {piece : List Char} (h : ':' ∉ piece) (rest : List Char) :
    cutDouble? (piece ++ rest) =
      (cutDouble? rest).map fun (before, after) => (piece ++ before, after) := by
  induction piece with
  | nil => simp
  | cons c cs ih =>
    rw [List.mem_cons, not_or] at h
    rw [List.cons_append, cutDouble?_cons (fun hc => h.1 hc.1.symm), ih h.2, Option.map_map]
    rfl

/-- **The first double colon comes after the pieces**, wherever it is. -/
theorem cutDouble?_joinWith_append {pieces : List (List Char)}
    (h : ∀ piece ∈ pieces, piece ≠ [] ∧ ':' ∉ piece) (rest : List Char) :
    cutDouble? (joinWith ':' pieces ++ rest) =
      (cutDouble? rest).map fun (before, after) => (joinWith ':' pieces ++ before, after) := by
  induction pieces with
  | nil => simp [joinWith]
  | cons piece pieces ih =>
    obtain ⟨-, first⟩ := h piece List.mem_cons_self
    have others := ih fun p hp => h p (List.mem_cons_of_mem piece hp)
    cases pieces with
    | nil => exact cutDouble?_append first rest
    | cons p ps =>
      -- after a single colon comes a piece, and that begins with something else
      have single : (joinWith ':' (p :: ps) ++ rest).head? ≠ some ':' := by
        obtain ⟨ne, second⟩ := h p (List.mem_cons_of_mem piece List.mem_cons_self)
        obtain ⟨c, cs, rfl⟩ := List.exists_cons_of_ne_nil ne
        have other : c ≠ ':' := fun hc => second (hc ▸ List.mem_cons_self)
        cases ps with
        | nil => simpa [joinWith] using other
        | cons q qs => simpa [joinWith] using other
      rw [Text.joinWith_cons_of_ne_nil ':' piece (List.cons_ne_nil p ps), List.append_assoc,
        cutDouble?_append first, List.cons_append, cutDouble?_cons (fun hc => single hc.2), others,
        Option.map_map, Option.map_map]
      refine congrFun (congrArg _ ?_) _
      funext x
      simp

theorem eq_of_cutDouble? {cs before after : List Char} (h : cutDouble? cs = some (before, after)) :
    cs = before ++ ':' :: ':' :: after := by
  induction cs generalizing before with
  | nil => cases h
  | cons c cs ih =>
    by_cases hc : c = ':' ∧ cs.head? = some ':'
    · obtain ⟨rfl, hh⟩ := hc
      obtain ⟨rest, rfl⟩ : ∃ rest, cs = ':' :: rest := by
        cases cs with
        | nil => cases hh
        | cons d ds => exact ⟨ds, by rw [Option.some.inj hh]⟩
      obtain ⟨rfl, rfl⟩ := Prod.mk.inj (Option.some.inj h)
      rfl
    · rw [cutDouble?_cons hc] at h
      obtain ⟨⟨b, a⟩, hb, he⟩ := Option.map_eq_some_iff.mp h
      obtain ⟨rfl, rfl⟩ := Prod.mk.inj he
      rw [ih hb, List.cons_append]

/-! ## Addresses -/

/-- The spellings of eight groups: all pieces, or a double colon in the place of zero groups in a row,
before which only groups may stand. -/
inductive Spells : List Char → List UInt16 → Prop
  | full {pieces : List (List Char)} {gs : List UInt16} :
    SpellsTail pieces gs → gs.length = 8 → Spells (joinWith ':' pieces) gs
  | shortened {before after : List (List Char)} {head tail : List UInt16} {zeros : Nat} :
    List.Forall₂ SpellsGroup before head → SpellsTail after tail → 0 < zeros →
    head.length + zeros + tail.length = 8 →
    Spells (joinWith ':' before ++ ':' :: ':' :: joinWith ':' after)
      (head ++ List.replicate zeros 0 ++ tail)

theorem groupsOf?_of_spells {cs : List Char} {gs : List UInt16} (h : Spells cs gs) :
    groupsOf? cs = some gs ∧ gs.length = 8 := by
  cases h with
  | full ht hl =>
    next pieces =>
    have ne : pieces ≠ [] := by
      rintro rfl
      cases ht
      simp at hl
    have cut : cutDouble? (joinWith ':' pieces) = none := by
      have whole := cutDouble?_joinWith_append ht.proper []
      rwa [List.append_nil, show cutDouble? [] = none from rfl, Option.map_none] at whole
    refine ⟨?_, hl⟩
    rw [groupsOf?, cut]
    exact (congrArg tail? (ht.apart ne)).trans (tail?_eq_some_iff.mpr ht)
  | shortened hb ha hz hl =>
    next before after head tail zeros =>
    have hb' := SpellsTail.of_forall₂ hb
    have cut : cutDouble? (joinWith ':' before ++ ':' :: ':' :: joinWith ':' after) =
        some (joinWith ':' before, joinWith ':' after) := by
      rw [cutDouble?_joinWith_append hb'.proper]
      simp [cutDouble?]
    have few : head.length + tail.length ≤ 7 := by omega
    have rest : 8 - (head.length + tail.length) = zeros := by omega
    constructor
    · simp only [groupsOf?, cut, hb'.piecesOf_joinWith, ha.piecesOf_joinWith,
        groups?_eq_some_iff.mpr hb, tail?_eq_some_iff.mpr ha, if_pos few, rest]
    · simp only [List.length_append, List.length_replicate]
      exact hl

theorem spells_of_groupsOf? {cs : List Char} {gs : List UInt16} (h : groupsOf? cs = some gs)
    (hl : gs.length = 8) : Spells cs gs := by
  unfold groupsOf? at h
  split at h
  · have full := Spells.full (tail?_eq_some_iff.mp h) hl
    rwa [Text.joinWith_splitOn] at full
  · next before after hc =>
    split at h
    · next head tail hb ha =>
      split at h
      · next few =>
        obtain rfl := Option.some.inj h
        have some : 0 < 8 - (head.length + tail.length) := by omega
        have short := Spells.shortened (groups?_eq_some_iff.mp hb) (tail?_eq_some_iff.mp ha) some
          (by omega)
        rwa [joinWith_piecesOf, joinWith_piecesOf, ← eq_of_cutDouble? hc] at short
      · cases h
    · cases h

/-- **A text is read as an address exactly if it spells it.** -/
theorem ofChars?_eq_some_iff {cs : List Char} {x : V6} :
    ofChars? cs = some x ↔ Spells cs x.groups := by
  constructor
  · intro h
    unfold ofChars? at h
    split at h
    · next gs hg =>
      split at h
      · next hl =>
        obtain rfl := Option.some.inj h
        exact spells_of_groupsOf? hg hl
      · cases h
    · cases h
  · intro h
    obtain ⟨hg, hl⟩ := groupsOf?_of_spells h
    simp only [ofChars?, hg, hl, dite_true]

/-- The characters of a spelling are hexadecimal digits, colons and points. -/
theorem Spells.of_mem {cs : List Char} {gs : List UInt16} (h : Spells cs gs) {c : Char}
    (hc : c ∈ cs) : (hexValue? c).isSome = true ∨ c = ':' ∨ c = '.' := by
  have piece {pieces : List (List Char)} {gs : List UInt16} (ht : SpellsTail pieces gs) :
      ∀ p ∈ pieces, ∀ d ∈ p, (hexValue? d).isSome = true ∨ d = ':' ∨ d = '.' := by
    induction ht with
    | nil => nofun
    | v4 x =>
      intro p hp d hd
      obtain rfl := List.mem_singleton.mp hp
      rcases V4.isDigit_or_of_mem_chars hd with hd | hd
      · exact .inl (Text.isSome_hexValue?_of_isDigit hd)
      · exact .inr (.inr hd)
    | cons hg _ ih =>
      intro p hp d hd
      rcases List.mem_cons.mp hp with rfl | hp
      · exact .inl (hg.isSome_hexValue? hd)
      · exact ih p hp d hd
  have joined {pieces : List (List Char)} {gs : List UInt16} (ht : SpellsTail pieces gs)
      (hj : c ∈ joinWith ':' pieces) : (hexValue? c).isSome = true ∨ c = ':' ∨ c = '.' := by
    rcases Text.mem_joinWith hj with rfl | ⟨p, hp, hd⟩
    · exact .inr (.inl rfl)
    · exact piece ht p hp c hd
  cases h with
  | full ht _ => exact joined ht hc
  | shortened hb ha _ _ =>
    rw [List.mem_append, List.mem_cons, List.mem_cons] at hc
    rcases hc with hc | rfl | rfl | hc
    · exact joined (.of_forall₂ hb) hc
    · exact .inr (.inl rfl)
    · exact .inr (.inl rfl)
    · exact joined ha hc

/-- A spelling holds a colon. -/
theorem Spells.colon_mem {cs : List Char} {gs : List UInt16} (h : Spells cs gs) : ':' ∈ cs := by
  cases h with
  | full ht hl =>
    cases ht with
    | nil => cases hl
    | v4 x => cases hl
    | cons hg ht =>
      cases ht with
      | nil => cases hl
      | v4 x => simp [joinWith]
      | cons hg' ht' => simp [joinWith]
  | shortened hb ha _ _ => simp

/-! ## Printing -/

theorem replicate_zeroRun_append (gs : List UInt16) :
    gs = List.replicate (zeroRun gs) 0 ++ gs.dropWhile (· == 0) := by
  have zero : gs.takeWhile (· == 0) = List.replicate (zeroRun gs) 0 := by
    refine List.eq_replicate_iff.mpr ⟨rfl, fun g hg => ?_⟩
    have taken : (g == 0) = true := List.mem_takeWhile_imp (p := (· == 0)) hg
    exact eq_of_beq taken
  rw [← zero, List.takeWhile_append_dropWhile]

/-- What is left out is a run of zero groups. -/
theorem exists_of_longestRun {gs : List UInt16} {i start len : Nat}
    (h : longestRun i gs = (start, len)) :
    ∃ before after, gs = before ++ List.replicate len 0 ++ after ∧ start = i + before.length := by
  induction gs generalizing i with
  | nil =>
    obtain ⟨rfl, rfl⟩ := Prod.mk.inj h
    exact ⟨[], [], rfl, rfl⟩
  | cons g gs ih =>
    simp only [longestRun] at h
    split at h
    · obtain ⟨before, after, hgs, hs⟩ := ih h
      refine ⟨g :: before, after, by rw [hgs]; rfl, ?_⟩
      rw [hs, List.length_cons]
      omega
    · obtain ⟨rfl, rfl⟩ := Prod.mk.inj h
      exact ⟨[], (g :: gs).dropWhile (· == 0), replicate_zeroRun_append (g :: gs), rfl⟩

theorem forall₂_groupChars (gs : List UInt16) :
    List.Forall₂ SpellsGroup (gs.map groupChars) gs := by
  induction gs with
  | nil => exact .nil
  | cons g gs ih => exact .cons (spellsGroup_groupChars g) ih

/-- The printed groups of an address spell it. -/
theorem spells_compressed {gs : List UInt16} (hl : gs.length = 8) : Spells (compressed gs) gs := by
  rcases hr : longestRun 0 gs with ⟨start, len⟩
  obtain ⟨before, after, hgs, hs⟩ := exists_of_longestRun hr
  rw [Nat.zero_add] at hs
  have unfolded : compressed gs =
      if 2 ≤ len then joined (gs.take start) ++ ':' :: ':' :: joined (gs.drop (start + len))
      else joined gs := by
    rw [compressed, hr]
  rw [unfolded]
  split
  · next long =>
    have front : gs.take start = before := by
      rw [hgs, hs, List.append_assoc, List.take_left]
    have back : gs.drop (start + len) = after := by
      rw [hgs, hs]
      exact List.drop_left' (by simp)
    have eight : before.length + len + after.length = 8 := by
      rw [← hl, hgs, List.length_append, List.length_append, List.length_replicate]
    rw [front, back]
    have short := Spells.shortened (forall₂_groupChars before)
      (.of_forall₂ (forall₂_groupChars after)) (by omega) eight
    rwa [← hgs] at short
  · exact .full (.of_forall₂ (forall₂_groupChars gs)) hl

/-- The high byte and the low byte make a group. -/
theorem shiftLeft_or_byte (g : UInt16) :
    (g >>> 8).toUInt8.toUInt16 <<< 8 ||| g.toUInt8.toUInt16 = g := by
  have small : g.toNat < 65536 := g.toNat_lt
  rw [← UInt16.toNat_inj]
  have low : g.toNat % 256 < 2 ^ 8 := Nat.mod_lt _ (by decide)
  have parts : (g.toNat >>> 8) % 256 = g.toNat / 256 := by
    rw [Nat.shiftRight_eq_div_pow]
    omega
  have shifted : (g.toNat / 256) <<< 8 % 65536 = (g.toNat / 256) <<< 8 := by
    rw [Nat.shiftLeft_eq]
    omega
  simp only [UInt16.toNat_or, UInt16.toNat_shiftLeft, UInt8.toNat_toUInt16, UInt16.toNat_toUInt8,
    UInt16.toNat_shiftRight, UInt16.reduceToNat]
  show ((g.toNat >>> 8) % 256) <<< 8 % 65536 ||| g.toNat % 256 = g.toNat
  rw [parts, shifted, ← Nat.shiftLeft_add_eq_or_of_lt low, Nat.shiftLeft_eq]
  omega

theorem groupsOfV4_v4Of (high low : UInt16) : groupsOfV4 (v4Of high low) = [high, low] := by
  simp only [groupsOfV4, v4Of, shiftLeft_or_byte]

/-- **The printed text of an address spells it.** -/
theorem spells_chars (x : V6) : Spells x.chars x.groups := by
  unfold chars mapped?
  split
  · next y hy =>
    split at hy
    · next high low hg =>
      obtain rfl := Option.some.inj hy
      have ffff : SpellsGroup "ffff".toList 0xFFFF := ⟨by decide, 0, by decide⟩
      have pieces := SpellsTail.cons ffff (.v4 (v4Of high low))
      rw [groupsOfV4_v4Of] at pieces
      have five : 0 < 5 := by decide
      have short := Spells.shortened .nil pieces five (by rfl)
      rw [hg]
      exact short
    · cases hy
  · exact spells_compressed x.length_groups

end V6

/-! ## Addresses of both kinds -/

/-- The spellings of an address. -/
inductive Spells : List Char → Address → Prop
  | v4 (x : V4) : Spells x.chars (.v4 x)
  | v6 {cs : List Char} {x : V6} : V6.Spells cs x.groups → Spells cs (.v6 x)

/-- **A text is read as an address exactly if it spells it.** -/
theorem ofChars?_eq_some_iff {cs : List Char} {a : Address} :
    ofChars? cs = some a ↔ Spells cs a := by
  constructor
  · intro h
    unfold ofChars? at h
    split at h
    · next x hx =>
      obtain rfl := Option.some.inj h
      rw [V4.ofChars?_eq_some_iff.mp hx]
      exact .v4 x
    · obtain ⟨x, hx, rfl⟩ := Option.map_eq_some_iff.mp h
      exact .v6 (V6.ofChars?_eq_some_iff.mp hx)
  · intro h
    cases h with
    | v4 x => rw [ofChars?, V4.ofChars?_eq_some_iff.mpr rfl]
    | v6 hs =>
      next x =>
      -- the text holds a colon, so it is not that of an IPv4 address
      have other : V4.ofChars? cs = none := by
        cases hx : V4.ofChars? cs with
        | none => rfl
        | some y =>
          have colon := hs.colon_mem
          rw [V4.ofChars?_eq_some_iff.mp hx] at colon
          exact absurd colon y.colon_not_mem_chars
      rw [ofChars?, other, V6.ofChars?_eq_some_iff.mpr hs]
      rfl

/-- The printed text of an address spells it. -/
theorem spells_chars (a : Address) : Spells a.chars a := by
  cases a with
  | v4 x => exact .v4 x
  | v6 x => exact .v6 x.spells_chars

/-- **An address comes back from its text.** -/
theorem ofText?_text (a : Address) : ofText? a.text = some a := by
  rw [ofText?, text, String.toList_ofList]
  exact ofChars?_eq_some_iff.mpr a.spells_chars

/-- The characters of a spelling are hexadecimal digits, colons and points. -/
theorem Spells.of_mem {cs : List Char} {a : Address} (h : Spells cs a) {c : Char} (hc : c ∈ cs) :
    (hexValue? c).isSome = true ∨ c = ':' ∨ c = '.' := by
  cases h with
  | v4 x =>
    rcases V4.isDigit_or_of_mem_chars hc with hd | hd
    · exact .inl (Text.isSome_hexValue?_of_isDigit hd)
    · exact .inr (.inr hd)
  | v6 hs => exact hs.of_mem hc

theorem text_inj {a b : Address} : a.text = b.text ↔ a = b := by
  constructor
  · intro h
    have back := ofText?_text a
    rw [h, ofText?_text] at back
    exact (Option.some.inj back).symm
  · exact congrArg text

end ShortLink.Address
