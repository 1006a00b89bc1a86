/-
  Bytes of a text are read as the text.

  `readings_encode` says that the bytes of a text are read as its characters, one by one, with no
  byte left over.  The work is in `decodeFirst?_encodeChar`, on one character: for each of the four
  lengths, the checks on the bytes are inequalities on the character's number, and so is the number
  that the payload bits make.
-/
import ShortLink.Text.Utf8

namespace ShortLink.Text

/-! ## Bytes as numbers -/

/-- The number of a byte that was made from a number. -/
theorem toNat_byte {n : Nat} (h : n < 256) : (UInt8.ofNat n).toNat = n := UInt8.toNat_ofNat_of_lt h

theorem isTail_iff (b : UInt8) : isTail b = true ↔ 128 ≤ b.toNat ∧ b.toNat ≤ 191 := by
  simp [isTail, UInt8.le_iff_toNat_le]

/-- What may follow a first byte, in numbers. -/
theorem isSecond_iff (a b : UInt8) :
    isSecond a b = true ↔ 128 ≤ b.toNat ∧ b.toNat ≤ 191 ∧ (a.toNat = 224 → 160 ≤ b.toNat) ∧
      (a.toNat = 237 → b.toNat ≤ 159) ∧ (a.toNat = 240 → 144 ≤ b.toNat) ∧
      (a.toNat = 244 → b.toNat ≤ 143) := by
  have eq (x y : UInt8) : x = y ↔ x.toNat = y.toNat := UInt8.toNat_inj.symm
  simp only [isSecond, Bool.and_eq_true, isTail_iff, beq_iff_eq, eq, UInt8.reduceToNat]
  split
  · simp [UInt8.le_iff_toNat_le]; omega
  · split
    · simp [UInt8.le_iff_toNat_le]; omega
    · split
      · simp [UInt8.le_iff_toNat_le]; omega
      · split
        · simp [UInt8.le_iff_toNat_le]; omega
        · simp; omega

/-- A character's number is below the surrogates or above them. -/
theorem toNat_char (c : Char) : c.toNat < 0xD800 ∨ 0xDFFF < c.toNat ∧ c.toNat < 0x110000 := c.valid

/-! ## One character -/

section

variable {a b c d : UInt8} (rest : Bytes)

theorem decodeFirst?_one (ha : a.toNat < 128) :
    decodeFirst? (a :: rest) = some (Char.ofNat a.toNat, rest) := by
  have h₁ : a < 0x80 := UInt8.lt_iff_toNat_lt.mpr ha
  simp only [decodeFirst?, if_pos h₁]

theorem decodeFirst?_two (ha : 194 ≤ a.toNat) (ha' : a.toNat < 224) (hb : isTail b = true) :
    decodeFirst? (a :: b :: rest) =
      some (Char.ofNat (a.toNat % 32 * 64 + b.toNat % 64), rest) := by
  have h₁ : ¬ a < 0x80 := by simp only [UInt8.lt_iff_toNat_lt, UInt8.reduceToNat]; omega
  have h₂ : ¬ a < 0xC2 := by simp only [UInt8.lt_iff_toNat_lt, UInt8.reduceToNat]; omega
  have h₃ : a < 0xE0 := UInt8.lt_iff_toNat_lt.mpr ha'
  simp only [decodeFirst?, if_neg h₁, if_neg h₂, if_pos h₃, if_pos hb, tailBits]

theorem decodeFirst?_three (ha : 224 ≤ a.toNat) (ha' : a.toNat < 240)
    (hb : isSecond a b = true) (hc : isTail c = true) :
    decodeFirst? (a :: b :: c :: rest) =
      some (Char.ofNat ((a.toNat % 16 * 64 + b.toNat % 64) * 64 + c.toNat % 64), rest) := by
  have h₁ : ¬ a < 0x80 := by simp only [UInt8.lt_iff_toNat_lt, UInt8.reduceToNat]; omega
  have h₂ : ¬ a < 0xC2 := by simp only [UInt8.lt_iff_toNat_lt, UInt8.reduceToNat]; omega
  have h₃ : ¬ a < 0xE0 := by simp only [UInt8.lt_iff_toNat_lt, UInt8.reduceToNat]; omega
  have h₄ : a < 0xF0 := UInt8.lt_iff_toNat_lt.mpr ha'
  simp only [decodeFirst?, if_neg h₁, if_neg h₂, if_neg h₃, if_pos h₄, hb, hc, Bool.and_self,
    if_true, tailBits]

theorem decodeFirst?_four (ha : 240 ≤ a.toNat) (ha' : a.toNat < 245)
    (hb : isSecond a b = true) (hc : isTail c = true) (hd : isTail d = true) :
    decodeFirst? (a :: b :: c :: d :: rest) =
      some (Char.ofNat (((a.toNat % 8 * 64 + b.toNat % 64) * 64 + c.toNat % 64) * 64 +
        d.toNat % 64), rest) := by
  have h₁ : ¬ a < 0x80 := by simp only [UInt8.lt_iff_toNat_lt, UInt8.reduceToNat]; omega
  have h₂ : ¬ a < 0xC2 := by simp only [UInt8.lt_iff_toNat_lt, UInt8.reduceToNat]; omega
  have h₃ : ¬ a < 0xE0 := by simp only [UInt8.lt_iff_toNat_lt, UInt8.reduceToNat]; omega
  have h₄ : ¬ a < 0xF0 := by simp only [UInt8.lt_iff_toNat_lt, UInt8.reduceToNat]; omega
  have h₅ : a < 0xF5 := UInt8.lt_iff_toNat_lt.mpr ha'
  simp only [decodeFirst?, if_neg h₁, if_neg h₂, if_neg h₃, if_neg h₄, if_pos h₅, hb, hc, hd,
    Bool.and_self, if_true, tailBits]

end

/-- The first character of a character's bytes is the character. -/
theorem decodeFirst?_encodeChar (c : Char) (rest : Bytes) :
    decodeFirst? (String.utf8EncodeChar c ++ rest) = some (c, rest) := by
  have valid := toNat_char c
  have back {n : Nat} (h : n = c.toNat) : some (Char.ofNat n, rest) = some (c, rest) := by
    rw [h, Char.ofNat_toNat]
  have number : c.val.toNat = c.toNat := rfl
  -- one case for each length; that the checks do not refuse the bytes is where `valid` is needed
  simp only [String.utf8EncodeChar, number]
  split
  · have h₁ : (UInt8.ofNat c.toNat).toNat = c.toNat := toNat_byte (by omega)
    rw [List.singleton_append, decodeFirst?_one _ (by omega)]
    exact back h₁
  · split
    · have h₁ : (UInt8.ofNat (c.toNat / 64 % 32 + 192)).toNat = c.toNat / 64 % 32 + 192 :=
        toNat_byte (by omega)
      have h₂ : (UInt8.ofNat (c.toNat % 64 + 128)).toNat = c.toNat % 64 + 128 :=
        toNat_byte (by omega)
      refine (decodeFirst?_two _ ?_ ?_ ((isTail_iff _).mpr ?_)).trans (back ?_) <;>
        simp only [h₁, h₂] <;> omega
    · have h₂ (n : Nat) : (UInt8.ofNat (n % 64 + 128)).toNat = n % 64 + 128 :=
        toNat_byte (by omega)
      split
      · have h₁ : (UInt8.ofNat (c.toNat / 4096 % 16 + 224)).toNat = c.toNat / 4096 % 16 + 224 :=
          toNat_byte (by omega)
        refine (decodeFirst?_three _ ?_ ?_ ((isSecond_iff _ _).mpr ?_)
          ((isTail_iff _).mpr ?_)).trans (back ?_) <;> simp only [h₁, h₂] <;> omega
      · have h₁ : (UInt8.ofNat (c.toNat / 262144 % 8 + 240)).toNat = c.toNat / 262144 % 8 + 240 :=
          toNat_byte (by omega)
        refine (decodeFirst?_four _ ?_ ?_ ((isSecond_iff _ _).mpr ?_)
          ((isTail_iff _).mpr ?_) ((isTail_iff _).mpr ?_)).trans (back ?_) <;>
          simp only [h₁, h₂] <;> omega

/-- A character of ASCII comes of one byte. -/
theorem decodeFirst?_eq_ascii {a : UInt8} {bs rest : Bytes} {c : Char}
    (h : decodeFirst? (a :: bs) = some (c, rest)) (hc : c.toNat < 128) :
    a.toNat = c.toNat ∧ bs = rest := by
  have number {n : Nat} (hn : n < 0xD800 ∨ 0xDFFF < n ∧ n < 0x110000) :
      (Char.ofNat n).toNat = n := by
    rw [Char.ofNat, dif_pos hn]
    rfl
  have byte : a.toNat < 256 := a.toNat_lt
  -- all other characters have numbers that are too large
  have large {n : Nat} {more : Bytes} (hn : 128 ≤ n)
      (hv : n < 0xD800 ∨ 0xDFFF < n ∧ n < 0x110000)
      (he : some (Char.ofNat n, more) = some (c, rest)) : a.toNat = c.toNat ∧ bs = rest := by
    rw [← (Prod.mk.inj (Option.some.inj he)).1, number hv] at hc
    omega
  simp only [decodeFirst?, UInt8.lt_iff_toNat_lt, UInt8.reduceToNat, tailBits] at h
  split at h
  · obtain ⟨rfl, rfl⟩ := Prod.mk.inj (Option.some.inj h)
    exact ⟨(number (by omega)).symm, rfl⟩
  · split at h
    · cases h
    · split at h
      · split at h
        · split at h
          · next hb =>
            rw [isTail_iff] at hb
            exact large (by omega) (by omega) h
          · cases h
        · cases h
      · split at h
        · split at h
          · split at h
            · next hs =>
              rw [Bool.and_eq_true, isSecond_iff, isTail_iff] at hs
              exact large (by omega) (by omega) h
            · cases h
          · cases h
        · split at h
          · split at h
            · split at h
              · next hs =>
                rw [Bool.and_eq_true, Bool.and_eq_true, isSecond_iff, isTail_iff, isTail_iff] at hs
                exact large (by omega) (by omega) h
              · cases h
            · cases h
          · cases h

/-! ## Whole texts -/

theorem readingsFrom_of_some {b : UInt8} {bs rest : Bytes} {c : Char}
    (h : decodeFirst? (b :: bs) = some (c, rest)) (found : List (Option Char)) :
    readingsFrom found (b :: bs) = readingsFrom (some c :: found) rest := by
  rw [readingsFrom]
  split
  · next c' rest' h' =>
    obtain ⟨rfl, rfl⟩ := Prod.mk.inj (Option.some.inj (h.symm.trans h'))
    rfl
  · next h' => cases h.symm.trans h'

theorem readingsFrom_of_none {b : UInt8} {bs : Bytes} (h : decodeFirst? (b :: bs) = none)
    (found : List (Option Char)) :
    readingsFrom found (b :: bs) = readingsFrom (none :: found) bs := by
  rw [readingsFrom]
  split
  · next h' => cases h.symm.trans h'
  · rfl

theorem readingsFrom_encodeChar (found : List (Option Char)) (c : Char) (rest : Bytes) :
    readingsFrom found (String.utf8EncodeChar c ++ rest) = readingsFrom (some c :: found) rest := by
  have h := decodeFirst?_encodeChar c rest
  cases hb : String.utf8EncodeChar c ++ rest with
  | nil => rw [hb] at h; cases h
  | cons b bs =>
    rw [hb] at h
    exact readingsFrom_of_some h found

theorem readingsFrom_encodeChars (found : List (Option Char)) (cs : List Char) :
    readingsFrom found (encodeChars cs) = found.reverse ++ cs.map some := by
  induction cs generalizing found with
  | nil => simp [encodeChars, readingsFrom]
  | cons c cs ih =>
    have step := readingsFrom_encodeChar found c (encodeChars cs)
    rw [encodeChars, List.flatMap_cons, ← encodeChars, step, ih]
    simp

/-- **The bytes of a text are read as its characters.** -/
theorem readings_encode (s : String) : readings (encode s) = s.toList.map some := by
  simp [readings, encode, readingsFrom_encodeChars]

/-- What was read before an input comes before what is read of it. -/
theorem readingsFrom_eq (found : List (Option Char)) (bs : Bytes) :
    readingsFrom found bs = found.reverse ++ readings bs := by
  rw [readings]
  induction hn : bs.length using Nat.strongRecOn generalizing found bs with
  | ind n ih =>
    cases bs with
    | nil => simp [readingsFrom]
    | cons b bs =>
      cases hd : decodeFirst? (b :: bs) with
      | some next =>
        have shorter : next.2.length < n := hn ▸ length_of_decodeFirst? hd
        rw [readingsFrom_of_some hd, readingsFrom_of_some hd,
          ih _ shorter (some next.1 :: found) next.2 rfl, ih _ shorter [some next.1] next.2 rfl]
        simp
      | none =>
        have shorter : bs.length < n := by simp [← hn]
        rw [readingsFrom_of_none hd, readingsFrom_of_none hd,
          ih _ shorter (none :: found) bs rfl, ih _ shorter [none] bs rfl]
        simp

/-- The bytes of a text are read as its characters, whatever follows. -/
theorem readings_append (cs : List Char) (bs : Bytes) :
    readings (encodeChars cs ++ bs) = cs.map some ++ readings bs := by
  induction cs with
  | nil => rfl
  | cons c cs ih =>
    rw [encodeChars, List.flatMap_cons, ← encodeChars, List.append_assoc, readings,
      readingsFrom_encodeChar, readingsFrom_eq, ih]
    rfl

/-- A byte that is not of a kind of ASCII is not read as a character of that kind. -/
theorem exists_reading_of_byte {p : Char → Bool} (ascii : ∀ c, p c = true → c.toNat < 128)
    {bs : Bytes} (h : ∃ b ∈ bs, p (Char.ofNat b.toNat) = false) :
    ∃ x ∈ readings bs, ∀ c, x = some c → p c = false := by
  induction bs with
  | nil =>
    obtain ⟨b, hb, -⟩ := h
    cases hb
  | cons b bs ih =>
    cases hd : decodeFirst? (b :: bs) with
    | none =>
      rw [readings, readingsFrom_of_none hd, readingsFrom_eq]
      exact ⟨none, by simp, nofun⟩
    | some next =>
      rw [readings, readingsFrom_of_some hd, readingsFrom_eq]
      cases hp : p next.1 with
      | false =>
        refine ⟨some next.1, by simp, fun c hc => ?_⟩
        rwa [← Option.some.inj hc]
      | true =>
        -- the first byte is such a character, and the other one is among the rest
        obtain ⟨hb, rfl⟩ := decodeFirst?_eq_ascii hd (ascii _ hp)
        obtain ⟨y, hy, hn⟩ := h
        rcases List.mem_cons.mp hy with rfl | hy
        · rw [hb, Char.ofNat_toNat, hp] at hn
          cases hn
        · obtain ⟨x, hx, hn⟩ := ih ⟨y, hy, hn⟩
          exact ⟨x, List.mem_append_right _ hx, hn⟩

end ShortLink.Text
