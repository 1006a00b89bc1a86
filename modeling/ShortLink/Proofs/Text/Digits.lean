/-
  Numbers come back from their digits.

  The digits of a number in a base write the number (`foldlM_toDigits`), in decimal as in
  hexadecimal.  A hexadecimal digit may be of either case, and zeros may stand in front: the texts that
  write a number are its digits but for these two things (`hexNumber?_eq_some_iff`).
-/
import ShortLink.Decimal.Reading
import Mathlib.Data.List.Induction

namespace ShortLink.Text

/-! ## Any base -/

section

variable {base : Nat}

theorem mem_toDigits (hb : 1 < base) {n : Nat} {c : Char} (h : c ∈ Nat.toDigits base n) :
    ∃ d < base, c = Nat.digitChar d := by
  induction n using Nat.strongRecOn with
  | ind n ih =>
    by_cases hn : n < base
    · rw [Nat.toDigits_of_lt_base hn, List.mem_singleton] at h
      exact ⟨n, hn, h⟩
    · have smaller : n / base < n := Nat.div_lt_self (by omega) hb
      rw [Nat.toDigits_of_base_le hb (by omega), List.mem_append, List.mem_singleton] at h
      rcases h with h | h
      · exact ih (n / base) smaller h
      · exact ⟨n % base, Nat.mod_lt n (by omega), h⟩

/-- **The digits of a number write the number**, if each of them has its value. -/
theorem foldlM_toDigits (hb : 1 < base) {value? : Char → Option Nat}
    (hv : ∀ d < base, value? (Nat.digitChar d) = some d) (n : Nat) :
    (Nat.toDigits base n).foldlM (fun n c => (value? c).map (base * n + ·)) 0 = some n := by
  induction n using Nat.strongRecOn with
  | ind n ih =>
    by_cases hn : n < base
    · rw [Nat.toDigits_of_lt_base hn]
      simp [hv n hn]
    · have smaller : n / base < n := Nat.div_lt_self (by omega) hb
      have last : n % base < base := Nat.mod_lt n (by omega)
      have whole : base * (n / base) + n % base = n := Nat.div_add_mod n base
      rw [Nat.toDigits_of_base_le hb (by omega), List.foldlM_append, ih (n / base) smaller]
      simp [hv _ last, whole]

end

/-! ## Decimal digits -/

/-- **A number comes back from its decimal digits.** -/
theorem digitsValue?_toDigits (n : Nat) :
    Decimal.digitsValue? (Nat.toDigits 10 n) = some n :=
  foldlM_toDigits (by decide) (by decide) n

/-! ## Hexadecimal digits -/

/-- What is true of all characters of ASCII is true of a character of ASCII. -/
theorem of_forall_ascii {P : Char → Prop} (all : ∀ n < 128, P (Char.ofNat n)) {c : Char}
    (hc : c.toNat < 128) : P c := by
  have here := all c.toNat hc
  rwa [Char.ofNat_toNat] at here

theorem toNat_lt_of_hexValue? {c : Char} {d : Nat} (h : hexValue? c = some d) : c.toNat < 128 := by
  have bound {a b : Char} (hab : (decide (a ≤ c) && decide (c ≤ b)) = true) (hb : b.toNat < 128) :
      c.toNat < 128 := by
    rw [Bool.and_eq_true, decide_eq_true_eq, decide_eq_true_eq] at hab
    have le : c.toNat ≤ b.toNat := hab.2
    omega
  unfold hexValue? at h
  split at h
  · next hr => exact bound hr (by decide)
  · split at h
    · next hr => exact bound hr (by decide)
    · split at h
      · next hr => exact bound hr (by decide)
      · cases h

/-- A hexadecimal digit is, in lower case, the digit of its value. -/
theorem toLower_of_hexValue? {c : Char} {d : Nat} (h : hexValue? c = some d) :
    d < 16 ∧ c.toLower = Nat.digitChar d := by
  have all : ∀ n < 128, ∀ d ∈ hexValue? (Char.ofNat n),
      d < 16 ∧ (Char.ofNat n).toLower = Nat.digitChar d := by decide
  exact of_forall_ascii (P := fun c => ∀ d ∈ hexValue? c, d < 16 ∧ c.toLower = Nat.digitChar d) all
    (toNat_lt_of_hexValue? h) d h

theorem isSome_hexValue?_of_isDigit {c : Char} (h : c.isDigit = true) :
    (hexValue? c).isSome = true := by
  have range : ('0' ≤ c && c ≤ '9') = true := h
  rw [hexValue?, if_pos range]
  rfl

/-- Only characters of ASCII have a lower case. -/
theorem toLower_eq_self {c : Char} (hc : ¬ c.toNat < 128) : c.toLower = c := by
  unfold Char.toLower
  split
  · next h =>
    have upper : c.toNat ≤ 'Z'.toNat := h.2
    have last : 'Z'.toNat = 90 := rfl
    omega
  · rfl

/-- The case of a digit does not matter. -/
theorem hexValue?_toLower (c : Char) : hexValue? c.toLower = hexValue? c := by
  by_cases hc : c.toNat < 128
  · exact of_forall_ascii (P := fun c => hexValue? c.toLower = hexValue? c) (by decide) hc
  · rw [toLower_eq_self hc]

theorem hexNumber?_concat (cs : List Char) (c : Char) :
    hexNumber? (cs ++ [c]) =
      (hexNumber? cs).bind fun n => (hexValue? c).map (16 * n + ·) := by
  rw [hexNumber?, hexNumber?, List.foldlM_append]
  cases List.foldlM (fun n c => (hexValue? c).map (16 * n + ·)) 0 cs with
  | none => rfl
  | some n => simp

theorem hexNumber?_map_toLower (cs : List Char) :
    hexNumber? (cs.map Char.toLower) = hexNumber? cs := by
  simp only [hexNumber?, List.foldlM_map, hexValue?_toLower]

theorem hexNumber?_toDigits (n : Nat) : hexNumber? (Nat.toDigits 16 n) = some n :=
  foldlM_toDigits (by decide) (by decide) n

/-- Zeros in front do not matter. -/
theorem hexNumber?_replicate_append (zeros : Nat) (cs : List Char) :
    hexNumber? (List.replicate zeros '0' ++ cs) = hexNumber? cs := by
  induction zeros with
  | zero => rfl
  | succ zeros ih => exact ih

/-- **What writes a number** are its digits, of either case and with any zeros in front. -/
theorem hexNumber?_eq_some_iff {cs : List Char} (hne : cs ≠ []) {n : Nat} :
    hexNumber? cs = some n ↔
      ∃ zeros, cs.map Char.toLower = List.replicate zeros '0' ++ Nat.toDigits 16 n := by
  constructor
  · intro h
    induction cs using List.reverseRecOn generalizing n with
    | nil => exact absurd rfl hne
    | append_singleton cs c ih =>
      rw [hexNumber?_concat, Option.bind_eq_some_iff] at h
      obtain ⟨m, hm, hc⟩ := h
      obtain ⟨d, hd, rfl⟩ := Option.map_eq_some_iff.mp hc
      obtain ⟨small, lower⟩ := toLower_of_hexValue? hd
      have digit : Nat.toDigits 16 d = [c.toLower] := by rw [Nat.toDigits_of_lt_base small, lower]
      rw [List.map_append, List.map_singleton, ← digit]
      by_cases he : cs = []
      · -- one digit
        subst he
        obtain rfl : 0 = m := by simpa [hexNumber?] using hm
        exact ⟨0, by simp⟩
      · obtain ⟨zeros, hz⟩ := ih he hm
        rw [hz, List.append_assoc]
        rcases Nat.eq_zero_or_pos m with rfl | hp
        · -- so far only zeros: the last of them is in front now
          refine ⟨zeros + 1, ?_⟩
          rw [Nat.mul_zero, Nat.zero_add, List.replicate_succ', List.append_assoc]
          rfl
        · exact ⟨zeros, by rw [Nat.toDigits_append_toDigits (by decide) hp small]⟩
  · rintro ⟨zeros, hz⟩
    rw [← hexNumber?_map_toLower, hz, hexNumber?_replicate_append, hexNumber?_toDigits]

end ShortLink.Text
