/-
  A first request is let through.

  A new bucket is full, and its clock says the time of the request, so that no seconds are counted
  towards its refill.  Over the rational numbers there is nothing more to say.  In binary floating
  point the refill is zero times the rate, which is no number if the rate is infinite; the level is
  kept because the rate is finite, because a zero of either sign adds nothing, and because a burst
  of 32 bits is a number of its own with one at most below it.

  1. `Full` is a mantissa of 53 bits with its exponent.  Rounding leaves it as it is
     (`Full.round_eq`), and so does the way through the bits of a number (`Full.unpack_pack`).

  2. A whole number below 2 ^ 53 is such a number (`exists_ofNat_eq`); so it compares as it should
     (`one_le_ofNat`).

  3. Zero times a finite number is a zero (`unpack_zero_mul`), which adds nothing
     (`add_zero_of_finite`).

  4. So a full bucket lets a request through at its own time (`Bucket.request_full`), and a limiter
     every client that has no bucket (`Limiter.first_request_passes`).
-/
import Mathlib
import ShortLink.Proofs.Limiter.Independence

namespace ShortLink

/-! ## Numbers in full precision -/

namespace Binary64

open Float.Model Float.Model.UnpackedFloat

/-- A mantissa of 53 bits and an exponent that a number can have. -/
structure Full (m : Nat) (e : Int) : Prop where
  low : 2 ^ 52 ≤ m
  high : m < 2 ^ 53
  least : -1074 ≤ e
  most : e ≤ 971

/-- Dividing by two as often as a mantissa was doubled leaves no rest. -/
theorem shift_exact (m k : Nat) :
    ExtendedMantissa.ofMantissaAndAccuracy (m * 2 ^ k) .exact >>> k =
      .ofMantissaAndAccuracy m .exact := by
  show Nat.repeat ExtendedMantissa.shiftRightOne k (.mk (m * 2 ^ k) false false) =
    .mk m false false
  induction k generalizing m with
  | zero => simp [Nat.repeat]
  | succ k ih =>
    rw [Nat.pow_succ', ← Nat.mul_assoc]
    show ExtendedMantissa.shiftRightOne (Nat.repeat _ k (.mk (m * 2 * 2 ^ k) false false)) = _
    rw [ih]
    simp [ExtendedMantissa.shiftRightOne]

namespace Full

variable {m : Nat} {e : Int}

theorem pos (h : Full m e) : 0 < m := Nat.lt_of_lt_of_le (by decide) h.low

/-- The number with the mantissa and the exponent. -/
def number (h : Full m e) : UnpackedFloat := .finite .positive m e h.pos

theorem log2_mul_two_pow (h : Full m e) (k : Nat) : (m * 2 ^ k).log2 = 52 + k := by
  have nonzero : m * 2 ^ k ≠ 0 := Nat.mul_ne_zero h.pos.ne' (Nat.two_pow_pos k).ne'
  rw [Nat.log2_eq_iff nonzero, show 52 + k + 1 = 53 + k by omega, Nat.pow_add, Nat.pow_add]
  exact ⟨Nat.mul_le_mul_right _ h.low, Nat.mul_lt_mul_of_pos_right h.high (Nat.two_pow_pos k)⟩

theorem shiftToTargetExponent_eq (h : Full m e) (k : Nat) :
    shiftToTargetExponent .binary64 (m * 2 ^ k) (e - k) .exact =
      (.ofMantissaAndAccuracy m .exact, e) := by
  have least := h.least
  have target : Format.binary64.targetExponent (totalExponent (m * 2 ^ k) (e - k)) = e := by
    simp only [Format.targetExponent, totalExponent, Format.mantissaBits, Format.minExponent,
      h.log2_mul_two_pow k]
    omega
  have shift : (e - (e - k)).toNat = k := by omega
  rw [shiftToTargetExponent, target, shiftToExponent]
  simp only [shift, shift_exact, Int.sub_add_cancel]

/-- Rounding does not change it, however often its mantissa was doubled. -/
theorem round_eq (h : Full m e) (k : Nat) :
    roundWithAccuracy .binary64 .positive (m * 2 ^ k) (e - k) .exact = h.number := by
  have again := h.shiftToTargetExponent_eq 0
  rw [Nat.pow_zero, Nat.mul_one, Int.natCast_zero, Int.sub_zero] at again
  have kept : (ExtendedMantissa.ofMantissaAndAccuracy m .exact).roundedMantissa = m := rfl
  have exact : (ExtendedMantissa.ofMantissaAndAccuracy m .exact).mantissa = m := rfl
  rw [roundWithAccuracy, h.shiftToTargetExponent_eq k]
  simp only [kept, again, exact]
  rw [dif_neg h.pos.ne']
  rfl

/-- An exponent between the two special ones keeps its value in 11 bits. -/
theorem exponent_bits {b : Nat} (low : 0 < b) (high : b < 2047) :
    (BitVec.ofNat 11 b).toNat = b ∧ BitVec.ofNat 11 b ≠ -1#11 ∧ BitVec.ofNat 11 b ≠ 0#11 := by
  have value : (BitVec.ofNat 11 b).toNat = b := by
    rw [BitVec.toNat_ofNat, Nat.mod_eq_of_lt (by omega)]
  refine ⟨value, fun same => ?_, fun same => ?_⟩
  · have := value.symm.trans (congrArg BitVec.toNat same)
    simp at this
    omega
  · have := value.symm.trans (congrArg BitVec.toNat same)
    simp at this
    omega

/-- It can be read back from its bits. -/
theorem unpack_pack (h : Full m e) : (Float.Model.pack h.number).unpack = h.number := by
  have ⟨low, high, least, most⟩ := h
  obtain ⟨b, hb⟩ : ∃ b : Nat, (b : Int) = e + 1023 + 52 := ⟨(e + 1023 + 52).toNat, by omega⟩
  obtain ⟨exponent, notMost, notLeast⟩ := exponent_bits (b := b) (by omega) (by omega)
  have mantissa : (1#1 ++ BitVec.ofNat 52 m).toNat = m := by
    rw [BitVec.toNat_append, ← Nat.shiftLeft_add_eq_or_of_lt (BitVec.isLt _)]
    simp [Nat.shiftLeft_eq]
    omega
  have packed : UnpackedFloat.pack .binary64 h.number =
      packComponents .binary64 .positive (BitVec.ofNat 11 b) (BitVec.ofNat 52 m) := by
    have wide : m.log2 + 1 = 53 := by
      have log := h.log2_mul_two_pow 0
      rw [Nat.pow_zero, Nat.mul_one] at log
      omega
    have same : (e + (1023 : Nat) + (52 : Nat)).toNat = b := by omega
    show (if 2 ^ 11 ≤ (e + (1023 : Nat) + (52 : Nat)).toNat + 1 then _ else
      if m.log2 + 1 = 53 then
        packComponents .binary64 .positive
          (BitVec.ofNat 11 (e + (1023 : Nat) + (52 : Nat)).toNat) (BitVec.ofNat 52 m)
      else _) = _
    rw [same, if_neg (by omega), if_pos wide]
  show UnpackedFloat.unpack .binary64 (UnpackedFloat.pack .binary64 h.number) = _
  rw [packed]
  unfold UnpackedFloat.unpack
  simp only [unpackMantissa_packComponents, unpackExponent_packComponents,
    unpackSign_packComponents, notMost, notLeast, if_false, exponent, mantissa,
    Sign.ofBitVec_toBitVec]
  -- what is left is the exponent, which was put in with 1075 added
  rw [number]
  congr 1
  simp [Format.exponentBias]
  omega

end Full

/-! ## Whole numbers -/

/-- The number one. -/
theorem full_one : Full (2 ^ 52) (-52) := ⟨by decide, by decide, by decide, by decide⟩

theorem one_eq : Float.ofNat 1 = ⟨Float.Model.pack full_one.number⟩ := by decide +kernel

theorem exists_toFloat_eq {n : Nat} (pos : 0 < n) (small : n < 2 ^ 53) :
    ∃ m e, ∃ h : Full m e, -52 ≤ e ∧ e ≤ 0 ∧
      n.toUInt64.toFloat.toModel = Float.Model.pack h.number := by
  have nonzero : n ≠ 0 := pos.ne'
  obtain ⟨least, most⟩ := (Nat.log2_eq_iff nonzero).1 rfl
  have short : n.log2 < 53 := (Nat.log2_lt nonzero).2 small
  -- the number is doubled until it has 53 bits
  obtain ⟨k, hk⟩ : ∃ k, n.log2 + k = 52 := ⟨52 - n.log2, by omega⟩
  have low : 2 ^ 52 ≤ n * 2 ^ k := by
    rw [← hk, Nat.pow_add]
    exact Nat.mul_le_mul_right _ least
  have high : n * 2 ^ k < 2 ^ 53 := by
    rw [show 53 = n.log2 + 1 + k by omega, Nat.pow_add]
    exact Nat.mul_lt_mul_of_pos_right most (Nat.two_pow_pos k)
  have full : Full (n * 2 ^ k) (-k) := ⟨low, high, by omega, by omega⟩
  refine ⟨_, _, full, by omega, by omega, ?_⟩
  show Float.Model.pack (UnpackedFloat.normalize .binary64 (n.toUInt64.toNat : Int) 0 .positive) = _
  have same : n.toUInt64.toNat = n := by
    rw [Nat.toUInt64, UInt64.toNat_ofNat', Nat.mod_eq_of_lt (by omega)]
  have sign : compare (n : Int) 0 = .gt := Int.compare_eq_gt.2 (by omega)
  rw [same, UnpackedFloat.normalize, sign]
  show Float.Model.pack (UnpackedFloat.round .binary64 .positive n 0) = _
  have target : Format.binary64.targetExponent (totalExponent n 0) = -k := by
    simp only [Format.targetExponent, totalExponent, Format.mantissaBits, Format.minExponent]
    omega
  have doubled : decreaseExponent n 0 (-k) = (n * 2 ^ k, -(k : Int)) := by
    simp only [decreaseExponent, Int.zero_sub, Int.neg_neg, Int.toNat_natCast, Nat.shiftLeft_eq]
  have rounded := full.round_eq 0
  rw [Nat.pow_zero, Nat.mul_one, Int.natCast_zero, Int.sub_zero] at rounded
  rw [UnpackedFloat.round, target, doubled]
  exact congrArg _ rounded

/-- A whole number below 2 ^ 53 is a number of its own. -/
theorem exists_ofNat_eq {n : Nat} (pos : 0 < n) (small : n < 2 ^ 53) :
    ∃ m e, ∃ h : Full m e, -52 ≤ e ∧ e ≤ 0 ∧
      (Float.ofNat n).toModel = Float.Model.pack h.number := by
  obtain ⟨m, e, h, least, most, whole⟩ := exists_toFloat_eq pos small
  refine ⟨m, e, h, least, most, ?_⟩
  have product : Float.ofNat n =
      n.toUInt64.toFloat * Float.exactlyRepresentablePowersOfTen[0] := by
    show Float.ofScientific n false 0 = _
    rw [Float.ofScientific, dif_pos ⟨small, by decide⟩]
    rfl
  have one : Float.ofBits 4607182418800017408 = ⟨Float.Model.pack full_one.number⟩ := by
    decide +kernel
  rw [product]
  show Float.Model.pack (UnpackedFloat.mul .binary64 n.toUInt64.toFloat.toModel.unpack
    (Float.ofBits 4607182418800017408).toModel.unpack) = _
  rw [whole, h.unpack_pack, one, full_one.unpack_pack]
  exact congrArg _ (h.round_eq 52)

/-! ## Comparing, and zeros -/

theorem le_iff {x y : Float} : x ≤ y ↔ x.toModel.unpack.le y.toModel.unpack = true := by
  show decide (x.toModel ≤ y.toModel) = true ↔ _
  rw [decide_eq_true_iff]
  rfl

theorem one_le_ofNat {n : Nat} (pos : 0 < n) (small : n < 2 ^ 53) :
    Float.ofNat 1 ≤ Float.ofNat n := by
  obtain ⟨m, e, h, least, most, whole⟩ := exists_ofNat_eq pos small
  rw [le_iff, one_eq, whole, full_one.unpack_pack, h.unpack_pack]
  simp only [Full.number, UnpackedFloat.le, UnpackedFloat.compare, Option.any_some]
  rcases Int.lt_or_eq_of_le least with less | rfl
  · rw [Int.compare_eq_lt.2 less]; rfl
  · rw [Int.compare_eq_eq.2 rfl]
    rcases Nat.lt_or_eq_of_le h.low with less | rfl
    · rw [Nat.compare_eq_lt.2 less]; rfl
    · rfl

/-- Zero times a finite number is a zero, of either sign. -/
theorem unpack_zero_mul {x : Float} (finite : x.isFinite = true) :
    ∃ s, (0.0 * x).toModel.unpack = .zero s := by
  have zero : (0.0 : Float).toModel.unpack = .zero .positive := by
    have packed : (0.0 : Float) = ⟨Float.Model.pack (.zero .positive)⟩ := by decide +kernel
    rw [packed]
    exact unpack_packedZero
  have finite : x.toModel.unpack.isFinite = true := finite
  show ∃ s, (Float.Model.pack
    (UnpackedFloat.mul .binary64 (0.0 : Float).toModel.unpack x.toModel.unpack)).unpack = .zero s
  rw [zero]
  cases hx : x.toModel.unpack with
  | notANumber => rw [hx] at finite; cases finite
  | infinity s => rw [hx] at finite; cases finite
  | zero s => exact ⟨_, unpack_packedZero⟩
  | finite s m e h => exact ⟨_, unpack_packedZero⟩

/-- A number is what its bits say. -/
theorem pack_unpack (x : Float.Model) : Float.Model.pack x.unpack = x := by
  obtain ⟨bits, valid⟩ := x
  have same : (Float.Model.pack (Float.Model.unpack ⟨bits, valid⟩)).toBits = bits :=
    UInt64.toBitVec_inj.1 (pack_unpack_of_valid valid)
  cases packed : Float.Model.pack (Float.Model.unpack ⟨bits, valid⟩)
  rw [packed] at same
  subst same
  rfl

/-- A zero that is added changes nothing. -/
theorem add_zero_of_finite {x z : Float} {s s' : Sign} {m : Nat} {e : Int} {h : 0 < m}
    (hx : x.toModel.unpack = .finite s m e h) (hz : z.toModel.unpack = .zero s') : x + z = x := by
  show Float.ofModel
    (Float.Model.pack (UnpackedFloat.add .binary64 x.toModel.unpack z.toModel.unpack)) = x
  rw [hx, hz]
  show Float.ofModel (Float.Model.pack (.finite s m e h)) = x
  rw [← hx, pack_unpack]

end Binary64

/-! ## The first request -/

/-- No time has no seconds. -/
theorem seconds_zero : (Amount.seconds 0 : Float) = 0.0 := by decide +kernel

variable {rate : Float} {burst : Nat}

open Binary64 in
/-- A full bucket is full still when no time has passed. -/
theorem Bucket.refill_full (finite : rate.isFinite = true) (pos : 0 < burst)
    (small : burst < 2 ^ 53) (now : Nat) :
    (full rate burst now).refill now = full rate burst now := by
  obtain ⟨m, e, h, -, -, whole⟩ := exists_ofNat_eq pos small
  have burst_eq : (Float.ofNat burst).toModel.unpack = .finite .positive m e h.pos := by
    rw [whole, h.unpack_pack, Full.number]
  obtain ⟨s, zero⟩ := unpack_zero_mul finite
  have nothing : Amount.add (Float.ofNat burst) (Amount.mul (Amount.seconds 0) rate) =
      Float.ofNat burst := by
    rw [seconds_zero]
    exact add_zero_of_finite burst_eq zero
  have level : Amount.min (Float.ofNat burst) (Float.ofNat burst) = Float.ofNat burst := ite_self _
  show Bucket.mk rate _ (Amount.min (Amount.add (Float.ofNat burst)
    (Amount.mul (Amount.seconds (now - now)) rate)) (Float.ofNat burst)) (max now now) = _
  rw [Nat.sub_self, Nat.max_self, nothing, level]
  rfl

/-- A full bucket lets a request through. -/
theorem Bucket.request_full (finite : rate.isFinite = true) (pos : 0 < burst)
    (small : burst < 2 ^ 53) (now : Nat) : ((full rate burst now).request now).1 = true := by
  have enough : Amount.le (Amount.ofNat 1) (full rate burst now).tokens = true :=
    decide_eq_true (Binary64.one_le_ofNat pos small)
  rw [Bucket.request, Bucket.refill_full finite pos small, take, if_pos enough]

/-- Whatever calls there were, a client without a request since the last clearing is let through. -/
theorem Limiter.first_request_passes (finite : rate.isFinite = true) (pos : 0 < burst)
    (small : burst < 2 ^ 53) {calls : List Call} {key : String}
    (first : (calls.foldl History.after []).timesOf key = []) (now : Nat) :
    ((((create rate burst).run calls).2).request key now).1 = true := by
  have follows := ((Follows.create rate burst).run calls).2
  rw [follows.request_eq, first]
  exact Bucket.request_full finite pos small now

end ShortLink
