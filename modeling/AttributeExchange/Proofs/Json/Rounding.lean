import AttributeExchange.Json.Basic
import Mathlib

/-!
# Rounding to doubles

What rounding to a double does to a number: the mantissa loses its low bits, and what is left is at
most half a unit too large, or a whole unit if the number was cut off before. A result whose
exponent is not too large is packed into bits and unpacked again without a change.
-/

namespace AttributeExchange.Json.Double

open Float.Model Float.Model.UnpackedFloat

/-! ## Losing low bits -/

theorem mantissa_shiftRight (em : ExtendedMantissa) (k : Nat) :
    (em >>> k).mantissa = em.mantissa / 2 ^ k := by
  induction k with
  | zero => exact (Nat.div_one _).symm
  | succ k ih =>
      change (em >>> k).mantissa / 2 = _
      rw [ih, Nat.div_div_eq_div_mul, Nat.pow_succ]

theorem roundBit_shiftRight (em : ExtendedMantissa) (k : Nat) :
    (em >>> (k + 1)).roundBit = (em.mantissa / 2 ^ k % 2 != 0) := by
  change ((em >>> k).mantissa % 2 != 0) = _
  rw [mantissa_shiftRight]

theorem le_roundedMantissa (em : ExtendedMantissa) : em.mantissa ≤ em.roundedMantissa := by
  obtain ⟨m, round, sticky⟩ := em
  cases round <;> cases sticky <;>
    simp [ExtendedMantissa.roundedMantissa, ExtendedMantissa.accuracy, Accuracy.roundToNearestEven]

theorem roundedMantissa_le (em : ExtendedMantissa) :
    em.roundedMantissa ≤ em.mantissa + em.roundBit.toNat := by
  obtain ⟨m, round, sticky⟩ := em
  cases round <;> cases sticky <;>
    simp [ExtendedMantissa.roundedMantissa, ExtendedMantissa.accuracy, Accuracy.roundToNearestEven]
  omega

theorem mantissa_ofMantissaAndAccuracy (m : Nat) (accuracy : Accuracy) :
    (ExtendedMantissa.ofMantissaAndAccuracy m accuracy).mantissa = m := by
  cases accuracy with
  | exact => rfl
  | inexact order => cases order <;> rfl

/-- The exponent that the mantissa is brought to, unless it is larger already. -/
def target (m : Nat) (e : Int) : Int :=
  max (m.log2 + e - 52) (-1074)

theorem targetExponent_eq (m : Nat) (e : Int) :
    Format.binary64.targetExponent (totalExponent m e) = target m e := by
  simp only [Format.targetExponent, totalExponent, Format.mantissaBits, Format.minExponent, target]
  norm_num
  omega

def lost (m : Nat) (e : Int) : Nat :=
  (target m e - e).toNat

def rounded (m : Nat) (e : Int) (accuracy : Accuracy) : Nat :=
  (ExtendedMantissa.ofMantissaAndAccuracy m accuracy >>> lost m e).roundedMantissa

theorem div_le_rounded (m : Nat) (e : Int) (accuracy : Accuracy) :
    m / 2 ^ lost m e ≤ rounded m e accuracy := by
  have hle := le_roundedMantissa (ExtendedMantissa.ofMantissaAndAccuracy m accuracy >>> lost m e)
  rwa [mantissa_shiftRight, mantissa_ofMantissaAndAccuracy] at hle

theorem rounded_le_div (m : Nat) (e : Int) (accuracy : Accuracy) :
    rounded m e accuracy ≤ m / 2 ^ lost m e + 1 := by
  have hle := roundedMantissa_le (ExtendedMantissa.ofMantissaAndAccuracy m accuracy >>> lost m e)
  rw [mantissa_shiftRight, mantissa_ofMantissaAndAccuracy] at hle
  exact hle.trans (Nat.add_le_add_left (Bool.toNat_le _) _)

/-- Rounding an exact mantissa up adds at most half a unit. -/
theorem rounded_exact_mul_le (m : Nat) (e : Int) :
    rounded m e .exact * 2 ^ lost m e ≤ m + 2 ^ lost m e / 2 := by
  have hle := roundedMantissa_le (ExtendedMantissa.ofMantissaAndAccuracy m .exact >>> lost m e)
  rw [← rounded] at hle
  cases hlost : lost m e with
  | zero =>
      rw [hlost] at hle
      change rounded m e .exact ≤ m + 0 at hle
      omega
  | succ k =>
      rw [hlost, mantissa_shiftRight, roundBit_shiftRight, mantissa_ofMantissaAndAccuracy] at hle
      have hhalf : rounded m e .exact ≤ (m / 2 ^ k + 1) / 2 := by
        rw [Nat.pow_succ, ← Nat.div_div_eq_div_mul] at hle
        rcases Nat.mod_two_eq_zero_or_one (m / 2 ^ k) with hbit | hbit
        · rw [hbit] at hle
          change _ ≤ _ + 0 at hle
          omega
        · rw [hbit] at hle
          change _ ≤ _ + 1 at hle
          omega
      calc rounded m e .exact * 2 ^ (k + 1)
          ≤ (m / 2 ^ k + 1) / 2 * 2 ^ (k + 1) := Nat.mul_le_mul_right _ hhalf
        _ = (m / 2 ^ k + 1) / 2 * 2 * 2 ^ k := by ring
        _ ≤ (m / 2 ^ k + 1) * 2 ^ k := Nat.mul_le_mul_right _ (Nat.div_mul_le_self _ _)
        _ = m / 2 ^ k * 2 ^ k + 2 ^ k := by ring
        _ ≤ m + 2 ^ k := Nat.add_le_add_right (Nat.div_mul_le_self _ _) _
        _ = m + 2 ^ (k + 1) / 2 := by rw [Nat.pow_succ, Nat.mul_div_cancel _ (by decide)]

theorem rounded_le (m : Nat) (e : Int) (accuracy : Accuracy) : rounded m e accuracy ≤ 2 ^ 53 := by
  have hlost : m.log2 + 1 ≤ 53 + lost m e := by
    rw [lost, target]
    omega
  have hdiv : m / 2 ^ lost m e < 2 ^ 53 := by
    rw [Nat.div_lt_iff_lt_mul (by positivity), ← Nat.pow_add]
    exact Nat.lt_of_lt_of_le Nat.lt_log2_self (Nat.pow_le_pow_right (by decide) hlost)
  exact (rounded_le_div m e accuracy).trans hdiv

/-- That a number has enough bits for the exponent that it is brought to. -/
def Placed (m : Nat) (e : Int) : Prop :=
  52 ≤ m.log2 ∨ e ≤ -1074

theorem Placed.exponent_eq {m : Nat} {e : Int} (h : Placed m e) :
    e + (lost m e : Int) = target m e := by
  rw [Placed] at h
  rw [lost, target]
  omega

/-- What is left is a full mantissa, if the exponent is not the smallest one. -/
theorem Placed.le_rounded {m : Nat} {e : Int} (h : Placed m e) (accuracy : Accuracy) :
    2 ^ 52 ≤ rounded m e accuracy ∨ target m e = -1074 := by
  by_cases hsmall : target m e = -1074
  · exact .inr hsmall
  · refine .inl (le_trans ?_ (div_le_rounded m e accuracy))
    have hlog : m.log2 = 52 + lost m e := by
      rw [Placed] at h
      rw [target] at hsmall
      rw [lost, target]
      omega
    have hne : m ≠ 0 := by
      rintro rfl
      rw [Nat.log2_zero] at hlog
      omega
    rw [Nat.le_div_iff_mul_le (by positivity), ← Nat.pow_add, ← hlog]
    exact Nat.log2_self_le hne

/-! ## Results -/

/-- A mantissa and an exponent of a double, apart from the largest exponent. -/
structure Fits (m : Nat) (e : Int) : Prop where
  lt : m < 2 ^ 53
  le : -1074 ≤ e
  full : 2 ^ 52 ≤ m ∨ e = -1074

/-- That a number is a double, or would be one if there was a larger exponent. -/
inductive Rounded : UnpackedFloat → Prop where
  | zero (s : Sign) : Rounded (.zero s)
  | finite (s : Sign) {m : Nat} {e : Int} (hm : 0 < m) (hfits : Fits m e) :
      Rounded (.finite s m e hm)

def size : UnpackedFloat → ℚ
  | .finite _ m e _ => m * 2 ^ e
  | .zero _ | .infinity _ | .notANumber => 0

theorem size_nonneg (x : UnpackedFloat) : 0 ≤ size x := by
  cases x with
  | finite s m e hm => exact mul_nonneg (Nat.cast_nonneg m) (zpow_nonneg (by norm_num) e)
  | zero | infinity | notANumber => exact le_refl 0

theorem shiftToTargetExponent_of_lt {m : Nat} {e : Int} (hm : m < 2 ^ 53) (he : -1074 ≤ e) :
    shiftToTargetExponent .binary64 m e .exact = (⟨m, false, false⟩, e) := by
  have hlog : m.log2 ≤ 52 := by
    by_cases hzero : m = 0
    · simp [hzero]
    · exact Nat.le_of_lt_succ ((Nat.log2_lt hzero).mpr hm)
  have hshift : (target m e - e).toNat = 0 := by
    rw [target]
    omega
  rw [shiftToTargetExponent, targetExponent_eq, shiftToExponent, hshift]
  exact congrArg _ (Int.add_zero e)

theorem shiftToTargetExponent_carry {e : Int} (he : -1074 ≤ e) :
    shiftToTargetExponent .binary64 (2 ^ 53) e .exact = (⟨2 ^ 52, false, false⟩, e + 1) := by
  have hshift : (target (2 ^ 53) e - e).toNat = 1 := by
    rw [target, Nat.log2_two_pow]
    omega
  rw [shiftToTargetExponent, targetExponent_eq, shiftToExponent, hshift]
  rfl

/-- After the low bits are lost, rounding up may have to be carried. -/
theorem roundWithAccuracy_eq (s : Sign) (m : Nat) (e : Int) (accuracy : Accuracy) :
    roundWithAccuracy .binary64 s m e accuracy =
      (let last := shiftToTargetExponent .binary64 (rounded m e accuracy) (e + lost m e) .exact
      if h : last.1.mantissa = 0 then .zero s
      else .finite s last.1.mantissa last.2 (Nat.pos_of_ne_zero h)) := by
  have hfirst : shiftToTargetExponent .binary64 m e accuracy =
      (ExtendedMantissa.ofMantissaAndAccuracy m accuracy >>> lost m e, e + lost m e) := by
    rw [shiftToTargetExponent, targetExponent_eq]
    rfl
  rw [roundWithAccuracy, hfirst]
  rfl

/-- What rounding gives is a double, and its size is what is left of the mantissa. -/
theorem Placed.rounded_and_size {m : Nat} {e : Int} (h : Placed m e) (s : Sign)
    (accuracy : Accuracy) :
    Rounded (roundWithAccuracy .binary64 s m e accuracy) ∧
      size (roundWithAccuracy .binary64 s m e accuracy) =
        rounded m e accuracy * 2 ^ target m e := by
  have hlow : -1074 ≤ target m e := le_max_right _ _
  rw [roundWithAccuracy_eq, h.exponent_eq]
  rcases Nat.lt_or_eq_of_le (rounded_le m e accuracy) with hlt | hcarry
  · simp only [shiftToTargetExponent_of_lt hlt hlow]
    split_ifs with hzero
    · refine ⟨.zero s, ?_⟩
      rw [hzero, size, Nat.cast_zero, zero_mul]
    · exact ⟨.finite s _ ⟨hlt, hlow, h.le_rounded accuracy⟩, rfl⟩
  · simp only [hcarry, shiftToTargetExponent_carry hlow]
    rw [dif_neg (by decide)]
    refine ⟨.finite s _ ⟨by decide, by omega, .inl (Nat.le_refl _)⟩, ?_⟩
    rw [size, zpow_add_one₀ two_ne_zero]
    push_cast
    ring

theorem Placed.rounded_roundWithAccuracy {m : Nat} {e : Int} (h : Placed m e) (s : Sign)
    (accuracy : Accuracy) : Rounded (roundWithAccuracy .binary64 s m e accuracy) :=
  (h.rounded_and_size s accuracy).1

theorem Placed.size_roundWithAccuracy {m : Nat} {e : Int} (h : Placed m e) (s : Sign)
    (accuracy : Accuracy) :
    size (roundWithAccuracy .binary64 s m e accuracy) = rounded m e accuracy * 2 ^ target m e :=
  (h.rounded_and_size s accuracy).2

theorem Placed.size_le {m : Nat} {e : Int} (h : Placed m e) (s : Sign) :
    size (roundWithAccuracy .binary64 s m e .exact) ≤ m * 2 ^ e + 2 ^ target m e / 2 := by
  have hpos : (0 : ℚ) < 2 ^ e := zpow_pos (by norm_num) e
  have hcast : (rounded m e .exact : ℚ) * 2 ^ lost m e ≤ m + 2 ^ lost m e / 2 := by
    have hle : ((rounded m e .exact * 2 ^ lost m e : Nat) : ℚ) ≤ (m + 2 ^ lost m e / 2 : Nat) :=
      Nat.cast_le.mpr (rounded_exact_mul_le m e)
    have hhalf : ((2 ^ lost m e / 2 : Nat) : ℚ) ≤ ((2 ^ lost m e : Nat) : ℚ) / 2 := Nat.cast_div_le
    push_cast at hle hhalf
    linarith
  rw [h.size_roundWithAccuracy, ← h.exponent_eq, zpow_add₀ two_ne_zero, zpow_natCast]
  calc (rounded m e .exact : ℚ) * (2 ^ e * 2 ^ lost m e)
      = rounded m e .exact * 2 ^ lost m e * 2 ^ e := by ring
    _ ≤ (m + 2 ^ lost m e / 2) * 2 ^ e := by gcongr
    _ = m * 2 ^ e + 2 ^ e * 2 ^ lost m e / 2 := by ring

theorem Placed.size_le_double {m : Nat} {e : Int} (h : Placed m e) (s : Sign)
    (accuracy : Accuracy) :
    size (roundWithAccuracy .binary64 s m e accuracy) ≤ 2 * (m * 2 ^ e) + 1 := by
  have hle : (rounded m e accuracy : ℚ) ≤ 2 ^ 53 := by exact_mod_cast rounded_le m e accuracy
  have hnonneg : (0 : ℚ) ≤ m * 2 ^ e :=
    mul_nonneg (Nat.cast_nonneg m) (zpow_nonneg (by norm_num) e)
  rw [h.size_roundWithAccuracy]
  rcases le_total (m.log2 + e - 52 : Int) (-1074) with hsmall | hlarge
  · have hpow : (2 : ℚ) ^ target m e ≤ 2 ^ (-53 : Int) :=
      zpow_le_zpow_right₀ (by norm_num) (by rw [target]; omega)
    calc (rounded m e accuracy : ℚ) * 2 ^ target m e ≤ 2 ^ 53 * 2 ^ (-53 : Int) := by gcongr
      _ = 1 := by norm_num
      _ ≤ 2 * (m * 2 ^ e) + 1 := by linarith
  · rw [target, max_eq_left hlarge]
    rcases Nat.eq_zero_or_pos m with rfl | hm
    · rw [Placed, Nat.log2_zero] at h
      rw [Nat.log2_zero] at hlarge
      omega
    · have hlog : (2 : ℚ) ^ m.log2 ≤ m := by exact_mod_cast Nat.log2_self_le (Nat.ne_of_gt hm)
      calc (rounded m e accuracy : ℚ) * 2 ^ (m.log2 + e - 52 : Int)
          ≤ 2 ^ 53 * 2 ^ (m.log2 + e - 52 : Int) := by gcongr
        _ = 2 * (2 ^ m.log2 * 2 ^ e) := by
            rw [zpow_sub₀ two_ne_zero, zpow_add₀ two_ne_zero, zpow_natCast]
            norm_num
            ring
        _ ≤ 2 * (m * 2 ^ e) := by gcongr
        _ ≤ 2 * (m * 2 ^ e) + 1 := by linarith

/-! ## Packing -/

theorem unpack_pack_zero (s : Sign) :
    UnpackedFloat.unpack .binary64 (pack .binary64 (.zero s)) = .zero s := by
  cases s <;> rfl

theorem toNat_implicit_append (mantissa : BitVec 52) :
    (1#1 ++ mantissa).toNat = 2 ^ 52 + mantissa.toNat := by
  rw [BitVec.toNat_append, ← Nat.shiftLeft_add_eq_or_of_lt mantissa.isLt]
  rfl

theorem unpack_packComponents (s : Sign) (exponent : BitVec 11) (mantissa : BitVec 52)
    (hexponent : exponent ≠ -1#11) :
    UnpackedFloat.unpack .binary64 (packComponents .binary64 s exponent mantissa) =
      if exponent = 0#11 then
        if h : mantissa = 0#52 then .zero s
        else .finite s mantissa.toNat (-1074)
          (Nat.pos_of_ne_zero fun hzero => h (BitVec.eq_of_toNat_eq hzero))
      else .finite s (1#1 ++ mantissa).toNat (exponent.toNat - 1075)
        (by rw [toNat_implicit_append]; omega) := by
  rw [UnpackedFloat.unpack]
  simp only [unpackExponent_packComponents, unpackMantissa_packComponents,
    unpackSign_packComponents, Sign.ofBitVec_toBitVec]
  rw [if_neg hexponent]
  split_ifs with hzero hmantissa
  · rfl
  · subst hzero
    rfl
  · rfl

theorem pack_finite (s : Sign) (m : Nat) (e : Int) (hm : 0 < m) :
    UnpackedFloat.pack .binary64 (.finite s m e hm) =
      if 2 ^ 11 ≤ (e + 1075).toNat + 1 then packedInfinity .binary64 s
      else if m.log2 + 1 = 53 then
        packComponents .binary64 s (BitVec.ofNat 11 (e + 1075).toNat) (BitVec.ofNat 52 m)
      else packComponents .binary64 s 0#11 (BitVec.ofNat 52 m) := by
  have hbias : e + (Format.binary64.exponentBias : Int) + (52 : Nat) = e + 1075 := by
    have hvalue : (Format.binary64.exponentBias : Int) = 1023 := rfl
    omega
  rw [UnpackedFloat.pack]
  simp only [hbias]
  rfl

theorem Fits.unpack_pack {m : Nat} {e : Int} (h : Fits m e) (he : e ≤ 971) (s : Sign) (hm : 0 < m) :
    UnpackedFloat.unpack .binary64 (pack .binary64 (.finite s m e hm)) = .finite s m e hm := by
  obtain ⟨hlt, hle, hfull⟩ := h
  rw [pack_finite, if_neg (by omega)]
  by_cases hnormal : 2 ^ 52 ≤ m
  · have hlog : m.log2 + 1 = 53 :=
      congrArg Nat.succ ((Nat.log2_eq_iff (Nat.ne_of_gt hm)).mpr ⟨hnormal, hlt⟩)
    have hexponent : (BitVec.ofNat 11 (e + 1075).toNat).toNat = (e + 1075).toNat := by
      rw [BitVec.toNat_ofNat]
      omega
    have hfirst : BitVec.ofNat 11 (e + 1075).toNat ≠ -1#11 := fun heq => by
      have hvalue := congrArg BitVec.toNat heq
      rw [hexponent] at hvalue
      change (e + 1075).toNat = 2047 at hvalue
      omega
    have hlast : BitVec.ofNat 11 (e + 1075).toNat ≠ 0#11 := fun heq => by
      have hvalue := congrArg BitVec.toNat heq
      rw [hexponent] at hvalue
      change (e + 1075).toNat = 0 at hvalue
      omega
    rw [if_pos hlog]
    refine (unpack_packComponents s _ _ hfirst).trans ?_
    rw [if_neg hlast]
    simp only [UnpackedFloat.finite.injEq, true_and]
    refine ⟨?_, by omega⟩
    rw [toNat_implicit_append, BitVec.toNat_ofNat]
    omega
  · have hlog : m.log2 + 1 ≠ 53 := by
      have hlt := (Nat.log2_lt (k := 52) (Nat.ne_of_gt hm)).mpr (Nat.not_le.mp hnormal)
      omega
    have hvalue : (BitVec.ofNat 52 m).toNat = m :=
      (BitVec.toNat_ofNat m 52).trans (Nat.mod_eq_of_lt (Nat.not_le.mp hnormal))
    have hne : BitVec.ofNat 52 m ≠ 0#52 := fun heq => by
      have hzero := congrArg BitVec.toNat heq
      rw [hvalue] at hzero
      exact Nat.ne_of_gt hm hzero
    rw [if_neg hlog]
    refine (unpack_packComponents s _ _ (by decide)).trans ?_
    rw [if_pos rfl]
    refine (dif_neg hne).trans ?_
    simp only [UnpackedFloat.finite.injEq, true_and]
    exact ⟨hvalue, (hfull.resolve_left hnormal).symm⟩

theorem unpack_pack_of_lt {m : Nat} {e : Int} (he : 971 < e) (s : Sign) (hm : 0 < m) :
    UnpackedFloat.unpack .binary64 (pack .binary64 (.finite s m e hm)) = .infinity s := by
  rw [pack_finite, if_pos (by omega)]
  cases s <;> rfl

/-- The size that no double reaches. -/
def limit : ℚ :=
  2 ^ (1024 : Int)

theorem Fits.le_exponent {m : Nat} {e : Int} (h : Fits m e) (hsize : (m : ℚ) * 2 ^ e < limit) :
    e ≤ 971 := by
  rcases h.full with hfull | hsmall
  · by_contra hlarge
    have hm : (2 : ℚ) ^ (52 : Int) ≤ m := by exact_mod_cast hfull
    have hpow : (2 : ℚ) ^ (972 : Int) ≤ 2 ^ e := zpow_le_zpow_right₀ (by norm_num) (by omega)
    have hreached : limit ≤ m * 2 ^ e := by
      calc limit = 2 ^ (52 : Int) * 2 ^ (972 : Int) := zpow_add₀ two_ne_zero 52 972
        _ ≤ m * 2 ^ e := by gcongr
    linarith
  · omega

theorem Fits.size_lt {m : Nat} {e : Int} (h : Fits m e) (he : e ≤ 971) :
    (m : ℚ) * 2 ^ e < limit := by
  have hm : (m : ℚ) < 2 ^ (53 : Int) := by exact_mod_cast h.lt
  have hpow : (2 : ℚ) ^ e ≤ 2 ^ (971 : Int) := zpow_le_zpow_right₀ (by norm_num) he
  calc (m : ℚ) * 2 ^ e < 2 ^ (53 : Int) * 2 ^ e := by gcongr
    _ ≤ 2 ^ (53 : Int) * 2 ^ (971 : Int) := by gcongr
    _ = limit := (zpow_add₀ two_ne_zero 53 971).symm

def IsFinite (x : Float) : Prop :=
  Rounded x.toModel.unpack ∧ size x.toModel.unpack < limit

/-- What an operation gives is a number if its size is below the limit. -/
theorem Rounded.unpack_pack {x : UnpackedFloat} (h : Rounded x) (hsize : size x < limit) :
    (Float.Model.pack x).unpack = x := by
  cases h with
  | zero s => exact unpack_pack_zero s
  | finite s hm hfits => exact hfits.unpack_pack (hfits.le_exponent hsize) s hm

theorem Rounded.isFinite {x : UnpackedFloat} (h : Rounded x) (hsize : size x < limit) :
    IsFinite (.ofModel (.pack x)) := by
  rw [IsFinite, h.unpack_pack hsize]
  exact ⟨h, hsize⟩

theorem Rounded.isFinite_of_isInf {x : UnpackedFloat} (h : Rounded x)
    (hinf : (Float.ofModel (.pack x)).isInf = false) : IsFinite (.ofModel (.pack x)) := by
  cases h with
  | zero s => exact Rounded.isFinite (.zero s) (by norm_num [size, limit])
  | @finite s m e hm hfits =>
      by_cases he : e ≤ 971
      · exact Rounded.isFinite (.finite s hm hfits) (hfits.size_lt he)
      · have hpack := unpack_pack_of_lt (Int.not_le.mp he) s hm
        change (UnpackedFloat.unpack .binary64
          (pack .binary64 (.finite s m e hm))).isInf = false at hinf
        rw [hpack] at hinf
        cases hinf

end AttributeExchange.Json.Double
