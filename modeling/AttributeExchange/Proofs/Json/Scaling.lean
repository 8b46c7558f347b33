import AttributeExchange.Proofs.Json.Rounding

/-!
# Scaling by powers of ten

How large a decimal number can get on the way to its double. A number below the largest double by
three units of its last place is not read as an infinity, and no number is read as one.
-/

namespace AttributeExchange.Json.Double

open Float.Model Float.Model.UnpackedFloat

/-! ## Operations -/

theorem placed_mul {m n : Nat} {d e : Int} (hm : Fits m d) (hn : Fits n e) (hmpos : 0 < m)
    (hnpos : 0 < n) : Placed (m * n) (d + e) := by
  have hpos : m * n ≠ 0 := Nat.ne_of_gt (Nat.mul_pos hmpos hnpos)
  rcases hm.full with hfull | hd
  · exact .inl ((Nat.le_log2 hpos).mpr (le_trans hfull (Nat.le_mul_of_pos_right m hnpos)))
  · rcases hn.full with hfull | he
    · exact .inl ((Nat.le_log2 hpos).mpr (le_trans hfull (Nat.le_mul_of_pos_left n hmpos)))
    · exact .inr (by omega)

theorem Rounded.mul {x y : UnpackedFloat} (hx : Rounded x) (hy : Rounded y) :
    Rounded (UnpackedFloat.mul .binary64 x y) := by
  cases hx with
  | zero s => cases hy <;> exact .zero _
  | finite s hm hd =>
      cases hy with
      | zero s => exact .zero _
      | finite t hn he => exact (placed_mul hd he hm hn).rounded_roundWithAccuracy _ _

theorem target_le {m : Nat} {e : Int} (hm : 0 < m) (h : (m : ℚ) * 2 ^ e < limit) :
    target m e ≤ 971 := by
  have hlog : (2 : ℚ) ^ (m.log2 : Int) ≤ m := by
    rw [zpow_natCast]
    exact_mod_cast Nat.log2_self_le (Nat.ne_of_gt hm)
  have hpow : (2 : ℚ) ^ (m.log2 + e : Int) < 2 ^ (1024 : Int) := by
    calc (2 : ℚ) ^ (m.log2 + e : Int) = 2 ^ (m.log2 : Int) * 2 ^ e := zpow_add₀ two_ne_zero _ _
      _ ≤ m * 2 ^ e := by gcongr
      _ < 2 ^ (1024 : Int) := h
  have hlt := (zpow_lt_zpow_iff_right₀ (by norm_num)).mp hpow
  rw [target]
  omega

def halfUnit : ℚ :=
  2 ^ (970 : Int)

theorem halfUnit_pos : 0 < halfUnit :=
  zpow_pos (by norm_num) _

/-- The product of two numbers is below the limit if the exact product is below it by half a unit of
the largest doubles. -/
theorem Rounded.size_mul_lt {x y : UnpackedFloat} (hx : Rounded x) (hy : Rounded y)
    (h : size x * size y < limit - halfUnit) :
    size (UnpackedFloat.mul .binary64 x y) < limit := by
  have hlimit : 0 < limit := zpow_pos (by norm_num) _
  cases hx with
  | zero s => cases hy <;> exact hlimit
  | @finite s m d hm hd =>
      cases hy with
      | zero s => exact hlimit
      | @finite t n e hn he =>
          have hexact : ((m * n : Nat) : ℚ) * 2 ^ (d + e) < limit - halfUnit := by
            rw [size, size] at h
            rw [zpow_add₀ two_ne_zero]
            push_cast
            linarith
          have htarget := target_le (Nat.mul_pos hm hn)
            (hexact.trans (sub_lt_self _ halfUnit_pos))
          have hhalf : (2 : ℚ) ^ target (m * n) (d + e) / 2 ≤ halfUnit := by
            have hpow : (2 : ℚ) ^ target (m * n) (d + e) ≤ 2 ^ (970 + 1 : Int) :=
              zpow_le_zpow_right₀ (by norm_num) htarget
            rw [zpow_add_one₀ two_ne_zero, ← halfUnit] at hpow
            linarith
          have hle := (placed_mul hd he hm hn).size_le (s * t)
          change size (roundWithAccuracy .binary64 (s * t) (m * n) (d + e) .exact) < limit
          linarith

theorem divCore_eq (m : Nat) (d : Int) (n : Nat) (e : Int) :
    ∃ shift : Nat, ∃ accuracy, divCore .binary64 m d n e =
      (m <<< shift / n, d - e - shift, accuracy) ∧
        (d - e - shift ≤ -1074 ∨ n.log2 + 53 ≤ m.log2 + shift) := by
  refine ⟨(d - e - min (d - e) (Format.binary64.targetExponent
    (totalExponent m d - totalExponent n e))).toNat, (divCore .binary64 m d n e).2.2, ?_, ?_⟩
  · refine Prod.ext rfl (Prod.ext ?_ rfl)
    change min (d - e) (Format.binary64.targetExponent (totalExponent m d - totalExponent n e)) =
      d - e - _
    omega
  · have htarget : Format.binary64.targetExponent (totalExponent m d - totalExponent n e) =
        max (m.log2 + d - n.log2 - e - 53) (-1074) := by
      simp only [Format.targetExponent, totalExponent, Format.mantissaBits, Format.minExponent]
      norm_num
      omega
    rw [htarget]
    omega

/-- A quotient has enough bits, and none of them are too many. -/
theorem placed_divCore {m n : Nat} {d e : Int} (hm : 0 < m) (hn : 0 < n) :
    Placed (divCore .binary64 m d n e).1 (divCore .binary64 m d n e).2.1 ∧
      ((divCore .binary64 m d n e).1 : ℚ) * 2 ^ (divCore .binary64 m d n e).2.1 ≤
        m * 2 ^ d / (n * 2 ^ e) := by
  obtain ⟨shift, accuracy, heq, hbits⟩ := divCore_eq m d n e
  have hnpos : (0 : ℚ) < n := Nat.cast_pos.mpr hn
  rw [heq, Nat.shiftLeft_eq]
  refine ⟨hbits.symm.imp (fun hlog => ?_) id, ?_⟩
  · have hquotient : 2 ^ 52 ≤ m * 2 ^ shift / n := by
      rw [Nat.le_div_iff_mul_le hn]
      calc 2 ^ 52 * n ≤ 2 ^ 52 * 2 ^ (n.log2 + 1) :=
            Nat.mul_le_mul_left _ (Nat.le_of_lt Nat.lt_log2_self)
        _ = 2 ^ (n.log2 + 53) := by rw [← Nat.pow_add, Nat.add_comm 52]
        _ ≤ 2 ^ (m.log2 + shift) := Nat.pow_le_pow_right (by decide) hlog
        _ = 2 ^ m.log2 * 2 ^ shift := Nat.pow_add _ _ _
        _ ≤ m * 2 ^ shift := Nat.mul_le_mul_right _ (Nat.log2_self_le (Nat.ne_of_gt hm))
    exact (Nat.le_log2 (by omega)).mpr hquotient
  · have hdiv : ((m * 2 ^ shift / n : Nat) : ℚ) ≤ m * 2 ^ shift / n := by
      have hle : ((m * 2 ^ shift / n : Nat) : ℚ) ≤ ((m * 2 ^ shift : Nat) : ℚ) / n :=
        Nat.cast_div_le
      push_cast at hle
      exact hle
    calc ((m * 2 ^ shift / n : Nat) : ℚ) * 2 ^ (d - e - shift : Int)
        ≤ m * 2 ^ shift / n * 2 ^ (d - e - shift : Int) := by gcongr
      _ = m * 2 ^ d / (n * 2 ^ e) := by
          rw [zpow_sub₀ two_ne_zero, zpow_sub₀ two_ne_zero, zpow_natCast]
          field_simp

theorem Rounded.div {x y : UnpackedFloat} (hx : Rounded x) (hy : Rounded y) (hpos : 0 < size y) :
    Rounded (UnpackedFloat.div .binary64 x y) ∧
      size (UnpackedFloat.div .binary64 x y) ≤ 2 * (size x / size y) + 1 := by
  cases hy with
  | zero t => exact absurd hpos (lt_irrefl 0)
  | @finite t n e hn he =>
      cases hx with
      | zero s =>
          refine ⟨.zero _, ?_⟩
          change (0 : ℚ) ≤ 2 * (0 / _) + 1
          rw [zero_div]
          norm_num
      | @finite s m d hm hd =>
          obtain ⟨hplaced, hle⟩ := placed_divCore (d := d) (e := e) hm hn
          have hdouble := hplaced.size_le_double (s / t) (divCore .binary64 m d n e).2.2
          refine ⟨hplaced.rounded_roundWithAccuracy _ _, hdouble.trans ?_⟩
          rw [size, size]
          linarith

theorem size_neg (x : UnpackedFloat) : size x.neg = size x := by
  cases x <;> rfl

theorem Rounded.neg {x : UnpackedFloat} (hx : Rounded x) : Rounded x.neg := by
  cases hx with
  | zero s => exact .zero (-s)
  | finite s hm hfits => exact .finite (-s) hm hfits

/-! ## Digits and powers of ten -/

/-- The most that rounding makes of one, apart from very small numbers. -/
def slack : ℚ :=
  1 + 2 ^ (-53 : Int)

theorem Placed.size_le_slack {m : Nat} {e : Int} (h : Placed m e) (hm : 0 < m)
    (hlow : -1022 ≤ m.log2 + e) (s : Sign) :
    size (roundWithAccuracy .binary64 s m e .exact) ≤ m * 2 ^ e * slack := by
  have htarget : target m e = m.log2 + e - 52 := by
    rw [target]
    omega
  have hlog : (2 : ℚ) ^ (m.log2 : Int) ≤ m := by
    rw [zpow_natCast]
    exact_mod_cast Nat.log2_self_le (Nat.ne_of_gt hm)
  have hhalf : (2 : ℚ) ^ target m e / 2 = 2 ^ (m.log2 : Int) * 2 ^ e * 2 ^ (-53 : Int) := by
    have hnext : (m.log2 + e - 52 : Int) = m.log2 + e + -53 + 1 := by omega
    rw [htarget, ← zpow_add₀ two_ne_zero, ← zpow_add₀ two_ne_zero, hnext, zpow_add_one₀ two_ne_zero]
    ring
  have hle : (2 : ℚ) ^ (m.log2 : Int) * 2 ^ e * 2 ^ (-53 : Int) ≤ m * 2 ^ e * 2 ^ (-53 : Int) := by
    gcongr
  calc size (roundWithAccuracy .binary64 s m e .exact)
    _ ≤ m * 2 ^ e + 2 ^ target m e / 2 := h.size_le s
    _ ≤ m * 2 ^ e + m * 2 ^ e * 2 ^ (-53 : Int) := by rw [hhalf]; gcongr
    _ = m * 2 ^ e * slack := by rw [slack]; ring

theorem slack_pos : 0 < slack := by
  norm_num [slack]

/-- An integer is brought to enough bits before it is rounded. -/
theorem round_natural (s : Sign) (n : Nat) :
    UnpackedFloat.round .binary64 s n 0 =
      roundWithAccuracy .binary64 s (n * 2 ^ (52 - n.log2)) (-(52 - n.log2 : Nat)) .exact := by
  have htarget : Format.binary64.targetExponent (totalExponent n 0) = n.log2 - 52 := by
    rw [targetExponent_eq, target]
    omega
  have hshift : (0 - (n.log2 - 52) : Int).toNat = 52 - n.log2 := by omega
  rw [UnpackedFloat.round, htarget, decreaseExponent, hshift, Nat.shiftLeft_eq, Int.zero_sub]

theorem log2_natural {n : Nat} (hn : 0 < n) : 52 ≤ (n * 2 ^ (52 - n.log2)).log2 := by
  refine (Nat.le_log2 (Nat.ne_of_gt (Nat.mul_pos hn (Nat.two_pow_pos _)))).mpr ?_
  calc 2 ^ 52 ≤ 2 ^ (n.log2 + (52 - n.log2)) := Nat.pow_le_pow_right (by decide) (by omega)
    _ = 2 ^ n.log2 * 2 ^ (52 - n.log2) := Nat.pow_add _ _ _
    _ ≤ n * 2 ^ (52 - n.log2) := Nat.mul_le_mul_right _ (Nat.log2_self_le (Nat.ne_of_gt hn))

theorem rounded_ofUInt64 (n : UInt64) :
    Rounded (UnpackedFloat.ofUInt64 .binary64 n) ∧
      size (UnpackedFloat.ofUInt64 .binary64 n) ≤ n.toNat * slack := by
  rw [UnpackedFloat.ofUInt64, UnpackedFloat.ofNat, UnpackedFloat.ofInt, UnpackedFloat.normalize]
  rcases Nat.eq_zero_or_pos n.toNat with hzero | hpos
  · rw [hzero]
    refine ⟨.zero _, ?_⟩
    change (0 : ℚ) ≤ _
    rw [Nat.cast_zero, zero_mul]
  · rw [compare_gt_iff_gt.mpr (Int.natCast_pos.mpr hpos)]
    simp only [Int.toNat_natCast]
    have hlog := log2_natural hpos
    have hplaced : Placed (n.toNat * 2 ^ (52 - n.toNat.log2)) (-(52 - n.toNat.log2 : Nat)) :=
      .inl hlog
    have hsize := hplaced.size_le_slack (Nat.mul_pos hpos (Nat.two_pow_pos _)) (by omega) .positive
    have hexact : ((n.toNat * 2 ^ (52 - n.toNat.log2) : Nat) : ℚ) *
        2 ^ (-(52 - n.toNat.log2 : Nat) : Int) = n.toNat := by
      rw [zpow_neg, zpow_natCast]
      push_cast
      field_simp
    rw [hexact] at hsize
    rw [round_natural]
    exact ⟨hplaced.rounded_roundWithAccuracy _ _, hsize⟩

def isNatural (n : Nat) : UnpackedFloat → Bool
  | .finite _ m e _ =>
      2 ^ 52 ≤ m && m < 2 ^ 53 && -52 ≤ e && m * 2 ^ (e + 52).toNat == n * 2 ^ 52
  | .zero _ | .infinity _ | .notANumber => false

theorem rounded_of_isNatural {n : Nat} {x : UnpackedFloat} (h : isNatural n x = true) :
    Rounded x ∧ size x = n := by
  cases x with
  | zero | infinity | notANumber => cases h
  | finite s m e hm =>
      simp only [isNatural, Bool.and_eq_true, decide_eq_true_eq, beq_iff_eq] at h
      obtain ⟨⟨⟨hfull, hlt⟩, hlow⟩, hvalue⟩ := h
      refine ⟨.finite s hm ⟨hlt, by omega, .inl hfull⟩, ?_⟩
      have hcast : (m : ℚ) * 2 ^ (e + 52).toNat = n * 2 ^ 52 := by exact_mod_cast hvalue
      have hexponent : e = ((e + 52).toNat : Int) - (52 : Nat) := by omega
      rw [size, hexponent, zpow_sub₀ two_ne_zero, zpow_natCast, zpow_natCast, ← mul_div_assoc,
        hcast]
      field_simp

theorem isNatural_powerOfTen : ∀ exponent : Fin 23,
    isNatural (10 ^ exponent.val) (powerOfTen exponent).toModel.unpack = true := by
  decide +kernel

theorem toModel_powerOfTen {exponent : Nat} (hlow : 22 < exponent)
    (hhigh : exponent ≤ largestPower) :
    (powerOfTen exponent).toModel = .pack
      (roundWithAccuracy .binary64 .positive (1 <<< 53 * 10 ^ exponent) (-53) .exact) := by
  rw [largestPower] at hhigh
  rw [powerOfTen, Float.ofScientific, dif_neg (by omega)]
  change Float.Model.pack (UnpackedFloat.ofScientific .binary64 1 (exponent : Int)) = _
  have hhuge : ¬ ((exponent : Int) > 2 ^ Format.binary64.exponentBits) := by
    change ¬ ((exponent : Int) > 2048)
    omega
  have htiny : ¬ ((exponent : Int) < -(2 ^ Format.binary64.exponentBits + (Nat.log2 1 : Int))) := by
    change ¬ ((exponent : Int) < -2048)
    omega
  rw [UnpackedFloat.ofScientific, dif_neg (by decide), if_neg hhuge, if_neg htiny,
    if_pos (Int.natCast_nonneg _)]
  rfl

theorem rounded_scaledPower (exponent : Nat) :
    Rounded (roundWithAccuracy .binary64 .positive (1 <<< 53 * 10 ^ exponent) (-53) .exact) ∧
      1 ≤ size (roundWithAccuracy .binary64 .positive (1 <<< 53 * 10 ^ exponent) (-53) .exact) ∧
      size (roundWithAccuracy .binary64 .positive (1 <<< 53 * 10 ^ exponent) (-53) .exact) ≤
        10 ^ exponent * slack := by
  have hpos : 0 < 1 <<< 53 * 10 ^ exponent := Nat.mul_pos (by decide) (Nat.pow_pos (by decide))
  have hlog : 53 ≤ (1 <<< 53 * 10 ^ exponent).log2 :=
    (Nat.le_log2 (Nat.ne_of_gt hpos)).mpr (Nat.le_mul_of_pos_right _ (Nat.pow_pos (by decide)))
  have hplaced : Placed (1 <<< 53 * 10 ^ exponent) (-53) := .inl (by omega)
  have htarget : -52 ≤ target (1 <<< 53 * 10 ^ exponent) (-53) := by
    rw [target]
    omega
  have hexact : ((1 <<< 53 * 10 ^ exponent : Nat) : ℚ) * 2 ^ (-53 : Int) = 10 ^ exponent := by
    rw [Nat.shiftLeft_eq]
    push_cast
    norm_num
    ring
  have hsize := hplaced.size_le_slack hpos (by omega) .positive
  rw [hexact] at hsize
  refine ⟨hplaced.rounded_roundWithAccuracy _ _, ?_, hsize⟩
  have hfull : (2 : ℚ) ^ 52 ≤ rounded (1 <<< 53 * 10 ^ exponent) (-53) .exact := by
    exact_mod_cast (hplaced.le_rounded .exact).resolve_right (by omega)
  rw [hplaced.size_roundWithAccuracy]
  have hpow : (2 : ℚ) ^ (-52 : Int) ≤ 2 ^ target (1 <<< 53 * 10 ^ exponent) (-53) :=
    zpow_le_zpow_right₀ (by norm_num) htarget
  calc (1 : ℚ) = 2 ^ 52 * 2 ^ (-52 : Int) := by norm_num
    _ ≤ rounded (1 <<< 53 * 10 ^ exponent) (-53) .exact *
          2 ^ target (1 <<< 53 * 10 ^ exponent) (-53) := by gcongr

theorem pow_largestPower_lt {exponent : Nat} (h : exponent ≤ largestPower) :
    (10 : ℚ) ^ exponent * slack < limit := by
  have hpow : (10 : ℚ) ^ exponent ≤ 10 ^ (77 * 4) := pow_le_pow_right₀ (by norm_num) h
  have hslack : slack < 3 / 2 := by norm_num [slack]
  -- A fourth of the exponents is small enough to be compared.
  have hfourth : (10 : ℚ) ^ 77 * (1107 / 1000) ≤ 2 ^ 256 := by norm_num
  calc (10 : ℚ) ^ exponent * slack < 10 ^ exponent * (3 / 2) := by gcongr
    _ ≤ 10 ^ (77 * 4) * (1107 / 1000) ^ 4 := by gcongr; norm_num
    _ = (10 ^ 77 * (1107 / 1000)) ^ 4 := by rw [mul_pow, pow_mul]
    _ ≤ (2 ^ 256) ^ 4 := by gcongr
    _ = limit := by rw [← pow_mul, limit, ← zpow_natCast]; rfl

theorem size_powerOfTen {exponent : Nat} (h : exponent ≤ largestPower) :
    Rounded (powerOfTen exponent).toModel.unpack ∧ 1 ≤ size (powerOfTen exponent).toModel.unpack ∧
      size (powerOfTen exponent).toModel.unpack ≤ 10 ^ exponent * slack := by
  rcases Nat.lt_or_ge 22 exponent with hlow | hexact
  · obtain ⟨hrounded, hone, hle⟩ := rounded_scaledPower exponent
    rw [toModel_powerOfTen hlow h, hrounded.unpack_pack (hle.trans_lt (pow_largestPower_lt h))]
    exact ⟨hrounded, hone, hle⟩
  · obtain ⟨hrounded, hsize⟩ := rounded_of_isNatural (isNatural_powerOfTen ⟨exponent, by omega⟩)
    refine ⟨hrounded, ?_, ?_⟩
    · rw [hsize]
      exact_mod_cast Nat.one_le_pow _ _ (by decide)
    · rw [hsize]
      push_cast
      have hone : (1 : ℚ) ≤ slack := by norm_num [slack]
      exact le_mul_of_one_le_right (by positivity) hone

/-! ## Scaling -/

theorem toNat_mul_slack_lt (n : UInt64) : n.toNat * slack < 2 ^ 65 := by
  have hlt : (n.toNat : ℚ) < 2 ^ 64 := by exact_mod_cast n.toNat_lt
  have hslack : slack < 2 := by norm_num [slack]
  have hpos := slack_pos
  calc n.toNat * slack ≤ 2 ^ 64 * slack := by gcongr
    _ < 2 ^ 64 * 2 := by gcongr
    _ = 2 ^ 65 := by norm_num

theorem small_lt_limit {exponent : Nat} (h : exponent ≤ 1000) : (2 : ℚ) ^ exponent < limit := by
  rw [limit, ← zpow_natCast]
  exact zpow_lt_zpow_right₀ (by norm_num) (by omega)

theorem unpack_toFloat (n : UInt64) :
    n.toFloat.toModel.unpack = UnpackedFloat.ofUInt64 .binary64 n :=
  (rounded_ofUInt64 n).1.unpack_pack (((rounded_ofUInt64 n).2.trans_lt (toNat_mul_slack_lt n)).trans
    (small_lt_limit (by decide)))

def Within (bound : ℚ) (x : Float) : Prop :=
  Rounded x.toModel.unpack ∧ size x.toModel.unpack ≤ bound

theorem within_toFloat (n : UInt64) : Within (n.toNat * slack) n.toFloat := by
  rw [Within, unpack_toFloat]
  exact rounded_ofUInt64 n

theorem Within.isFinite {bound : ℚ} {x : Float} (h : Within bound x) (hbound : bound < limit) :
    IsFinite x :=
  ⟨h.1, h.2.trans_lt hbound⟩

theorem Within.div {k : Nat} {x : Float} (h : Within (2 ^ k) x) (hk : k ≤ 998) {exponent : Nat}
    (hexponent : exponent ≤ largestPower) : Within (2 ^ (k + 2)) (x / powerOfTen exponent) := by
  obtain ⟨hrounded, hone, -⟩ := size_powerOfTen hexponent
  obtain ⟨hquotient, hle⟩ := h.1.div hrounded (one_pos.trans_le hone)
  have hless : size x.toModel.unpack / size (powerOfTen exponent).toModel.unpack ≤ 2 ^ k :=
    (div_le_self (size_nonneg _) hone).trans h.2
  have hpow : (1 : ℚ) ≤ 2 ^ k := one_le_pow₀ (by norm_num)
  have hbound : size (UnpackedFloat.div .binary64 x.toModel.unpack
      (powerOfTen exponent).toModel.unpack) ≤ 2 ^ (k + 2) := by
    rw [pow_add]
    linarith
  have hunpack := hquotient.unpack_pack (hbound.trans_lt (small_lt_limit (by omega)))
  change Rounded (Float.Model.pack _).unpack ∧ size (Float.Model.pack _).unpack ≤ _
  rw [hunpack]
  exact ⟨hquotient, hbound⟩

/-- Decimal numbers up to this one are always read. -/
def readable : ℚ :=
  (2 ^ 53 - 5 / 2) * 2 ^ (971 : Int)

theorem limit_eq : limit = 2 ^ 53 * 2 ^ (971 : Int) := by
  rw [limit, ← zpow_natCast, ← zpow_add₀ two_ne_zero]
  rfl

theorem readable_mul_slack_lt : readable * slack * slack < limit - halfUnit := by
  have hunit : (0 : ℚ) < 2 ^ (971 : Int) := zpow_pos (by norm_num) _
  have hhalf : halfUnit * 2 = 2 ^ (971 : Int) := (zpow_add_one₀ two_ne_zero 970).symm
  have hcoefficient : (2 ^ 53 - 5 / 2) * slack * slack < 2 ^ 53 - 1 / 2 := by norm_num [slack]
  calc readable * slack * slack = (2 ^ 53 - 5 / 2) * slack * slack * 2 ^ (971 : Int) := by
        rw [readable]
        ring
    _ < (2 ^ 53 - 1 / 2) * 2 ^ (971 : Int) := by gcongr
    _ = limit - halfUnit := by
        rw [limit_eq]
        linarith

theorem rounded_mul_powerOfTen (n : UInt64) {exponent : Nat} (h : exponent ≤ largestPower) :
    Rounded (UnpackedFloat.mul .binary64 n.toFloat.toModel.unpack
      (powerOfTen exponent).toModel.unpack) :=
  (within_toFloat n).1.mul (size_powerOfTen h).1

theorem isFinite_mul_powerOfTen {n : UInt64} {exponent : Nat} (h : exponent ≤ largestPower)
    (hle : (n.toNat : ℚ) * 10 ^ exponent ≤ readable) :
    IsFinite (n.toFloat * powerOfTen exponent) := by
  obtain ⟨hrounded, -, hsize⟩ := size_powerOfTen h
  obtain ⟨hdigits, hdigitsSize⟩ := within_toFloat n
  have hpos := slack_pos
  have hproduct : size n.toFloat.toModel.unpack * size (powerOfTen exponent).toModel.unpack <
      limit - halfUnit := by
    calc size n.toFloat.toModel.unpack * size (powerOfTen exponent).toModel.unpack
        ≤ n.toNat * slack * (10 ^ exponent * slack) :=
          mul_le_mul hdigitsSize hsize (size_nonneg _) (by positivity)
      _ = n.toNat * 10 ^ exponent * slack * slack := by ring
      _ ≤ readable * slack * slack := by gcongr
      _ < limit - halfUnit := readable_mul_slack_lt
  exact (hdigits.mul hrounded).isFinite (hdigits.size_mul_lt hrounded hproduct)

theorem Rounded.isInf_eq {x : UnpackedFloat} (h : Rounded x) : x.isInf = false := by
  cases h with
  | zero s => rfl
  | finite s hm hfits => rfl

theorem limit_le_pow : limit ≤ 10 ^ (largestPower + 1) := by
  have hfourth : (2 : ℚ) ^ 256 ≤ 10 ^ 77 * (17 / 10) := by norm_num
  calc limit = (2 ^ 256) ^ 4 := by rw [← pow_mul, limit, ← zpow_natCast]; rfl
    _ ≤ (10 ^ 77 * (17 / 10)) ^ 4 := by gcongr
    _ = 10 ^ (77 * 4) * (17 / 10) ^ 4 := by rw [mul_pow, pow_mul]
    _ ≤ 10 ^ (77 * 4) * 10 := by gcongr; norm_num
    _ = 10 ^ (largestPower + 1) := (pow_succ _ _).symm

theorem readable_lt_limit : readable < limit := by
  have hunit : (0 : ℚ) < 2 ^ (971 : Int) := zpow_pos (by norm_num) _
  rw [readable, limit_eq]
  gcongr
  norm_num

/-- A readable number with digits has no larger power of ten than a double. -/
theorem exponent_le_of_readable {n : Nat} (hn : 0 < n) {exponent : Int}
    (h : (n : ℚ) * 10 ^ exponent ≤ readable) : exponent ≤ largestPower := by
  by_contra hlarge
  have hone : (1 : ℚ) ≤ n := by exact_mod_cast hn
  have hpow : (10 : ℚ) ^ (largestPower + 1) ≤ 10 ^ exponent := by
    rw [← zpow_natCast]
    exact zpow_le_zpow_right₀ (by norm_num) (by push_cast; omega)
  have hreached : limit ≤ n * 10 ^ exponent := by
    calc limit ≤ 1 * 10 ^ exponent := by rw [one_mul]; exact limit_le_pow.trans hpow
      _ ≤ n * 10 ^ exponent := by gcongr
  exact absurd (hreached.trans h) (not_le.mpr readable_lt_limit)

theorem exists_scale_of_readable {n : UInt64} {exponent : Int}
    (h : (n.toNat : ℚ) * 10 ^ exponent ≤ readable) : ∃ x, scale n.toFloat exponent = some x := by
  unfold scale
  dsimp only
  split_ifs with hpositive hlow hinf hzero
  · have hexponent : (exponent.toNat : Int) = exponent := Int.toNat_of_nonneg hpositive
    rw [← hexponent, zpow_natCast] at h
    have hfinite := isFinite_mul_powerOfTen hlow h
    have hnone : (n.toFloat * powerOfTen exponent.toNat).isInf = false := hfinite.1.isInf_eq
    rw [hnone] at hinf
    cases hinf
  · exact ⟨_, rfl⟩
  · exact ⟨_, rfl⟩
  · rcases Nat.eq_zero_or_pos n.toNat with hnone | hpos
    · obtain rfl : n = 0 := UInt64.toNat_inj.mp hnone
      exact absurd (by decide +kernel) hzero
    · have hle := exponent_le_of_readable hpos h
      omega
  · exact ⟨_, rfl⟩
  · exact ⟨_, rfl⟩
  · exact ⟨_, rfl⟩

theorem isFinite_scale {n : UInt64} {exponent : Int} {x : Float}
    (h : scale n.toFloat exponent = some x) : IsFinite x := by
  have hdigits : Within (2 ^ 65) n.toFloat :=
    ⟨(within_toFloat n).1, (within_toFloat n).2.trans (toNat_mul_slack_lt n).le⟩
  unfold scale at h
  dsimp only at h
  split_ifs at h with hpositive hlow hinf hzero hdown hfar
  · obtain rfl := Option.some.inj h
    exact (rounded_mul_powerOfTen n hlow).isFinite_of_isInf (Bool.eq_false_iff.mpr hinf)
  · obtain rfl := Option.some.inj h
    exact hdigits.isFinite (small_lt_limit (by decide))
  · obtain rfl := Option.some.inj h
    exact (hdigits.div (by decide) hdown).isFinite (small_lt_limit (by decide))
  · obtain rfl := Option.some.inj h
    exact ((hdigits.div (by decide) (Nat.le_refl _)).div (by decide) (by omega)).isFinite
      (small_lt_limit (by decide))
  · obtain rfl := Option.some.inj h
    exact ((hdigits.div (by decide) (Nat.le_refl _)).div (by decide) (Nat.le_refl _)).isFinite
      (small_lt_limit (by decide))

theorem IsFinite.neg {x : Float} (h : IsFinite x) : IsFinite (-x) := by
  obtain ⟨hrounded, hsize⟩ := h
  exact hrounded.neg.isFinite (by rwa [size_neg])

/-! ## Bits -/

/-- That bits are those of a number: their exponent is not the one of the infinities. -/
def FiniteBits (bits : UInt64) : Prop :=
  bits.toNat / Nat.pow 2 52 % Nat.pow 2 11 < 2047

theorem toNat_unpackExponent (bits : UInt64) :
    (unpackExponent bits.toBitVec : BitVec Format.binary64.exponentBits).toNat =
      bits.toNat / Nat.pow 2 52 % Nat.pow 2 11 := by
  rw [unpackExponent, BitVec.toNat_cast, BitVec.extractLsb_toNat, Nat.shiftRight_eq_div_pow]
  rfl

theorem IsFinite.finiteBits {x : Float} (h : IsFinite x) : FiniteBits x.toBits := by
  obtain ⟨hrounded, -⟩ := h
  have hne : (unpackExponent x.toBits.toBitVec : BitVec Format.binary64.exponentBits) ≠ -1#11 := by
    intro hlast
    change Rounded (UnpackedFloat.unpack .binary64 x.toBits.toBitVec) at hrounded
    unfold UnpackedFloat.unpack at hrounded
    dsimp only at hrounded
    rw [if_pos hlast] at hrounded
    split_ifs at hrounded <;> cases hrounded
  have hlt := (unpackExponent x.toBits.toBitVec : BitVec Format.binary64.exponentBits).isLt
  have hvalue :
      (unpackExponent x.toBits.toBitVec : BitVec Format.binary64.exponentBits).toNat ≠ 2047 :=
    fun heq => hne (BitVec.eq_of_toNat_eq heq)
  rw [toNat_unpackExponent] at hlt hvalue
  exact Nat.lt_of_le_of_ne (Nat.le_of_lt_succ hlt) hvalue

theorem finiteBits_ofDecimal? {negative : Bool} {significand : Nat} {exponent : Int} {bits : UInt64}
    (h : ofDecimal? negative significand exponent = some bits) : FiniteBits bits := by
  rw [ofDecimal?, Option.map_eq_some_iff] at h
  obtain ⟨x, hscale, rfl⟩ := h
  have hfinite := isFinite_scale hscale
  cases negative with
  | false => exact hfinite.finiteBits
  | true => exact hfinite.neg.finiteBits

theorem exists_ofDecimal?_of_readable {significand : Nat} (hlt : significand < UInt64.size)
    {exponent : Int} (h : (significand : ℚ) * 10 ^ exponent ≤ readable) (negative : Bool) :
    ∃ bits, ofDecimal? negative significand exponent = some bits := by
  have hvalue : significand.toUInt64.toNat = significand := Nat.mod_eq_of_lt hlt
  obtain ⟨x, hscale⟩ := exists_scale_of_readable (n := significand.toUInt64) (by rwa [hvalue])
  exact ⟨_, by rw [ofDecimal?, hscale]; rfl⟩

end AttributeExchange.Json.Double
