import AttributeExchange.Proofs.Json.Scaling

/-!
# Shortest decimals

The decimal number that a double is written as is larger than the double by half a unit at most. So
it is readable, but for the two largest doubles; these are read again nonetheless.
-/

namespace AttributeExchange.Json.Double

def Decimal.value (d : Decimal) : ℚ :=
  d.digits * 10 ^ d.exponent

namespace Binary

def halfAbove (b : Binary) : ℚ :=
  (b.significand + 1 / 2) * 2 ^ b.exponent

/-! ## Grids -/

/-- A point that is taken reads back as the number, so it is not far above. -/
theorem le_of_nearest? {b : Binary} {exponent : Int} {d : Decimal}
    (h : b.nearest? exponent = some d) :
    d.exponent = exponent ∧ 0 < d.digits ∧
      d.digits * (b.units exponent).1 ≤ (4 * b.significand + 2) * (b.units exponent).2 := by
  unfold nearest? at h
  cases hunits : b.units exponent with
  | mk step quarter =>
      rw [hunits] at h
      dsimp -zeta only at h
      extract_lets value low high inside below belowFits aboveFits rest at h
      have hhigh : high = (4 * b.significand + 2) * quarter := by
        simp only [high, value]
        ring
      have hinside : ∀ point, inside point = true → point ≤ high := by
        intro point hpoint
        simp only [inside] at hpoint
        split_ifs at hpoint <;> simp only [Bool.and_eq_true, decide_eq_true_eq] at hpoint <;> omega
      have hbelow : belowFits = true → 0 < below ∧ below * step ≤ high := by
        intro hfits
        obtain ⟨hpos, hpoint⟩ := (Bool.and_eq_true _ _).mp hfits
        exact ⟨of_decide_eq_true hpos, hinside _ hpoint⟩
      have habove : aboveFits = true → (below + 1) * step ≤ high := hinside _
      rw [← hhigh]
      split_ifs at h with hboth hnear hdown hup
      · obtain rfl := Option.some.inj h
        exact ⟨rfl, hbelow ((Bool.and_eq_true _ _).mp hboth).1⟩
      · obtain rfl := Option.some.inj h
        exact ⟨rfl, Nat.succ_pos below, habove ((Bool.and_eq_true _ _).mp hboth).2⟩
      · obtain rfl := Option.some.inj h
        exact ⟨rfl, hbelow hdown⟩
      · obtain rfl := Option.some.inj h
        exact ⟨rfl, Nat.succ_pos below, habove hup⟩

theorem zpow_eq_div {x : ℚ} (hx : x ≠ 0) (e : Int) : x ^ e = x ^ e.toNat / x ^ (-e).toNat := by
  rw [← zpow_natCast, ← zpow_natCast, ← zpow_sub₀ hx]
  congr 1
  omega

theorem value_le_of_nearest? {b : Binary} {exponent : Int} {d : Decimal}
    (h : b.nearest? exponent = some d) : d.value ≤ b.halfAbove := by
  obtain ⟨hexponent, -, hle⟩ := le_of_nearest? h
  have hcast : (d.digits : ℚ) * (10 ^ exponent.toNat * 2 ^ (2 - b.exponent).toNat) ≤
      (4 * b.significand + 2) * (10 ^ (-exponent).toNat * 2 ^ (b.exponent - 2).toNat) := by
    exact_mod_cast hle
  have hpower : (2 : ℚ) ^ b.exponent =
      4 * (2 ^ (b.exponent - 2).toNat / 2 ^ (2 - b.exponent).toNat) := by
    have hsplit := zpow_eq_div two_ne_zero (b.exponent - 2)
    rw [Int.neg_sub, zpow_sub₀ two_ne_zero] at hsplit
    rw [← hsplit]
    norm_num
    ring
  have hten := zpow_eq_div (x := 10) (by norm_num) exponent
  rw [Decimal.value, halfAbove, hexponent, hten, hpower]
  calc (d.digits : ℚ) * (10 ^ exponent.toNat / 10 ^ (-exponent).toNat)
      = d.digits * (10 ^ exponent.toNat * 2 ^ (2 - b.exponent).toNat) /
          (10 ^ (-exponent).toNat * 2 ^ (2 - b.exponent).toNat) := by field_simp
    _ ≤ (4 * b.significand + 2) * (10 ^ (-exponent).toNat * 2 ^ (b.exponent - 2).toNat) /
          (10 ^ (-exponent).toNat * 2 ^ (2 - b.exponent).toNat) := by gcongr
    _ = (b.significand + 1 / 2) *
          (4 * (2 ^ (b.exponent - 2).toNat / 2 ^ (2 - b.exponent).toNat)) := by
        field_simp
        ring

theorem search_cases {b : Binary} (hb : 0 < b.significand) (tries : Nat) (exponent : Int) :
    0 < (b.search tries exponent).digits ∧
      ((b.search tries exponent).value ≤ b.halfAbove ∨
        b.search tries exponent = ⟨b.significand, exponent - tries⟩) := by
  induction tries generalizing exponent with
  | zero => exact ⟨hb, .inr (by rw [search, Nat.cast_zero, Int.sub_zero])⟩
  | succ tries ih =>
      rw [search]
      cases hnearest : b.nearest? exponent with
      | some d => exact ⟨(le_of_nearest? hnearest).2.1, .inl (value_le_of_nearest? hnearest)⟩
      | none =>
          obtain ⟨hpos, hcases⟩ := ih (exponent - 1)
          refine ⟨hpos, hcases.imp id fun heq => ?_⟩
          rw [Option.getD_none, heq]
          congr 1
          omega

/-! ## Readable decimals -/

/-- That a number has at most the bits and the exponent of the largest double. -/
structure Bounded (b : Binary) : Prop where
  pos : 0 < b.significand
  lt : b.significand < 2 ^ 53
  le : b.exponent ≤ 971

theorem pow_le_readable : (10 : ℚ) ^ (302 : Int) ≤ readable := by
  have hunit : (0 : ℚ) < 2 ^ (971 : Int) := zpow_pos (by norm_num) _
  have hslack : (1 : ℚ) ≤ slack := by norm_num [slack]
  have hlarge : (10 : ℚ) ^ (308 : Int) ≤ limit := by
    calc (10 : ℚ) ^ (308 : Int) = 10 ^ largestPower := zpow_natCast 10 largestPower
      _ ≤ 10 ^ largestPower * slack := le_mul_of_one_le_right (by positivity) hslack
      _ ≤ limit := (pow_largestPower_lt (Nat.le_refl _)).le
  have hhalf : limit ≤ readable * 2 := by
    have hcoefficient : (2 : ℚ) ^ 53 ≤ (2 ^ 53 - 5 / 2) * 2 := by norm_num
    calc limit = 2 ^ 53 * 2 ^ (971 : Int) := limit_eq
      _ ≤ (2 ^ 53 - 5 / 2) * 2 * 2 ^ (971 : Int) := by gcongr
      _ = readable * 2 := by rw [readable]; ring
  have hpow : (10 : ℚ) ^ (308 : Int) = 10 ^ (302 : Int) * 10 ^ (6 : Int) :=
    zpow_add₀ (by norm_num) 302 6
  have hsix : (2 : ℚ) ≤ 10 ^ (6 : Int) := by norm_num
  have htwice : (10 : ℚ) ^ (302 : Int) * 2 ≤ 10 ^ (308 : Int) := by
    rw [hpow]
    gcongr
  exact le_of_mul_le_mul_right (htwice.trans (hlarge.trans hhalf)) two_pos

/-- Where a search runs out of grids the digits are still readable. -/
theorem value_fallback_le {b : Binary} (hb : b.Bounded) :
    (Decimal.value ⟨b.significand,
      ((b.significand.log2 : Int) + 1 + b.exponent) * 30103 / 100000 + 2 - (24 : Nat)⟩) ≤
      readable := by
  have hlog : b.significand.log2 < 53 := (Nat.log2_lt (Nat.ne_of_gt hb.pos)).mpr hb.lt
  have hexponent :
      ((b.significand.log2 : Int) + 1 + b.exponent) * 30103 / 100000 + 2 - (24 : Nat) ≤ 286 := by
    have hle := hb.le
    omega
  have hdigits : (b.significand : ℚ) ≤ 10 ^ 16 := by
    have hlt : (b.significand : ℚ) < 2 ^ 53 := by exact_mod_cast hb.lt
    exact hlt.le.trans (by norm_num)
  calc Decimal.value ⟨b.significand, _⟩ ≤ 10 ^ 16 * 10 ^ (286 : Int) := by
        rw [Decimal.value]
        have hpow := zpow_le_zpow_right₀ (a := (10 : ℚ)) (by norm_num) hexponent
        gcongr
    _ = 10 ^ (302 : Int) := by
        rw [← zpow_natCast, ← zpow_add₀ (by norm_num)]
        rfl
    _ ≤ readable := pow_le_readable

theorem halfAbove_le {b : Binary} (hb : b.Bounded)
    (hedge : b.exponent = 971 → b.significand + 2 < 2 ^ 53) : b.halfAbove ≤ readable := by
  have hunit : (0 : ℚ) < 2 ^ (971 : Int) := zpow_pos (by norm_num) _
  rw [halfAbove, readable]
  rcases Int.lt_or_eq_of_le hb.le with hsmall | hlast
  · have hpow : (2 : ℚ) ^ b.exponent * 2 ≤ 2 ^ (971 : Int) := by
      rw [← zpow_add_one₀ two_ne_zero]
      exact zpow_le_zpow_right₀ (by norm_num) hsmall
    have hlt : (b.significand : ℚ) < 2 ^ 53 := by exact_mod_cast hb.lt
    calc (b.significand + 1 / 2) * (2 : ℚ) ^ b.exponent
      _ ≤ (2 ^ 53 + 1 / 2) * (2 ^ (971 : Int) / 2) := by
          gcongr
          linarith
      _ = (2 ^ 53 + 1 / 2) / 2 * 2 ^ (971 : Int) := by ring
      _ ≤ (2 ^ 53 - 5 / 2) * 2 ^ (971 : Int) := by
          gcongr
          norm_num
  · have hlt : (b.significand : ℚ) + 3 ≤ 2 ^ 53 := by exact_mod_cast hedge hlast
    rw [hlast]
    gcongr
    linarith

/-- The shortest decimal of a number is readable, but for the two largest doubles. -/
theorem shortest_readable {b : Binary} (hb : b.Bounded)
    (hedge : b.exponent = 971 → b.significand + 2 < 2 ^ 53) : b.shortest.value ≤ readable := by
  rw [shortest]
  rcases (search_cases hb.pos 24 _).2 with hle | heq
  · exact hle.trans (halfAbove_le hb hedge)
  · rw [heq]
    exact value_fallback_le hb

theorem shortest_pos {b : Binary} (hb : b.Bounded) : 0 < b.shortest.digits :=
  (search_cases hb.pos 24 _).1

end Binary

/-! ## Numbers of doubles -/

theorem bounded_ofBits {bits : UInt64} (hfinite : FiniteBits bits)
    (hpos : 0 < (Binary.ofBits bits).significand) : (Binary.ofBits bits).Bounded := by
  have hfraction : bits.toNat % Nat.pow 2 52 < 2 ^ 52 := Nat.mod_lt _ (by decide)
  rw [FiniteBits] at hfinite
  refine ⟨hpos, ?_, ?_⟩
  · rw [Binary.ofBits]
    split_ifs
    · exact hfraction.trans (by decide)
    · change 2 ^ 52 + _ < 2 ^ 53
      omega
  · rw [Binary.ofBits]
    split_ifs
    · change (-1074 : Int) ≤ 971
      decide
    · change ((_ : Nat) : Int) - 1075 ≤ 971
      omega

theorem ofBits_edge {bits : UInt64} (hbounded : (Binary.ofBits bits).Bounded)
    (hlast : (Binary.ofBits bits).exponent = 971)
    (hedge : ¬ (Binary.ofBits bits).significand + 2 < 2 ^ 53) :
    Binary.ofBits bits = ⟨9007199254740991, 971, false⟩ ∨
      Binary.ofBits bits = ⟨9007199254740990, 971, false⟩ := by
  have hfar : (Binary.ofBits bits).closeBelow = false := by
    rw [Binary.ofBits] at hedge ⊢
    split_ifs at hedge ⊢ with hzero
    · rfl
    · have hne : bits.toNat % Nat.pow 2 52 ≠ 0 := by
        intro hnone
        rw [hnone] at hedge
        have hsmall : Nat.pow 2 52 + 0 + 2 < 2 ^ 53 := by decide
        exact hedge hsmall
      simp [hne]
  obtain ⟨-, hlt, -⟩ := hbounded
  revert hlast hedge hfar hlt
  cases Binary.ofBits bits with
  | mk significand exponent closeBelow =>
      rintro rfl hedge rfl hlt
      simp only [Binary.mk.injEq, and_true] at *
      omega

theorem shortest_largest :
    Binary.shortest ⟨9007199254740991, 971, false⟩ = ⟨17976931348623157, 292⟩ := by
  decide +kernel

theorem shortest_secondLargest :
    Binary.shortest ⟨9007199254740990, 971, false⟩ = ⟨17976931348623155, 292⟩ := by
  decide +kernel


end AttributeExchange.Json.Double
