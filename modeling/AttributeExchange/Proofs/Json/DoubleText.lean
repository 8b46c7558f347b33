import AttributeExchange.Proofs.Json.Shortest
import AttributeExchange.Proofs.Json.Value

/-!
# Texts of doubles

The text of a double is a number with a point or an exponent, and the number has a value: so every
double that is written is read as a double again, though not always as the same one.
-/

namespace AttributeExchange.Json

namespace Numeral

/-! ## Digits that count -/

/-- The number that digits after a number spell. -/
def extended (n : Nat) (digits : List Nat) : Nat :=
  digits.foldl (fun n d => 10 * n + d) n

@[simp] theorem extended_nil (n : Nat) : extended n [] = n := rfl

@[simp] theorem extended_cons (n d : Nat) (digits : List Nat) :
    extended n (d :: digits) = extended (10 * n + d) digits := rfl

theorem extended_append (n : Nat) (digits more : List Nat) :
    extended n (digits ++ more) = extended (extended n digits) more :=
  List.foldl_append

theorem extended_replicate_zero (n k : Nat) : extended n (List.replicate k 0) = n * 10 ^ k := by
  induction k generalizing n with
  | zero => exact (Nat.mul_one n).symm
  | succ k ih =>
      rw [List.replicate_succ, extended_cons, ih, Nat.pow_succ]
      ring

theorem le_extended (n : Nat) (digits : List Nat) : n * 10 ^ digits.length ≤ extended n digits := by
  induction digits generalizing n with
  | nil => exact Nat.le_of_eq (Nat.mul_one n)
  | cons d digits ih =>
      calc n * 10 ^ (digits.length + 1) = 10 * n * 10 ^ digits.length := by ring
        _ ≤ (10 * n + d) * 10 ^ digits.length := Nat.mul_le_mul_right _ (Nat.le_add_right _ _)
        _ ≤ extended n (d :: digits) := ih _

theorem extended_lt {n : Nat} {digits : List Nat} (h : ∀ d ∈ digits, d < 10) :
    extended n digits < (n + 1) * 10 ^ digits.length := by
  induction digits generalizing n with
  | nil => exact Nat.lt_of_lt_of_eq (Nat.lt_succ_self n) (Nat.mul_one _).symm
  | cons d digits ih =>
      have hd := h d List.mem_cons_self
      calc extended n (d :: digits) < (10 * n + d + 1) * 10 ^ digits.length :=
            ih fun c hc => h c (List.mem_cons_of_mem d hc)
        _ ≤ (10 * n + 10) * 10 ^ digits.length := Nat.mul_le_mul_right _ (by omega)
        _ = (n + 1) * 10 ^ (digits.length + 1) := by ring

theorem absorb_le {n : Nat} (hn : n < UInt64.size) (digits : List Nat) :
    (absorb n digits).1 < UInt64.size ∧ (absorb n digits).2.length ≤ digits.length ∧
      (absorb n digits).1 * 10 ^ (absorb n digits).2.length ≤ extended n digits := by
  induction digits generalizing n with
  | nil => exact ⟨hn, Nat.le_refl _, le_extended n []⟩
  | cons d digits ih =>
      rw [absorb]
      split_ifs with hfits
      · obtain ⟨hlt, hlength, hle⟩ := ih hfits
        exact ⟨hlt, Nat.le_succ_of_le hlength, hle⟩
      · exact ⟨hn, Nat.le_refl _, le_extended n (d :: digits)⟩

theorem absorb_eq {n : Nat} {digits : List Nat} (h : extended n digits < UInt64.size) :
    absorb n digits = (extended n digits, []) := by
  induction digits generalizing n with
  | nil => rfl
  | cons d digits ih =>
      have hle : 10 * n + d ≤ extended n (d :: digits) :=
        (Nat.le_mul_of_pos_right _ (Nat.pow_pos (by decide))).trans (le_extended _ digits)
      rw [absorb, if_pos (hle.trans_lt h)]
      exact ih h

/-- A numeral with few digits before the point is read with as many of its digits as count. -/
theorem double?_eq {numeral : Numeral} (hdigits : ∀ d ∈ numeral.whole, d < 10)
    (hlength : numeral.whole.length ≤ 19) :
    ∃ significand exponent, significand < UInt64.size ∧
      numeral.double? = Double.ofDecimal? numeral.negative significand exponent ∧
      (significand : ℚ) * 10 ^ exponent ≤ extended 0 (numeral.whole ++ numeral.fraction) *
        10 ^ (numeral.exponent.getD 0 - numeral.fraction.length) := by
  have hwhole : extended 0 numeral.whole < UInt64.size := by
    calc extended 0 numeral.whole < (0 + 1) * 10 ^ numeral.whole.length := extended_lt hdigits
      _ ≤ (0 + 1) * 10 ^ 19 := Nat.mul_le_mul_left _ (Nat.pow_le_pow_right (by decide) hlength)
      _ ≤ UInt64.size := by decide
  obtain ⟨hlt, hignored, hle⟩ := absorb_le hwhole numeral.fraction
  refine ⟨_, _, hlt, by rw [double?, absorb_eq hwhole], ?_⟩
  have hexponent : (([] : List Nat).length : Int) - ((numeral.fraction.length : Int) -
      (absorb (extended 0 numeral.whole) numeral.fraction).2.length) + numeral.exponent.getD 0 =
      (absorb (extended 0 numeral.whole) numeral.fraction).2.length +
        (numeral.exponent.getD 0 - numeral.fraction.length) := by
    rw [List.length_nil]
    omega
  have hcast : ((absorb (extended 0 numeral.whole) numeral.fraction).1 : ℚ) *
      10 ^ (absorb (extended 0 numeral.whole) numeral.fraction).2.length ≤
        extended 0 (numeral.whole ++ numeral.fraction) := by
    rw [extended_append]
    exact_mod_cast hle
  rw [hexponent, zpow_add₀ (by norm_num), zpow_natCast, ← mul_assoc]
  gcongr

theorem value_of_double? {numeral : Numeral}
    (h : numeral.fraction ≠ [] ∨ numeral.exponent ≠ none) {bits : UInt64}
    (hdouble : numeral.double? = some bits) : numeral.value = .ok (.double bits) := by
  have hinteger : numeral.integer? = none := by
    rw [integer?, if_neg (by simpa [imp_iff_not_or] using h)]
  rw [value, hinteger]
  simp only [hdouble]

end Numeral

namespace Double

/-! ## Numerals -/

def valuesOf (digits : List Char) : List Nat :=
  (digits.map ascii).map Numeral.digitValue

theorem valuesOf_append (digits more : List Char) :
    valuesOf (digits ++ more) = valuesOf digits ++ valuesOf more := by
  rw [valuesOf, List.map_append, List.map_append]
  rfl

theorem valuesOf_replicate_zero (k : Nat) :
    valuesOf (List.replicate k '0') = List.replicate k 0 := by
  rw [valuesOf, List.map_replicate, List.map_replicate]
  rfl

theorem valuesOf_take (k : Nat) (digits : List Char) :
    valuesOf (digits.take k) = (valuesOf digits).take k := by
  rw [valuesOf, List.map_take, List.map_take]
  rfl

theorem valuesOf_drop (k : Nat) (digits : List Char) :
    valuesOf (digits.drop k) = (valuesOf digits).drop k := by
  rw [valuesOf, List.map_drop, List.map_drop]
  rfl

def digitValues (n : Nat) : List Nat :=
  valuesOf (digitsOf n)

def Decimal.scientific (d : Decimal) : Int :=
  d.exponent + ((digitsOf d.digits).length : Int) - 1

def Decimal.numeral (negative : Bool) (d : Decimal) : Numeral :=
  if isPositional d.scientific then
    if 0 ≤ d.exponent then
      ⟨negative, digitValues d.digits ++ List.replicate d.exponent.toNat 0, [0], none⟩
    else if 0 ≤ d.scientific then
      ⟨negative, (digitValues d.digits).take (d.scientific.toNat + 1),
        (digitValues d.digits).drop (d.scientific.toNat + 1), none⟩
    else
      ⟨negative, [0], List.replicate (-d.scientific - 1).toNat 0 ++ digitValues d.digits, none⟩
  else
    ⟨negative, (digitValues d.digits).take 1, (digitValues d.digits).drop 1, some d.scientific⟩

theorem extended_digitValues (n : Nat) : Numeral.extended 0 (digitValues n) = n :=
  Numeral.ofDigits_decimal false n

theorem length_digitValues (n : Nat) : (digitValues n).length = (digitsOf n).length := by
  rw [digitValues, valuesOf, List.length_map, List.length_map]

theorem length_digitsOf_pos (n : Nat) : 0 < (digitsOf n).length :=
  List.length_pos_of_ne_nil Nat.toDigits_ne_nil

/-- With its point moved, the numeral of a decimal is the decimal. -/
theorem Decimal.value_numeral (negative : Bool) (d : Decimal) :
    Numeral.extended 0 ((d.numeral negative).whole ++ (d.numeral negative).fraction) *
      (10 : ℚ) ^ ((d.numeral negative).exponent.getD 0 - (d.numeral negative).fraction.length) =
        d.value := by
  have hdigits := extended_digitValues d.digits
  have hlength := length_digitValues d.digits
  have hpos := length_digitsOf_pos d.digits
  rw [numeral]
  split_ifs with hpositional hinteger hpoint
  · have hpower : (10 : ℚ) ^ d.exponent = 10 ^ d.exponent.toNat := by
      rw [← zpow_natCast, Int.toNat_of_nonneg hinteger]
    rw [Numeral.extended_append, Numeral.extended_append, hdigits, Numeral.extended_replicate_zero,
      value, hpower]
    norm_num
    ring
  · rw [List.take_append_drop, hdigits, value, List.length_drop, hlength, scientific]
    congr 2
    rw [scientific] at hpoint
    change (0 : Int) - _ = _
    omega
  · rw [List.cons_append, List.nil_append, Numeral.extended_cons, Numeral.extended_append,
      Numeral.extended_replicate_zero, Nat.mul_zero, Nat.zero_add, Nat.zero_mul, hdigits, value,
      List.length_append, List.length_replicate, hlength]
    congr 2
    rw [scientific] at hpoint ⊢
    change (0 : Int) - _ = _
    omega
  · rw [List.take_append_drop, hdigits, value, List.length_drop, hlength, scientific]
    congr 2
    rw [Option.getD_some]
    omega

theorem le_of_isPositional {scientific : Int} (h : isPositional scientific = true) :
    -5 ≤ scientific ∧ scientific ≤ 15 :=
  ⟨of_decide_eq_true ((Bool.and_eq_true _ _).mp h).1,
    of_decide_eq_true ((Bool.and_eq_true _ _).mp h).2⟩

theorem Decimal.length_whole_numeral (negative : Bool) (d : Decimal) :
    (d.numeral negative).whole.length ≤ 16 := by
  have hlength := length_digitValues d.digits
  rw [numeral]
  split_ifs with hpositional hinteger hpoint
  · obtain ⟨-, hle⟩ := le_of_isPositional hpositional
    rw [scientific] at hle
    rw [List.length_append, List.length_replicate, hlength]
    omega
  · obtain ⟨-, hle⟩ := le_of_isPositional hpositional
    rw [List.length_take]
    omega
  · exact (by decide : 1 ≤ 16)
  · rw [List.length_take]
    omega

theorem lt_of_mem_digitValues {n d : Nat} (h : d ∈ digitValues n) : d < 10 := by
  obtain ⟨b, hb, rfl⟩ := List.mem_map.mp h
  obtain ⟨c, hc, rfl⟩ := List.mem_map.mp hb
  have hdigit := Numeral.isDigit_of_mem_toDigits hc
  rw [(Numeral.isDigit_ascii hdigit).2]
  rw [Char.isDigit_iff_toNat] at hdigit
  have hnine : '9'.toNat = 57 := rfl
  omega

theorem Decimal.lt_of_mem_whole_numeral {negative : Bool} {d : Decimal} {c : Nat}
    (h : c ∈ (d.numeral negative).whole) : c < 10 := by
  rw [numeral] at h
  split_ifs at h with hpositional hinteger hpoint
  · rcases List.mem_append.mp h with hdigit | hzero
    · exact lt_of_mem_digitValues hdigit
    · rw [List.eq_of_mem_replicate hzero]
      decide
  · exact lt_of_mem_digitValues (List.mem_of_mem_take h)
  · rw [List.mem_singleton.mp h]
    decide
  · exact lt_of_mem_digitValues (List.mem_of_mem_take h)

@[simp] theorem Decimal.negative_numeral (negative : Bool) (d : Decimal) :
    (d.numeral negative).negative = negative := by
  rw [numeral]
  split_ifs <;> rfl

theorem Decimal.fraction_numeral (negative : Bool) (d : Decimal) :
    (d.numeral negative).fraction ≠ [] ∨ (d.numeral negative).exponent ≠ none := by
  have hlength := length_digitValues d.digits
  have hpos := length_digitsOf_pos d.digits
  rw [numeral]
  split_ifs with hpositional hinteger hpoint
  · exact .inl (List.cons_ne_nil _ _)
  · refine .inl fun hnil => ?_
    have hdrop := List.drop_eq_nil_iff.mp hnil
    rw [scientific] at hdrop hpoint
    omega
  · refine .inl fun hnil => ?_
    have hnone := congrArg List.length (List.append_eq_nil_iff.mp hnil).2
    rw [hlength] at hnone
    exact absurd hnone (Nat.ne_of_gt hpos)
  · exact .inr (Option.some_ne_none _)

theorem Decimal.exists_double?_of_readable {d : Decimal} (h : d.value ≤ readable)
    (negative : Bool) : ∃ bits, (d.numeral negative).double? = some bits := by
  obtain ⟨significand, exponent, hlt, hdouble, hle⟩ :=
    Numeral.double?_eq (fun c hc => d.lt_of_mem_whole_numeral hc)
      ((d.length_whole_numeral negative).trans (by decide))
  rw [d.value_numeral negative] at hle
  rw [hdouble]
  exact exists_ofDecimal?_of_readable hlt (hle.trans h) _

theorem isExponent_exponentText (scientific : Int) :
    Numeral.IsExponent ((exponentText scientific).map ascii) (some scientific) := by
  have hdigits : Numeral.IsDigits ((digitsOf scientific.natAbs).map ascii) :=
    Numeral.isDigits_map_ascii Nat.toDigits_ne_nil fun c => Numeral.isDigit_of_mem_toDigits
  have hvalue : Numeral.ofDigits (((digitsOf scientific.natAbs).map ascii).map Numeral.digitValue) =
      scientific.natAbs := extended_digitValues scientific.natAbs
  rw [exponentText]
  split_ifs with hnegative
  · have hexponent := Numeral.IsExponent.minus (.inl rfl) hdigits
    rw [hvalue, Int.ofNat_natAbs_of_nonpos (Int.le_of_lt hnegative), Int.neg_neg] at hexponent
    exact hexponent
  · have hexponent := Numeral.IsExponent.plus (.inl rfl) hdigits
    rw [hvalue, Int.natAbs_of_nonneg (Int.not_lt.mp hnegative)] at hexponent
    exact hexponent

theorem writes_point {whole fraction : List Char} (hwhole : Numeral.IsWhole (whole.map ascii))
    (hne : fraction ≠ []) (hdigit : ∀ c ∈ fraction, c.isDigit = true) {exponent : List Char}
    {e : Option Int} (hexponent : Numeral.IsExponent (exponent.map ascii) e) (negative : Bool) :
    Numeral.Writes ((whole ++ '.' :: (fraction ++ exponent)).map ascii)
      ⟨negative, valuesOf whole, valuesOf fraction, e⟩ := by
  have hparts : Numeral.Writes (whole.map ascii ++
      ((ascii '.' :: fraction.map ascii) ++ exponent.map ascii))
      ⟨negative, valuesOf whole, valuesOf fraction, e⟩ :=
    .parts hwhole (.point (Numeral.isDigits_map_ascii hne hdigit)) hexponent
  rwa [List.map_append, List.map_cons, List.map_append]

/-- Digits of a positive number: the first of them is no zero. -/
structure Significant (digits : List Char) : Prop where
  ne_nil : digits ≠ []
  isDigit : ∀ c ∈ digits, c.isDigit = true
  head : digits.head? ≠ some '0'

theorem significant_digitsOf {n : Nat} (hpos : 0 < n) : Significant (digitsOf n) :=
  ⟨Nat.toDigits_ne_nil, fun _ => Numeral.isDigit_of_mem_toDigits,
    fun hhead => Nat.ne_of_gt hpos (Numeral.head?_toDigits hhead)⟩

theorem isDigit_of_mem_zeros {k : Nat} {c : Char} (h : c ∈ List.replicate k '0') :
    c.isDigit = true := by
  rw [List.eq_of_mem_replicate h]
  rfl

theorem isExponent_nil : Numeral.IsExponent (([] : List Char).map ascii) none :=
  .none

namespace Significant

variable {digits : List Char}

theorem isWhole (h : Significant digits) : Numeral.IsWhole (digits.map ascii) :=
  ⟨Numeral.isDigits_map_ascii h.ne_nil h.isDigit,
    fun hzero => absurd (Numeral.head?_eq_zero h.isDigit hzero) h.head⟩

theorem append (h : Significant digits) {more : List Char}
    (hmore : ∀ c ∈ more, c.isDigit = true) : Significant (digits ++ more) where
  ne_nil := List.append_ne_nil_of_left_ne_nil h.ne_nil more
  isDigit := List.forall_mem_append.mpr ⟨h.isDigit, hmore⟩
  head := by
    rw [List.head?_append_of_ne_nil _ h.ne_nil]
    exact h.head

theorem take (h : Significant digits) {k : Nat} (hk : 0 < k) : Significant (digits.take k) where
  ne_nil := by
    have hpos := List.length_pos_of_ne_nil h.ne_nil
    exact List.ne_nil_of_length_pos (by rw [List.length_take]; omega)
  isDigit c hc := h.isDigit c (List.mem_of_mem_take hc)
  head := by
    rw [List.head?_take, if_neg (Nat.ne_of_gt hk)]
    exact h.head

theorem writes_zeros_after (h : Significant digits) (k : Nat) (negative : Bool) :
    Numeral.Writes ((digits ++ List.replicate k '0' ++ ['.', '0']).map ascii)
      ⟨negative, valuesOf digits ++ List.replicate k 0, [0], none⟩ := by
  have hwrites := writes_point (h.append fun _ => isDigit_of_mem_zeros (k := k)).isWhole
    (List.cons_ne_nil '0' []) (fun _ => isDigit_of_mem_zeros (k := 1)) isExponent_nil negative
  rw [valuesOf_append, valuesOf_replicate_zero] at hwrites
  exact hwrites

theorem writes_point_within (h : Significant digits) {k : Nat} (hk : 0 < k)
    (hlt : k < digits.length) (negative : Bool) :
    Numeral.Writes ((digits.take k ++ '.' :: digits.drop k).map ascii)
      ⟨negative, (valuesOf digits).take k, (valuesOf digits).drop k, none⟩ := by
  have hrest : digits.drop k ≠ [] :=
    List.ne_nil_of_length_pos (by rw [List.length_drop]; omega)
  have hwrites := writes_point (h.take hk).isWhole hrest
    (fun c hc => h.isDigit c (List.mem_of_mem_drop hc)) isExponent_nil negative
  rw [List.append_nil, valuesOf_take, valuesOf_drop] at hwrites
  exact hwrites

theorem writes_zeros_before (h : Significant digits) (k : Nat) (negative : Bool) :
    Numeral.Writes (('0' :: '.' :: (List.replicate k '0' ++ digits)).map ascii)
      ⟨negative, [0], List.replicate k 0 ++ valuesOf digits, none⟩ := by
  have hzero : Numeral.IsWhole (['0'].map ascii) := Numeral.isWhole_toDigits 0
  have hwrites := writes_point hzero (List.append_ne_nil_of_right_ne_nil _ h.ne_nil)
    (List.forall_mem_append.mpr ⟨fun _ => isDigit_of_mem_zeros (k := k), h.isDigit⟩)
    isExponent_nil negative
  rw [List.append_nil, valuesOf_append, valuesOf_replicate_zero] at hwrites
  exact hwrites

theorem writes_exponent_alone {digit : Char} (h : Significant [digit]) (scientific : Int)
    (negative : Bool) :
    Numeral.Writes ((digit :: exponentText scientific).map ascii)
      ⟨negative, valuesOf [digit], [], some scientific⟩ := by
  have hparts : Numeral.Writes ([digit].map ascii ++ ([] ++ (exponentText scientific).map ascii))
      ⟨negative, valuesOf [digit], [], some scientific⟩ :=
    .parts h.isWhole .none (isExponent_exponentText scientific)
  exact hparts

theorem writes_exponent {first next : Char} {more : List Char}
    (h : Significant (first :: next :: more)) (scientific : Int) (negative : Bool) :
    Numeral.Writes ((first :: '.' :: (next :: more ++ exponentText scientific)).map ascii)
      ⟨negative, valuesOf [first], valuesOf (next :: more), some scientific⟩ :=
  writes_point (h.take Nat.one_pos).isWhole (List.cons_ne_nil next more)
    (fun c hc => h.isDigit c (List.mem_cons_of_mem first hc))
    (isExponent_exponentText scientific) negative

end Significant

theorem Decimal.writes_text {d : Decimal} (hpos : 0 < d.digits) (negative : Bool) :
    Numeral.Writes (d.text.map ascii) (d.numeral negative) := by
  have hdigits := significant_digitsOf hpos
  have hlength := length_digitsOf_pos d.digits
  unfold text
  dsimp only
  rw [numeral, ← scientific, digitValues]
  split_ifs with hpositional hinteger hpoint
  · exact hdigits.writes_zeros_after _ negative
  · refine hdigits.writes_point_within (Nat.succ_pos _) ?_ negative
    rw [scientific] at hpoint ⊢
    omega
  · exact hdigits.writes_zeros_before _ negative
  · generalize digitsOf d.digits = digits at hdigits
    cases digits with
    | nil => exact absurd rfl hdigits.ne_nil
    | cons first more =>
        cases more with
        | nil => exact hdigits.writes_exponent_alone d.scientific negative
        | cons next more => exact hdigits.writes_exponent d.scientific negative

/-! ## Characters -/

theorem ascii_digitsOf (n : Nat) : ∀ c ∈ digitsOf n, c.toNat < 128 :=
  fun _ hc => Numeral.toNat_lt_of_isDigit (Numeral.isDigit_of_mem_toDigits hc)

theorem ascii_exponentText (scientific : Int) : ∀ c ∈ exponentText scientific, c.toNat < 128 := by
  rw [exponentText, List.forall_mem_cons, List.forall_mem_cons]
  refine ⟨by decide, ?_, ascii_digitsOf _⟩
  split_ifs <;> decide

theorem Decimal.ascii_text (d : Decimal) : ∀ c ∈ d.text, c.toNat < 128 := by
  have hdigits := ascii_digitsOf d.digits
  have hpoint : '.'.toNat < 128 := by decide
  have hzero : '0'.toNat < 128 := by decide
  have hzeros : ∀ k, ∀ c ∈ List.replicate k '0', c.toNat < 128 := fun k c hc => by
    rw [List.eq_of_mem_replicate hc]
    exact hzero
  unfold text
  dsimp only
  split_ifs
  · refine List.forall_mem_append.mpr ⟨List.forall_mem_append.mpr ⟨hdigits, hzeros _⟩, ?_⟩
    exact List.forall_mem_cons.mpr ⟨hpoint, hzeros 1⟩
  · refine List.forall_mem_append.mpr ⟨fun c hc => hdigits c (List.mem_of_mem_take hc), ?_⟩
    exact List.forall_mem_cons.mpr ⟨hpoint, fun c hc => hdigits c (List.mem_of_mem_drop hc)⟩
  · refine List.forall_mem_cons.mpr ⟨hzero, List.forall_mem_cons.mpr ⟨hpoint, ?_⟩⟩
    exact List.forall_mem_append.mpr ⟨hzeros _, hdigits⟩
  · revert hdigits
    cases digitsOf d.digits with
    | nil => exact fun _ c hc => absurd hc List.not_mem_nil
    | cons digit more =>
        intro hdigits
        obtain ⟨hdigit, hmore⟩ := List.forall_mem_cons.mp hdigits
        cases more with
        | nil => exact List.forall_mem_cons.mpr ⟨hdigit, ascii_exponentText _⟩
        | cons next more =>
            exact List.forall_mem_cons.mpr ⟨hdigit, List.forall_mem_cons.mpr
              ⟨hpoint, List.forall_mem_append.mpr ⟨hmore, ascii_exponentText _⟩⟩⟩

/-! ## Reading again -/

theorem finiteBits_double? {numeral : Numeral} {bits : UInt64} (h : numeral.double? = some bits) :
    FiniteBits bits :=
  finiteBits_ofDecimal? h

theorem exists_double?_edge (negative : Bool) :
    (∃ bits, (Decimal.numeral negative ⟨17976931348623157, 292⟩).double? = some bits) ∧
      ∃ bits, (Decimal.numeral negative ⟨17976931348623155, 292⟩).double? = some bits := by
  cases negative <;>
    exact ⟨Option.isSome_iff_exists.mp (by decide +kernel),
      Option.isSome_iff_exists.mp (by decide +kernel)⟩

theorem exists_double?_shortest {bits : UInt64} (hfinite : FiniteBits bits)
    (hpos : 0 < (Binary.ofBits bits).significand) (negative : Bool) :
    ∃ again, ((Binary.ofBits bits).shortest.numeral negative).double? = some again := by
  have hbounded := bounded_ofBits hfinite hpos
  by_cases hlast : (Binary.ofBits bits).exponent = 971 ∧
      ¬ (Binary.ofBits bits).significand + 2 < 2 ^ 53
  · rcases ofBits_edge hbounded hlast.1 hlast.2 with heq | heq
    · rw [heq, shortest_largest]
      exact (exists_double?_edge negative).1
    · rw [heq, shortest_secondLargest]
      exact (exists_double?_edge negative).2
  · refine Decimal.exists_double?_of_readable ?_ negative
    exact Binary.shortest_readable hbounded fun h => not_not.mp fun hedge => hlast ⟨h, hedge⟩

theorem exists_double?_zero (negative : Bool) :
    ∃ bits, (Numeral.mk negative [0] [0] none).double? = some bits := by
  cases negative <;> exact Option.isSome_iff_exists.mp (by decide +kernel)

theorem exists_numeral_magnitude {bits : UInt64} (hfinite : FiniteBits bits) (negative : Bool) :
    ∃ numeral : Numeral, numeral.negative = negative ∧
      Numeral.Writes (encoded (if (Binary.ofBits bits).significand = 0 then ['0', '.', '0']
        else (Binary.ofBits bits).shortest.text)) numeral ∧
      ∃ again, numeral.value = .ok (.double again) := by
  split_ifs with hzero
  · obtain ⟨again, hagain⟩ := exists_double?_zero negative
    refine ⟨⟨negative, [0], [0], none⟩, rfl, ?_, again,
      Numeral.value_of_double? (.inl (List.cons_ne_nil _ _)) hagain⟩
    have hnone : Numeral.IsExponent (([] : List Char).map ascii) none := .none
    have hwhole : Numeral.IsWhole (['0'].map ascii) := Numeral.isWhole_toDigits 0
    exact writes_point hwhole (List.cons_ne_nil '0' []) (List.forall_mem_cons.mpr
      ⟨rfl, fun c hc => absurd hc List.not_mem_nil⟩) hnone negative
  · have hpos := Nat.pos_of_ne_zero hzero
    obtain ⟨again, hagain⟩ := exists_double?_shortest hfinite hpos negative
    refine ⟨(Binary.ofBits bits).shortest.numeral negative, Decimal.negative_numeral _ _, ?_, again,
      Numeral.value_of_double? (Decimal.fraction_numeral _ _) hagain⟩
    rw [encoded_of_ascii (Decimal.ascii_text _)]
    exact Decimal.writes_text (Binary.shortest_pos (bounded_ofBits hfinite hpos)) negative

/-- The text of a double is a number that is read as a double. -/
theorem exists_numeral_text {bits : UInt64} (hfinite : FiniteBits bits) :
    ∃ text numeral, Numeral.Writes text numeral ∧
      encoded (Double.text bits) = sign numeral.negative ++ text ∧
      ∃ again, numeral.value = .ok (.double again) := by
  obtain ⟨numeral, hnegative, hwrites, hagain⟩ :=
    exists_numeral_magnitude hfinite (isNegative bits)
  refine ⟨_, numeral, hwrites, ?_, hagain⟩
  rw [hnegative, Double.text]
  cases isNegative bits <;> rfl

end Double

end AttributeExchange.Json
