import AttributeExchange.Json.Basic
import AttributeExchange.Json.Reader
import AttributeExchange.Proofs.Json.Text

/-!
# Numbers

How a number is written, and the numeral that it is. The scanner takes exactly the number off the
front, whatever may follow a value. The decimal form of a natural number of 64 bits is read as that
number.
-/

namespace AttributeExchange.Json

/-- That what follows a value does not go on with it: the text is over, or the next byte is a blank,
a comma or a closer. -/
def Ends (s : Bytes) : Prop :=
  ∀ b ∈ s.head?, isBlank b = true ∨ b = ascii ',' ∨ b = ascii ']' ∨ b = ascii '\x7d'

namespace Numeral

/-! ## Written numbers -/

def IsDigits (s : Bytes) : Prop :=
  s ≠ [] ∧ ∀ b ∈ s, isDigit b = true

/-- That a text is the digits before the point: after a zero there is none. -/
def IsWhole (s : Bytes) : Prop :=
  IsDigits s ∧ (s.head? = some (ascii '0') → s.length = 1)

/-- The point and what is after it, and its digits. -/
inductive IsFraction : Bytes → List Nat → Prop where
  | none : IsFraction [] []
  | point {digits : Bytes} (h : IsDigits digits) :
      IsFraction (ascii '.' :: digits) (digits.map digitValue)

inductive IsExponent : Bytes → Option Int → Prop where
  | none : IsExponent [] none
  | plain {mark : UInt8} {digits : Bytes} (hmark : mark = ascii 'e' ∨ mark = ascii 'E')
      (h : IsDigits digits) : IsExponent (mark :: digits) (some (ofDigits (digits.map digitValue)))
  | plus {mark : UInt8} {digits : Bytes} (hmark : mark = ascii 'e' ∨ mark = ascii 'E')
      (h : IsDigits digits) :
      IsExponent (mark :: ascii '+' :: digits) (some (ofDigits (digits.map digitValue)))
  | minus {mark : UInt8} {digits : Bytes} (hmark : mark = ascii 'e' ∨ mark = ascii 'E')
      (h : IsDigits digits) :
      IsExponent (mark :: ascii '-' :: digits) (some (-(ofDigits (digits.map digitValue) : Int)))

/-- A number without its sign as it is written, and its numeral. -/
inductive Writes : Bytes → Numeral → Prop where
  | parts {negative : Bool} {whole fraction exponent : Bytes} {places : List Nat} {e : Option Int}
      (hwhole : IsWhole whole) (hfraction : IsFraction fraction places)
      (hexponent : IsExponent exponent e) :
      Writes (whole ++ (fraction ++ exponent)) ⟨negative, whole.map digitValue, places, e⟩

/-! ## Scanning -/

def NoDigit (s : Bytes) : Prop :=
  ∀ b ∈ s.head?, isDigit b = false

theorem ne_of_ends {s : Bytes} (h : Ends s) {b : UInt8} (hb : s.head? = some b) :
    isDigit b = false ∧ b ≠ ascii '.' ∧ b ≠ ascii 'e' ∧ b ≠ ascii 'E' := by
  have hblank : ∀ c, isBlank c = true →
      c = ascii ' ' ∨ c = ascii '\t' ∨ c = ascii '\n' ∨ c = ascii '\r' := by
    intro c hc
    simpa [isBlank, or_assoc] using hc
  rcases h b hb with hblanks | rfl | rfl | rfl
  · rcases hblank b hblanks with rfl | rfl | rfl | rfl <;> decide
  · decide
  · decide
  · decide

theorem noDigit_of_ends {s : Bytes} (h : Ends s) : NoDigit s :=
  fun _ hb => (ne_of_ends h hb).1

theorem IsExponent.noDigit {exponent : Bytes} {e : Option Int} (h : IsExponent exponent e)
    {s : Bytes} (hends : Ends s) : NoDigit (exponent ++ s) := by
  have hmarks : ∀ mark, mark = ascii 'e' ∨ mark = ascii 'E' → isDigit mark = false := by
    rintro mark (rfl | rfl) <;> decide
  intro b hb
  cases h with
  | none => exact noDigit_of_ends hends b hb
  | plain hmark | plus hmark | minus hmark => exact Option.some.inj hb ▸ hmarks _ hmark

theorem IsFraction.noDigit {fraction : Bytes} {places : List Nat} (h : IsFraction fraction places)
    {s : Bytes} (hs : NoDigit s) : NoDigit (fraction ++ s) := by
  intro b hb
  cases h with
  | none => exact hs b hb
  | point _ =>
      obtain rfl := Option.some.inj hb
      decide

theorem scanDigits_append {digits : Bytes} (h : ∀ b ∈ digits, isDigit b = true) {s : Bytes}
    (hs : NoDigit s) : scanDigits (digits ++ s) = (digits.map digitValue, s) := by
  have hstop : s.takeWhile isDigit = [] ∧ s.dropWhile isDigit = s := by
    cases s with
    | nil => exact ⟨rfl, rfl⟩
    | cons b s =>
        have hb := hs b rfl
        exact ⟨List.takeWhile_cons_of_neg (by simp [hb]),
          List.dropWhile_cons_of_neg (by simp [hb])⟩
  rw [scanDigits, List.takeWhile_append_of_pos h, List.dropWhile_append_of_pos h, hstop.1,
    hstop.2, List.append_nil]

theorem IsDigits.scanSomeDigits_append {digits : Bytes} (h : IsDigits digits) {s : Bytes}
    (hs : NoDigit s) (atEnd : ReadError) :
    scanSomeDigits atEnd (digits ++ s) = .ok (digits.map digitValue, s) := by
  rw [scanSomeDigits, scanDigits_append h.2 hs]
  cases digits with
  | nil => exact absurd rfl h.1
  | cons b digits => rfl

theorem digitValue_eq_zero {b : UInt8} (h : isDigit b = true) (hzero : digitValue b = 0) :
    b = ascii '0' := by
  simp only [isDigit, Bool.and_eq_true, decide_eq_true_eq, UInt8.le_iff_toNat_le] at h
  have hlow : (ascii '0').toNat = 48 := rfl
  apply UInt8.toNat_inj.mp
  rw [digitValue] at hzero
  omega

theorem IsWhole.scanWhole_append {whole : Bytes} (h : IsWhole whole) {s : Bytes}
    (hs : NoDigit s) (atEnd : ReadError) :
    scanWhole atEnd (whole ++ s) = .ok (whole.map digitValue, s) := by
  obtain ⟨hdigits, hzero⟩ := h
  rw [scanWhole, hdigits.scanSomeDigits_append hs]
  cases whole with
  | nil => exact absurd rfl hdigits.1
  | cons b whole =>
      cases whole with
      | nil => cases hvalue : digitValue b <;> simp [hvalue, bind, Except.bind]
      | cons c whole =>
          have hne : digitValue b ≠ 0 := by
            intro hvalue
            have hfirst := digitValue_eq_zero (hdigits.2 b List.mem_cons_self) hvalue
            exact absurd (hzero (by rw [hfirst]; rfl)) (by simp)
          obtain ⟨n, hn⟩ := Nat.exists_eq_add_one_of_ne_zero hne
          simp [hn, bind, Except.bind]

theorem IsFraction.scanFraction_append {fraction : Bytes} {places : List Nat}
    (h : IsFraction fraction places) {s : Bytes} (hdigit : NoDigit s)
    (hpoint : s.head? ≠ some (ascii '.')) (atEnd : ReadError) :
    scanFraction atEnd (fraction ++ s) = .ok (places, s) := by
  cases h with
  | none =>
      cases s with
      | nil => rfl
      | cons b s =>
          have hb : b ≠ ascii '.' := fun hb => hpoint (by rw [hb]; rfl)
          rw [List.nil_append, scanFraction, if_neg hb]
  | point hdigits =>
      rw [List.cons_append, scanFraction, if_pos rfl, hdigits.scanSomeDigits_append hdigit]

theorem scanExponent_mark {mark : UInt8} (hmark : mark = ascii 'e' ∨ mark = ascii 'E') (s : Bytes)
    (atEnd : ReadError) :
    scanExponent atEnd (mark :: s) =
      (scanSigned atEnd s).map fun found => (some found.1, found.2) := by
  have hcond : (decide (mark = ascii 'e') || decide (mark = ascii 'E')) = true := by
    simpa using hmark
  rw [scanExponent, if_pos hcond]

theorem IsExponent.scanExponent_append {exponent : Bytes} {e : Option Int}
    (h : IsExponent exponent e) {s : Bytes} (hends : Ends s) (atEnd : ReadError) :
    scanExponent atEnd (exponent ++ s) = .ok (e, s) := by
  have hs := noDigit_of_ends hends
  cases h with
  | none =>
      cases s with
      | nil => rfl
      | cons b s =>
          obtain ⟨-, -, hlower, hupper⟩ := ne_of_ends hends rfl
          rw [List.nil_append, scanExponent, if_neg (by simp [hlower, hupper])]
  | @plain mark digits hmark hdigits =>
      rw [List.cons_append, scanExponent_mark hmark]
      cases digits with
      | nil => exact absurd rfl hdigits.1
      | cons b digits =>
          have hb := hdigits.2 b List.mem_cons_self
          have hminus : b ≠ ascii '-' := by
            rintro rfl
            exact absurd hb (by decide)
          have hplus : b ≠ ascii '+' := by
            rintro rfl
            exact absurd hb (by decide)
          rw [List.cons_append, scanSigned, if_neg hminus, if_neg hplus, ← List.cons_append,
            hdigits.scanSomeDigits_append hs]
          rfl
  | plus hmark hdigits =>
      rw [List.cons_append, List.cons_append, scanExponent_mark hmark, scanSigned,
        if_neg (by decide), if_pos rfl, hdigits.scanSomeDigits_append hs]
      rfl
  | minus hmark hdigits =>
      rw [List.cons_append, List.cons_append, scanExponent_mark hmark, scanSigned, if_pos rfl,
        hdigits.scanSomeDigits_append hs]
      rfl

theorem IsExponent.head?_ne_point {exponent : Bytes} {e : Option Int} (h : IsExponent exponent e)
    {s : Bytes} (hends : Ends s) : (exponent ++ s).head? ≠ some (ascii '.') := by
  have hmarks : ∀ mark, mark = ascii 'e' ∨ mark = ascii 'E' → mark ≠ ascii '.' := by
    rintro mark (rfl | rfl) <;> decide
  intro hhead
  cases h with
  | none => exact (ne_of_ends hends hhead).2.1 rfl
  | plain hmark | plus hmark | minus hmark => exact hmarks _ hmark (Option.some.inj hhead)

/-- The scanner takes a written number off the front, and nothing more. -/
theorem Writes.scan_append {text : Bytes} {numeral : Numeral} (h : Writes text numeral)
    {s : Bytes} (hends : Ends s) (atEnd : ReadError) :
    scan atEnd numeral.negative (text ++ s) = .ok (numeral, s) := by
  cases h with
  | parts hwhole hfraction hexponent =>
      have hrest := hexponent.noDigit hends
      rw [List.append_assoc, List.append_assoc, scan,
        hwhole.scanWhole_append (hfraction.noDigit hrest)]
      simp only [bind, Except.bind]
      rw [hfraction.scanFraction_append hrest (hexponent.head?_ne_point hends)]
      simp only
      rw [hexponent.scanExponent_append hends]
      rfl

theorem Writes.exists_cons {text : Bytes} {numeral : Numeral} (h : Writes text numeral) :
    ∃ b rest, text = b :: rest ∧ isDigit b = true := by
  cases h with
  | @parts _ whole _ _ _ _ hwhole _ _ =>
      cases whole with
      | nil => exact absurd rfl hwhole.1.1
      | cons b whole => exact ⟨b, _, rfl, hwhole.1.2 b List.mem_cons_self⟩

/-! ## Natural numbers -/

theorem isDigit_ascii {c : Char} (h : c.isDigit = true) :
    isDigit (ascii c) = true ∧ digitValue (ascii c) = c.toNat - 48 := by
  rw [Char.isDigit_iff_toNat] at h
  have hzero : '0'.toNat = 48 := rfl
  have hnine : '9'.toNat = 57 := rfl
  have hbyte : (ascii c).toNat = c.toNat := by
    change c.toNat % 256 = c.toNat
    omega
  refine ⟨?_, by rw [digitValue, hbyte]⟩
  simp only [isDigit, Bool.and_eq_true, decide_eq_true_eq, UInt8.le_iff_toNat_le, hbyte]
  exact h

theorem toNat_lt_of_isDigit {c : Char} (h : c.isDigit = true) : c.toNat < 128 := by
  rw [Char.isDigit_iff_toNat] at h
  have hnine : '9'.toNat = 57 := rfl
  omega

theorem ofDigits_map_ascii {digits : List Char} (h : ∀ c ∈ digits, c.isDigit = true) :
    ofDigits ((digits.map ascii).map digitValue) = Nat.ofDigitChars 10 digits 0 := by
  have hfold : ∀ n, ((digits.map ascii).map digitValue).foldl (fun n d => 10 * n + d) n =
      Nat.ofDigitChars 10 digits n := by
    induction digits with
    | nil => exact fun n => rfl
    | cons c digits ih =>
        intro n
        simp only [List.map_cons, List.foldl_cons, Nat.ofDigitChars_cons,
          (isDigit_ascii (h c List.mem_cons_self)).2]
        exact ih (fun d hd => h d (List.mem_cons_of_mem c hd)) _
  exact hfold 0

theorem isDigits_map_ascii {digits : List Char} (hne : digits ≠ [])
    (h : ∀ c ∈ digits, c.isDigit = true) : IsDigits (digits.map ascii) := by
  refine ⟨by simpa using hne, fun b hb => ?_⟩
  obtain ⟨c, hc, rfl⟩ := List.mem_map.mp hb
  exact (isDigit_ascii (h c hc)).1

theorem isDigit_of_mem_toDigits {n : Nat} {c : Char} (h : c ∈ Nat.toDigits 10 n) :
    c.isDigit = true :=
  Nat.isDigit_of_mem_toDigits (by decide) (by decide) h

theorem head?_toDigits {n : Nat} (h : (Nat.toDigits 10 n).head? = some '0') : n = 0 := by
  induction n using Nat.strongRecOn with
  | ind n ih =>
      by_cases hn : n < 10
      · rw [Nat.toDigits_of_lt_base hn] at h
        exact Nat.digitChar_eq_zero.mp (Option.some.inj h)
      · obtain ⟨first, rest, hfront⟩ :=
          List.exists_cons_of_ne_nil (@Nat.toDigits_ne_nil (n / 10) 10)
        rw [Nat.toDigits_of_base_le (by decide) (Nat.not_lt.mp hn), hfront] at h
        have hzero := ih (n / 10) (by omega) (by rw [hfront]; exact h)
        omega

theorem head?_eq_zero {digits : List Char} (h : ∀ c ∈ digits, c.isDigit = true)
    (hhead : (digits.map ascii).head? = some (ascii '0')) : digits.head? = some '0' := by
  rw [List.head?_map, Option.map_eq_some_iff] at hhead
  obtain ⟨c, hc, hzero⟩ := hhead
  have hbyte : (ascii c).toNat = c.toNat := by
    change c.toNat % 256 = c.toNat
    exact Nat.mod_eq_of_lt
      (Nat.lt_trans (toNat_lt_of_isDigit (h c (List.mem_of_mem_head? hc))) (by decide))
  have hchar : c = '0' := by
    apply Char.toNat_inj.mp
    rw [← hbyte, hzero]
    rfl
  rw [hc, hchar]

theorem isWhole_toDigits (n : Nat) : IsWhole ((Nat.toDigits 10 n).map ascii) := by
  refine ⟨isDigits_map_ascii Nat.toDigits_ne_nil fun c => isDigit_of_mem_toDigits, fun hhead => ?_⟩
  have hn : n = 0 := head?_toDigits (head?_eq_zero (fun c => isDigit_of_mem_toDigits) hhead)
  rw [hn]
  rfl

def decimal (negative : Bool) (n : Nat) : Numeral :=
  ⟨negative, ((Nat.toDigits 10 n).map ascii).map digitValue, [], none⟩

@[simp] theorem negative_decimal (negative : Bool) (n : Nat) :
    (decimal negative n).negative = negative := rfl

@[simp] theorem fraction_decimal (negative : Bool) (n : Nat) :
    (decimal negative n).fraction = [] := rfl

@[simp] theorem exponent_decimal (negative : Bool) (n : Nat) :
    (decimal negative n).exponent = none := rfl

theorem writes_toDigits (negative : Bool) (n : Nat) :
    Writes ((Nat.toDigits 10 n).map ascii) (decimal negative n) := by
  have hparts : Writes ((Nat.toDigits 10 n).map ascii ++ ([] ++ [])) (decimal negative n) :=
    .parts (isWhole_toDigits n) .none .none
  rwa [List.append_nil, List.append_nil] at hparts

theorem ofDigits_decimal (negative : Bool) (n : Nat) : ofDigits (decimal negative n).whole = n := by
  rw [decimal, ofDigits_map_ascii fun c => isDigit_of_mem_toDigits, Nat.ofDigitChars_ten_toDigits]

theorem value_decimal_of_lt {n : Nat} (h : n < UInt64.size) :
    (decimal false n).value = .ok (.integer n) := by
  have hdigits := ofDigits_decimal false n
  have hinteger : (decimal false n).integer? = some (n : Int) := by
    simp [integer?, hdigits, h]
  rw [value, hinteger]

theorem value_decimal_of_negative {n : Nat} (hpos : 0 < n) (h : n ≤ Int64.size / 2) :
    (decimal true n).value = .ok (.integer (-n)) := by
  have hdigits := ofDigits_decimal true n
  have hinteger : (decimal true n).integer? = some (-n : Int) := by
    simp [integer?, hdigits, hpos, h]
  rw [value, hinteger]

end Numeral

theorem scanNumber_append {text : Bytes} {numeral : Numeral} (h : Numeral.Writes text numeral)
    {s : Bytes} (hends : Ends s) :
    scanNumber numeral.negative (text ++ s) =
      numeral.value.map fun document => (document, s) := by
  rw [scanNumber, h.scan_append hends]
  cases hvalue : numeral.value <;> simp [hvalue, bind, Except.bind, pure, Except.pure, Except.map]

end AttributeExchange.Json
