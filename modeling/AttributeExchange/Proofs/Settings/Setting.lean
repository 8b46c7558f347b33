import AttributeExchange.Proofs.Json.Value
import AttributeExchange.Settings.Reader
import Mathlib.Data.List.Perm.Basic
import Mathlib.Data.List.Nodup

/-!
# Single settings

A field with a value of its type, what it makes of settings, and how its value is written. The
reader of the field takes exactly that value off the front. Settings of different fields may be made
in any order.
-/

namespace AttributeExchange.Settings

open AttributeExchange.Json (Blank Ends IsValue skipBlanks skipBlanks_cons scanLetters
  scanLetters_append scanNumber scanNumber_append)

/-! ## Values of fields -/

abbrev Field.Value : Field → Type
  | .maxWaiting | .timeout | .maxLength | .maxKeys => Option UInt64
  | .verbose | .trailingComma => Bool

/-- A field with a value of its type. The timeout is in milliseconds. -/
structure Setting where
  field : Field
  value : field.Value

def numberText : Option UInt64 → Bytes
  | none => ['n', 'u', 'l', 'l'].map ascii
  | some n => (Nat.toDigits 10 n.toNat).map ascii

def flagText : Bool → Bytes
  | true => ['t', 'r', 'u', 'e'].map ascii
  | false => ['f', 'a', 'l', 's', 'e'].map ascii

namespace Setting

def text : Setting → Bytes
  | ⟨.maxWaiting, bound⟩ | ⟨.timeout, bound⟩ | ⟨.maxLength, bound⟩ | ⟨.maxKeys, bound⟩ =>
    numberText bound
  | ⟨.verbose, flag⟩ | ⟨.trailingComma, flag⟩ => flagText flag

def onto : Setting → Settings → Settings
  | ⟨.maxWaiting, bound⟩, settings => { settings with maxWaiting := bound }
  | ⟨.timeout, millis⟩, settings =>
    { settings with timeout := millis.map fun n => Duration.ofMillis n.toNat }
  | ⟨.verbose, flag⟩, settings => { settings with verbose := flag }
  | ⟨.maxLength, bound⟩, settings => { settings with maxLength := bound }
  | ⟨.maxKeys, bound⟩, settings => { settings with maxKeys := bound }
  | ⟨.trailingComma, flag⟩, settings => { settings with trailingComma := flag }

def overlaid (given : List Setting) : Settings :=
  given.foldl (fun settings setting => setting.onto settings) default

def set : Setting → Overlay → Overlay
  | ⟨.maxWaiting, bound⟩, overlay => { overlay with maxWaiting := some bound }
  | ⟨.timeout, millis⟩, overlay => { overlay with timeout := some millis }
  | ⟨.verbose, flag⟩, overlay => { overlay with verbose := some flag }
  | ⟨.maxLength, bound⟩, overlay => { overlay with maxLength := some bound }
  | ⟨.maxKeys, bound⟩, overlay => { overlay with maxKeys := some bound }
  | ⟨.trailingComma, flag⟩, overlay => { overlay with trailingComma := some flag }

def setAll (given : List Setting) (overlay : Overlay) : Overlay :=
  given.foldl (fun overlay setting => setting.set overlay) overlay

theorem has_set (setting : Setting) (overlay : Overlay) (field : Field) :
    (setting.set overlay).has field = (decide (setting.field = field) || overlay.has field) := by
  obtain ⟨own, value⟩ := setting
  cases own <;> cases field <;> rfl

theorem onto_set (setting : Setting) (overlay : Overlay) (settings : Settings) :
    (setting.set overlay).onto settings = setting.onto (overlay.onto settings) := by
  obtain ⟨field, value⟩ := setting
  cases field <;> rfl

/-- What is added one after the other comes to the same as the settings made one after the other. -/
theorem onto_setAll (given : List Setting) (overlay : Overlay) (settings : Settings) :
    (setAll given overlay).onto settings =
      given.foldl (fun settings setting => setting.onto settings) (overlay.onto settings) := by
  induction given generalizing overlay with
  | nil => rfl
  | cons setting given ih => rw [setAll, List.foldl_cons, ← setAll, ih, onto_set, List.foldl_cons]

theorem onto_setAll_empty (given : List Setting) :
    (setAll given .empty).onto default = overlaid given :=
  onto_setAll given .empty default

theorem foldl_onto_of_absent {α : Type} (view : Settings → α) {field : Field}
    (hview : ∀ (setting : Setting) settings, setting.field ≠ field →
      view (setting.onto settings) = view settings) {given : List Setting}
    (habsent : field ∉ given.map Setting.field) (settings : Settings) :
    view (given.foldl (fun settings setting => setting.onto settings) settings) =
      view settings := by
  induction given generalizing settings with
  | nil => rfl
  | cons setting given ih =>
      rw [List.map_cons, List.mem_cons, not_or] at habsent
      rw [List.foldl_cons, ih habsent.2, hview setting settings (Ne.symm habsent.1)]

theorem timeout_overlaid_of_absent {given : List Setting}
    (habsent : .timeout ∉ given.map Setting.field) :
    (overlaid given).timeout = some (.ofSeconds 5) := by
  refine foldl_onto_of_absent Settings.timeout (fun setting settings hfield => ?_) habsent
    default
  obtain ⟨field, value⟩ := setting
  cases field <;> first | rfl | exact absurd rfl hfield

theorem trailingComma_overlaid_of_absent {given : List Setting}
    (habsent : .trailingComma ∉ given.map Setting.field) :
    (overlaid given).trailingComma = true := by
  refine foldl_onto_of_absent Settings.trailingComma (fun setting settings hfield => ?_)
    habsent default
  obtain ⟨field, value⟩ := setting
  cases field <;> first | rfl | exact absurd rfl hfield

theorem onto_comm {a b : Setting} (h : a.field ≠ b.field) (settings : Settings) :
    a.onto (b.onto settings) = b.onto (a.onto settings) := by
  obtain ⟨field, value⟩ := a
  obtain ⟨other, value⟩ := b
  cases field <;> cases other <;> first | rfl | exact absurd rfl h

/-- The order of settings does not matter if no field is among them twice. -/
theorem overlaid_perm {given others : List Setting} (hperm : given.Perm others)
    (hdistinct : (given.map field).Nodup) : overlaid given = overlaid others := by
  apply hperm.foldl_eq'
  intro a ha b hb settings
  by_cases hfield : a.field = b.field
  · rw [List.inj_on_of_nodup_map hdistinct ha hb hfield]
  · exact onto_comm (Ne.symm hfield) settings

end Setting

/-! ## Reading values -/

theorem scanOptional_blanks (wanted : Wanted) {blanks : Bytes} (h : Blank blanks) (s : Bytes) :
    scanOptional wanted (blanks ++ s) = scanOptional wanted s := by
  rw [scanOptional, scanOptional, h.skipBlanks_append]

theorem scanFlag_blanks {blanks : Bytes} (h : Blank blanks) (s : Bytes) :
    scanFlag (blanks ++ s) = scanFlag s := by
  rw [scanFlag, scanFlag, h.skipBlanks_append]

theorem scanField_blanks (overlay : Overlay) (field : Field) {blanks : Bytes} (h : Blank blanks)
    (s : Bytes) : scanField overlay (blanks ++ s) field = scanField overlay s field := by
  cases field <;> simp only [scanField, scanOptional_blanks _ h, scanFlag_blanks h]

theorem scanOptional_null (wanted : Wanted) (s : Bytes) :
    scanOptional wanted (['n', 'u', 'l', 'l'].map ascii ++ s) = .ok (none, s) := by
  change lift ((scanLetters ['u', 'l', 'l'] (['u', 'l', 'l'].map ascii ++ s)).map _) = _
  rw [scanLetters_append]
  rfl

theorem scanOptional_number (wanted : Wanted) {text : Bytes} {numeral : Json.Numeral}
    (h : Json.Numeral.Writes text numeral) {s : Bytes} (hends : Ends s) :
    scanOptional wanted (Json.sign numeral.negative ++ (text ++ s)) =
      (lift numeral.value >>= natural wanted).map fun n => (some n, s) := by
  have hnumber := scanNumber_append h hends
  have hlift : ∀ value : Except Json.ReadError Json,
      (lift (value.map fun document => (document, s)) >>= fun found =>
        natural wanted found.1 >>= fun n => pure (n, found.2)) =
        (lift value >>= natural wanted).map fun n => (n, s) := by
    rintro (cause | document)
    · rfl
    · cases hn : natural wanted document <;>
        simp [lift, hn, bind, Except.bind, Except.map, Except.mapError, pure, Except.pure]
  obtain ⟨b, rest, rfl, hb⟩ := h.exists_cons
  cases hsign : numeral.negative with
  | true =>
      rw [hsign] at hnumber
      change scanOptional wanted (ascii '-' :: (b :: rest ++ s)) = _
      rw [scanOptional, skipBlanks_cons (by decide)]
      simp only
      rw [if_neg (by decide), scanNatural, skipBlanks_cons (by decide)]
      simp only
      rw [if_pos trivial, hnumber, hlift]
      cases lift numeral.value >>= natural wanted <;> rfl
  | false =>
      rw [hsign] at hnumber
      have hblank : Json.isBlank b = false := (Json.isDigit_start hb).1
      change scanOptional wanted (b :: (rest ++ s)) = _
      rw [scanOptional, skipBlanks_cons hblank]
      simp only
      rw [if_neg (Json.ne_of_isDigit hb (by decide)), scanNatural, skipBlanks_cons hblank]
      simp only
      rw [if_neg (Json.ne_of_isDigit hb (by decide)), if_pos hb, ← List.cons_append, hnumber, hlift]
      cases lift numeral.value >>= natural wanted <;> rfl

theorem scanOptional_numberText (wanted : Wanted) (n : Option UInt64) {s : Bytes} (hends : Ends s) :
    scanOptional wanted (numberText n ++ s) = .ok (n, s) := by
  cases n with
  | none => exact scanOptional_null wanted s
  | some n =>
      have hwrites := Json.Numeral.writes_toDigits false n.toNat
      have hnumber := scanOptional_number wanted hwrites hends
      have hvalue := Json.Numeral.value_decimal_of_lt n.toNat_lt
      rw [hvalue] at hnumber
      change scanOptional wanted ((Nat.toDigits 10 n.toNat).map ascii ++ s) = _ at hnumber
      have hnatural : natural wanted (.integer n.toNat) = .ok n := by
        have hnonneg : ¬ (n.toNat : Int) < 0 := by omega
        rw [natural, if_neg hnonneg, Int.toNat_natCast]
        exact congrArg Except.ok UInt64.ofNat_toNat
      rw [numberText, hnumber]
      simp [lift, Except.mapError, bind, Except.bind, hnatural, Except.map]

theorem scanFlag_flagText (flag : Bool) (s : Bytes) :
    scanFlag (flagText flag ++ s) = .ok (flag, s) := by
  cases flag with
  | true =>
      change lift ((scanLetters ['r', 'u', 'e'] (['r', 'u', 'e'].map ascii ++ s)).map _) = _
      rw [scanLetters_append]
      rfl
  | false =>
      change lift
        ((scanLetters ['a', 'l', 's', 'e'] (['a', 'l', 's', 'e'].map ascii ++ s)).map _) = _
      rw [scanLetters_append]
      rfl

theorem scanField_text (setting : Setting) (overlay : Overlay) {s : Bytes} (hends : Ends s) :
    scanField overlay (setting.text ++ s) setting.field = .ok (setting.set overlay, s) := by
  obtain ⟨field, value⟩ := setting
  cases field with
  | maxWaiting | timeout | maxLength | maxKeys =>
      rw [scanField, Setting.text, scanOptional_numberText _ _ hends]
      rfl
  | verbose | trailingComma =>
      rw [scanField, Setting.text, scanFlag_flagText]
      rfl

theorem Setting.isValue_text (setting : Setting) : IsValue setting.text := by
  have hnumber : ∀ bound, IsValue (numberText bound) := by
    rintro (_ | n)
    · exact .null
    · exact .number (Json.Numeral.writes_toDigits false n.toNat)
  have hflag : ∀ flag, IsValue (flagText flag) := by
    rintro (_ | _)
    · exact .no
    · exact .yes
  obtain ⟨field, value⟩ := setting
  cases field with
  | maxWaiting | timeout | maxLength | maxKeys => exact hnumber value
  | verbose | trailingComma => exact hflag value

/-! ## Reading any value -/

theorem scanOptional_rest {wanted : Wanted} {text : Bytes} (h : IsValue text) {s rest : Bytes}
    (hends : Ends s) {n : Option UInt64} (hscan : scanOptional wanted (text ++ s) = .ok (n, rest)) :
    rest = s := by
  cases h with
  | null =>
      rw [scanOptional_null] at hscan
      cases hscan
      rfl
  | @number text numeral hwrites =>
      rw [List.append_assoc, scanOptional_number wanted hwrites hends] at hscan
      cases hvalue : lift numeral.value >>= natural wanted with
      | error cause => simp [hvalue, Except.map] at hscan
      | ok value =>
          rw [hvalue] at hscan
          cases hscan
          rfl
  | yes | no | string | emptyList | list | emptyObject | object => cases hscan

theorem scanFlag_rest {text : Bytes} (h : IsValue text) {s rest : Bytes} {flag : Bool}
    (hscan : scanFlag (text ++ s) = .ok (flag, rest)) : rest = s := by
  have hflag : ∀ own, scanFlag (flagText own ++ s) = .ok (flag, rest) → rest = s := by
    intro own hown
    rw [scanFlag_flagText] at hown
    cases hown
    rfl
  cases h with
  | yes => exact hflag true hscan
  | no => exact hflag false hscan
  | @number text numeral hwrites =>
      obtain ⟨b, more, rfl, hb⟩ := hwrites.exists_cons
      cases hsign : numeral.negative with
      | true =>
          rw [hsign] at hscan
          cases hscan
      | false =>
          rw [hsign] at hscan
          change scanFlag (b :: (more ++ s)) = .ok (flag, rest) at hscan
          rw [scanFlag, skipBlanks_cons (Json.isDigit_start hb).1] at hscan
          simp only at hscan
          rw [if_neg (Json.ne_of_isDigit hb (by decide)),
            if_neg (Json.ne_of_isDigit hb (by decide))] at hscan
          cases hscan
  | null | string | emptyList | list | emptyObject | object => cases hscan

/-- Whatever value a field is given, it is refused or taken off the front, and then the field has
been set beside those before. -/
theorem scanField_rest {overlay later : Overlay} {text : Bytes} (h : IsValue text) {s rest : Bytes}
    (hends : Ends s) {field : Field}
    (hscan : scanField overlay (text ++ s) field = .ok (later, rest)) :
    rest = s ∧ ∀ other, other = field ∨ overlay.has other = true → later.has other = true := by
  cases field with
  | maxWaiting | timeout | maxLength | maxKeys =>
      rw [scanField] at hscan
      obtain ⟨⟨n, left⟩, hn, heq⟩ := exists_of_map_eq_ok hscan
      cases heq
      refine ⟨scanOptional_rest h hends hn, ?_⟩
      rintro (_ | _) (hother | hother) <;> first | rfl | exact hother | cases hother
  | verbose | trailingComma =>
      rw [scanField] at hscan
      obtain ⟨⟨flag, left⟩, hflag, heq⟩ := exists_of_map_eq_ok hscan
      cases heq
      refine ⟨scanFlag_rest h hflag, ?_⟩
      rintro (_ | _) (hother | hother) <;> first | rfl | exact hother | cases hother

end AttributeExchange.Settings
