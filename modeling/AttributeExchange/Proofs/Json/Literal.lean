import AttributeExchange.Json.Basic
import AttributeExchange.Json.Scan
import AttributeExchange.Proofs.Json.Text
import AttributeExchange.Proofs.Basic
import Mathlib.Tactic.SplitIfs

/-!
# String literals

What may stand between the quotes of a string, and which characters it spells. The scanner reads a
literal as the characters that it spells, and passes over any literal of the right form, whether or
not its escapes are paired. The literal that is written for a text spells that text.
-/

namespace AttributeExchange.Json.StringLiteral

/-! ## What a literal spells -/

def IsHexDigit (b : UInt8) (value : Nat) : Prop :=
  value < 16 ∧ (b = ascii value.digitChar ∨ b = ascii value.digitChar.toUpper)

inductive IsUnit : Bytes → Nat → Prop where
  | digits {a b c d : UInt8} {va vb vc vd : Nat} (ha : IsHexDigit a va) (hb : IsHexDigit b vb)
      (hc : IsHexDigit c vc) (hd : IsHexDigit d vd) :
      IsUnit [a, b, c, d] (((va * 16 + vb) * 16 + vc) * 16 + vd)

/-- The characters that have a short escape, after the letter that stands for them. -/
def shortEscapes : List (Char × Char) :=
  [('\x22', '\x22'), ('\\', '\\'), ('/', '/'), ('b', '\x08'), ('f', '\x0c'), ('n', '\n'),
    ('r', '\r'), ('t', '\t')]

def IsPlain (c : Char) : Prop :=
  c ≠ '\x22' ∧ c ≠ '\\' ∧ 0x20 ≤ c.toNat

instance : DecidablePred IsPlain :=
  fun c => inferInstanceAs (Decidable (c ≠ '\x22' ∧ c ≠ '\\' ∧ 0x20 ≤ c.toNat))

/-- What is between the quotes of a literal, and the characters that it spells. -/
inductive Spells : Bytes → List Char → Prop where
  | nil : Spells [] []
  | plain {c : Char} {content : Bytes} {chars : List Char} (hplain : IsPlain c)
      (h : Spells content chars) : Spells (String.utf8EncodeChar c ++ content) (c :: chars)
  | short {letter c : Char} {content : Bytes} {chars : List Char}
      (hshort : (letter, c) ∈ shortEscapes) (h : Spells content chars) :
      Spells (ascii '\\' :: ascii letter :: content) (c :: chars)
  | unit {c : Char} {digits content : Bytes} {chars : List Char} (hunit : IsUnit digits c.toNat)
      (h : Spells content chars) :
      Spells (ascii '\\' :: ascii 'u' :: (digits ++ content)) (c :: chars)
  | pair {c : Char} {leading trailing content : Bytes} {chars : List Char}
      (hwide : 0x10000 ≤ c.toNat)
      (hleading : IsUnit leading (0xD800 + (c.toNat - 0x10000) / 0x400))
      (htrailing : IsUnit trailing (0xDC00 + (c.toNat - 0x10000) % 0x400))
      (h : Spells content chars) :
      Spells (ascii '\\' :: ascii 'u' ::
        (leading ++ ascii '\\' :: ascii 'u' :: (trailing ++ content))) (c :: chars)

theorem spells_of_plain {chars : List Char} (h : ∀ c ∈ chars, IsPlain c) :
    Spells (encoded chars) chars := by
  induction chars with
  | nil => exact .nil
  | cons c chars ih =>
      exact .plain (h c List.mem_cons_self) (ih fun d hd => h d (List.mem_cons_of_mem c hd))

def IsPlainByte (b : UInt8) : Prop :=
  b ≠ ascii '\x22' ∧ b ≠ ascii '\\' ∧ ¬ b < 0x20

/-- What may be between the quotes of a literal by its form alone. -/
inductive IsContent : Bytes → Prop where
  | nil : IsContent []
  | plain {b : UInt8} {content : Bytes} (hplain : IsPlainByte b) (h : IsContent content) :
      IsContent (b :: content)
  | short {letter c : Char} {content : Bytes} (hshort : (letter, c) ∈ shortEscapes)
      (h : IsContent content) : IsContent (ascii '\\' :: ascii letter :: content)
  | unit {digits content : Bytes} {unit : Nat} (hunit : IsUnit digits unit)
      (h : IsContent content) : IsContent (ascii '\\' :: ascii 'u' :: (digits ++ content))

/-! ## Escapes -/

theorem IsHexDigit.hexDigit?_eq {b : UInt8} {value : Nat} (h : IsHexDigit b value) :
    hexDigit? b = some value := by
  have hall : ∀ v < 16, hexDigit? (ascii v.digitChar) = some v ∧
      hexDigit? (ascii v.digitChar.toUpper) = some v := by decide
  obtain ⟨hvalue, rfl | rfl⟩ := h
  · exact (hall value hvalue).1
  · exact (hall value hvalue).2

theorem IsUnit.scanUnit_append {digits : Bytes} {unit : Nat} (h : IsUnit digits unit) (s : Bytes) :
    scanUnit (digits ++ s) = .ok (unit, s) := by
  cases h with
  | digits ha hb hc hd =>
      simp [scanUnit, ha.hexDigit?_eq, hb.hexDigit?_eq, hc.hexDigit?_eq, hd.hexDigit?_eq]

theorem escaped?_of_mem {letter c : Char} (h : (letter, c) ∈ shortEscapes) :
    escaped? (ascii letter) = some (ascii c) ∧ c.toNat < 128 := by
  have hall : ∀ entry ∈ shortEscapes,
      escaped? (ascii entry.1) = some (ascii entry.2) ∧ entry.2.toNat < 128 := by decide
  exact hall (letter, c) h

theorem IsPlain.isPlainByte {c : Char} (h : IsPlain c) {b : UInt8}
    (hb : b ∈ String.utf8EncodeChar c) : IsPlainByte b := by
  obtain ⟨hquote, hbackslash, hcontrol⟩ := h
  by_cases hascii : c.toNat < 128
  · rw [utf8EncodeChar_of_lt hascii, List.mem_singleton] at hb
    subst hb
    have hbyte : (ascii c).toNat = c.toNat := by
      change c.toNat % 256 = c.toNat
      omega
    refine ⟨?_, ?_, ?_⟩
    · intro heq
      apply hquote
      apply Char.toNat_inj.mp
      rw [← hbyte, heq]
      rfl
    · intro heq
      apply hbackslash
      apply Char.toNat_inj.mp
      rw [← hbyte, heq]
      rfl
    · rw [UInt8.lt_iff_toNat_lt, hbyte]
      exact Nat.not_lt.mpr hcontrol
  · have hhigh := le_of_mem_utf8EncodeChar (Nat.not_lt.mp hascii) hb
    rw [UInt8.le_iff_toNat_le] at hhigh
    refine ⟨?_, ?_, ?_⟩
    · rintro rfl
      exact absurd hhigh (by decide)
    · rintro rfl
      exact absurd hhigh (by decide)
    · rw [UInt8.lt_iff_toNat_lt]
      have hlimit : (0x20 : UInt8).toNat < (128 : UInt8).toNat := by decide
      omega

theorem isContent_append {bytes content : Bytes} (hplain : ∀ b ∈ bytes, IsPlainByte b)
    (h : IsContent content) : IsContent (bytes ++ content) := by
  induction bytes with
  | nil => exact h
  | cons b bytes ih =>
      exact .plain (hplain b List.mem_cons_self)
        (ih fun other hother => hplain other (List.mem_cons_of_mem b hother))

theorem Spells.isContent {content : Bytes} {chars : List Char} (h : Spells content chars) :
    IsContent content := by
  induction h with
  | nil => exact .nil
  | plain hplain _ ih => exact isContent_append (fun _ hb => hplain.isPlainByte hb) ih
  | short hshort _ ih => exact .short hshort ih
  | unit hunit _ ih => exact .unit hunit ih
  | pair _ hleading htrailing _ ih => exact .unit hleading (.unit htrailing ih)

/-! ## Scanning -/

theorem scanContent_append {bytes : Bytes} (hplain : ∀ b ∈ bytes, IsPlainByte b) (turns : Nat)
    (s : Bytes) :
    scanContent (bytes.length + turns) (bytes ++ s) =
      (scanContent turns s).map fun found => (bytes ++ found.1, found.2) := by
  induction bytes with
  | nil =>
      rw [List.length_nil, Nat.zero_add, List.nil_append]
      cases scanContent turns s <;> rfl
  | cons b bytes ih =>
      obtain ⟨hquote, hbackslash, hcontrol⟩ := hplain b List.mem_cons_self
      have hrest := ih fun other hother => hplain other (List.mem_cons_of_mem b hother)
      rw [List.length_cons, Nat.add_right_comm, List.cons_append, scanContent, if_neg hquote,
        if_neg hbackslash, if_neg hcontrol, hrest]
      cases scanContent turns s <;> rfl

theorem scanCodePoint_unit {c : Char} {digits : Bytes} (h : IsUnit digits c.toNat) (s : Bytes) :
    scanCodePoint (digits ++ s) = .ok (String.utf8EncodeChar c, s) := by
  have hvalid : c.toNat < 0xD800 ∨ 0xDFFF < c.toNat ∧ c.toNat < 0x110000 := c.valid
  have htrailing : isTrailing c.toNat = false := by
    simp only [isTrailing, Bool.and_eq_false_imp, decide_eq_true_eq, decide_eq_false_iff_not]
    omega
  have hleading : isLeading c.toNat = false := by
    simp only [isLeading, Bool.and_eq_false_imp, decide_eq_true_eq, decide_eq_false_iff_not]
    omega
  simp [scanCodePoint, h.scanUnit_append, htrailing, hleading, encode, bind, Except.bind]

theorem scanCodePoint_pair {c : Char} {leading trailing : Bytes} (hwide : 0x10000 ≤ c.toNat)
    (hleading : IsUnit leading (0xD800 + (c.toNat - 0x10000) / 0x400))
    (htrailing : IsUnit trailing (0xDC00 + (c.toNat - 0x10000) % 0x400)) (s : Bytes) :
    scanCodePoint (leading ++ ascii '\\' :: ascii 'u' :: (trailing ++ s)) =
      .ok (String.utf8EncodeChar c, s) := by
  have hvalid : c.toNat < 0xD800 ∨ 0xDFFF < c.toNat ∧ c.toNat < 0x110000 := c.valid
  obtain ⟨n, hn⟩ : ∃ n, c.toNat = 0x10000 + n := ⟨c.toNat - 0x10000, by omega⟩
  have hsub : c.toNat - 0x10000 = n := by omega
  rw [hsub] at hleading htrailing
  have hfirst : isTrailing (0xD800 + n / 0x400) = false := by
    simp only [isTrailing, Bool.and_eq_false_imp, decide_eq_true_eq, decide_eq_false_iff_not]
    omega
  have hsecond : isLeading (0xD800 + n / 0x400) = true := by
    simp only [isLeading, Bool.and_eq_true, decide_eq_true_eq]
    omega
  have hthird : isTrailing (0xDC00 + n % 0x400) = true := by
    simp only [isTrailing, Bool.and_eq_true, decide_eq_true_eq]
    omega
  have hvalue : 0x10000 + (0xD800 + n / 0x400 - 0xD800) * 0x400 + (0xDC00 + n % 0x400 - 0xDC00) =
      c.toNat := by
    omega
  have hencode : encode (0x10000 + (0xD800 + n / 0x400 - 0xD800) * 0x400 +
      (0xDC00 + n % 0x400 - 0xDC00)) = String.utf8EncodeChar c := by
    rw [hvalue, encode, Char.ofNat_toNat]
  simp only [scanCodePoint, hleading.scanUnit_append, hfirst, hsecond, scanPair,
    htrailing.scanUnit_append, hthird, hencode, bind, Except.bind]
  rfl

theorem scanContent_escape {escape bytes s : Bytes} (hescape : scanEscape escape = .ok (bytes, s))
    (turns : Nat) :
    scanContent (turns + 1) (ascii '\\' :: escape) =
      (scanContent turns s).map fun found => (bytes ++ found.1, found.2) := by
  rw [scanContent, if_neg (by decide), if_pos rfl, hescape]
  cases hrest : scanContent turns s <;>
    simp [hrest, bind, Except.bind, pure, Except.pure, Except.map]

theorem scanEscape_unicode {s rest : Bytes} {bytes : Bytes}
    (h : scanCodePoint s = .ok (bytes, rest)) :
    scanEscape (ascii 'u' :: s) = .ok (bytes, rest) := by
  have hnone : escaped? (ascii 'u') = none := by decide
  simp [scanEscape, hnone, h]

theorem Spells.scanContent_eq {content : Bytes} {chars : List Char} (h : Spells content chars)
    {turns : Nat} (hturns : content.length < turns) (s : Bytes) :
    scanContent turns (content ++ ascii '\x22' :: s) = .ok (encoded chars, s) := by
  induction h generalizing turns with
  | nil =>
      obtain ⟨turns, rfl⟩ := Nat.exists_eq_add_of_lt hturns
      rfl
  | @plain c content chars hplain _ ih =>
      obtain ⟨more, rfl⟩ := Nat.exists_eq_add_of_le (Nat.le_of_lt hturns)
      rw [List.length_append, Nat.add_assoc] at hturns ⊢
      rw [List.append_assoc, scanContent_append (fun _ hb => hplain.isPlainByte hb),
        ih (by omega)]
      rfl
  | @short letter c content chars hshort _ ih =>
      obtain ⟨hescaped, hascii⟩ := escaped?_of_mem hshort
      obtain ⟨turns, rfl⟩ := Nat.exists_eq_add_one_of_ne_zero (Nat.ne_zero_of_lt hturns)
      simp only [List.length_cons] at hturns
      have hescape : scanEscape (ascii letter :: (content ++ ascii '\x22' :: s)) =
          .ok ([ascii c], content ++ ascii '\x22' :: s) := by
        simp [scanEscape, hescaped]
      rw [List.cons_append, List.cons_append, scanContent_escape hescape, ih (by omega),
        encoded_cons, utf8EncodeChar_of_lt hascii]
      rfl
  | @unit c digits content chars hunit _ ih =>
      obtain ⟨turns, rfl⟩ := Nat.exists_eq_add_one_of_ne_zero (Nat.ne_zero_of_lt hturns)
      simp only [List.length_cons, List.length_append] at hturns
      have hescape := scanEscape_unicode (scanCodePoint_unit hunit (content ++ ascii '\x22' :: s))
      rw [List.cons_append, List.cons_append, List.append_assoc, scanContent_escape hescape,
        ih (by omega), encoded_cons]
      rfl
  | @pair c leading trailing content chars hwide hleading htrailing _ ih =>
      obtain ⟨turns, rfl⟩ := Nat.exists_eq_add_one_of_ne_zero (Nat.ne_zero_of_lt hturns)
      simp only [List.length_cons, List.length_append] at hturns
      have hescape := scanEscape_unicode
        (scanCodePoint_pair hwide hleading htrailing (content ++ ascii '\x22' :: s))
      have hshape : ascii '\\' :: ascii 'u' ::
          (leading ++ ascii '\\' :: ascii 'u' :: (trailing ++ content)) ++ ascii '\x22' :: s =
          ascii '\\' :: ascii 'u' :: (leading ++ ascii '\\' :: ascii 'u' ::
            (trailing ++ (content ++ ascii '\x22' :: s))) := by
        simp
      rw [hshape, scanContent_escape hescape, ih (by omega), encoded_cons]
      rfl

/-- A literal is read as the characters that it spells. -/
theorem Spells.scan_eq {content : Bytes} {chars : List Char} (h : Spells content chars)
    (s : Bytes) : scan (content ++ ascii '\x22' :: s) = .ok (String.ofList chars, s) := by
  have hturns : content.length < (content ++ ascii '\x22' :: s).length := by simp
  rw [scan, h.scanContent_eq hturns]
  simp [ofUtf8?_encoded, bind, Except.bind]

/-! ## Passing over -/

theorem IsContent.skipContent_eq {content : Bytes} (h : IsContent content) {turns : Nat}
    (hturns : content.length < turns) (s : Bytes) :
    skipContent turns (content ++ ascii '\x22' :: s) = .ok s := by
  induction h generalizing turns with
  | nil =>
      obtain ⟨turns, rfl⟩ := Nat.exists_eq_add_of_lt hturns
      rfl
  | @plain b content hplain _ ih =>
      obtain ⟨hquote, hbackslash, hcontrol⟩ := hplain
      obtain ⟨turns, rfl⟩ := Nat.exists_eq_add_one_of_ne_zero (Nat.ne_zero_of_lt hturns)
      rw [List.cons_append, skipContent, if_neg hquote, if_neg hbackslash, if_neg hcontrol]
      exact ih (Nat.lt_of_succ_lt_succ hturns)
  | @short letter c content hshort _ ih =>
      obtain ⟨hescaped, -⟩ := escaped?_of_mem hshort
      obtain ⟨turns, rfl⟩ := Nat.exists_eq_add_one_of_ne_zero (Nat.ne_zero_of_lt hturns)
      simp only [List.length_cons] at hturns
      have hescape : skipEscape (ascii letter :: (content ++ ascii '\x22' :: s)) =
          .ok (content ++ ascii '\x22' :: s) := by
        simp [skipEscape, hescaped]
      rw [List.cons_append, List.cons_append, skipContent, if_neg (by decide), if_pos rfl, hescape]
      exact ih (by omega)
  | @unit digits content unit hunit _ ih =>
      obtain ⟨turns, rfl⟩ := Nat.exists_eq_add_one_of_ne_zero (Nat.ne_zero_of_lt hturns)
      simp only [List.length_cons, List.length_append] at hturns
      have hnone : escaped? (ascii 'u') = none := by decide
      have hescape : skipEscape (ascii 'u' :: (digits ++ (content ++ ascii '\x22' :: s))) =
          .ok (content ++ ascii '\x22' :: s) := by
        simp [skipEscape, hnone, hunit.scanUnit_append, Except.map]
      rw [List.cons_append, List.cons_append, List.append_assoc, skipContent, if_neg (by decide),
        if_pos rfl, hescape]
      exact ih (by omega)

theorem IsContent.skip_eq {content : Bytes} (h : IsContent content) (s : Bytes) :
    skip (content ++ ascii '\x22' :: s) = .ok s :=
  h.skipContent_eq (by simp) s

/-! ## Literals that are read -/

theorem length_lt_of_scanUnit {s rest : Bytes} {unit : Nat} (h : scanUnit s = .ok (unit, rest)) :
    rest.length < s.length := by
  revert h
  fun_cases scanUnit s with
  | case1 a b c d others va vb vc vd =>
      intro h
      cases h
      simp only [List.length_cons]
      omega
  | case2 | case3 => exact nofun

theorem skipEscape_of_scanUnit {s rest : Bytes} {unit : Nat} (h : scanUnit s = .ok (unit, rest)) :
    skipEscape (ascii 'u' :: s) = .ok rest := by
  have hnone : escaped? (ascii 'u') = none := by decide
  simp [skipEscape, hnone, h, Except.map]

theorem exists_of_scanPair {s rest bytes : Bytes} {leading : Nat}
    (h : scanPair leading s = .ok (bytes, rest)) :
    ∃ half unit, s = ascii '\\' :: ascii 'u' :: half ∧ scanUnit half = .ok (unit, rest) := by
  revert h
  fun_cases scanPair leading s with
  | case1 | case2 | case3 | case4 => exact nofun
  | case5 b hb c half hc =>
      intro h
      rw [Decidable.not_not] at hb hc
      obtain ⟨⟨unit, left⟩, hunit, hrest⟩ := exists_of_bind_eq_ok h
      simp only at hrest
      split_ifs at hrest
      · obtain ⟨-, rfl⟩ := Prod.mk.inj (Except.ok.inj hrest)
        exact ⟨half, unit, by rw [hb, hc], hunit⟩

/-- An escape that is read is passed over, at once or by its two halves. -/
theorem skipEscape_of_scanEscape {s rest bytes : Bytes} (h : scanEscape s = .ok (bytes, rest)) :
    rest.length < s.length ∧ (skipEscape s = .ok rest ∨
      ∃ half, skipEscape s = .ok (ascii '\\' :: half) ∧ skipEscape half = .ok rest ∧
        half.length < s.length) := by
  revert h
  fun_cases scanEscape s with
  | case1 | case4 => exact nofun
  | case2 b s byte hbyte =>
      intro h
      cases h
      refine ⟨Nat.lt_succ_self _, .inl ?_⟩
      rw [skipEscape, hbyte]
  | case3 s hnone =>
      intro h
      obtain ⟨⟨unit, left⟩, hunit, hrest⟩ := exists_of_bind_eq_ok h
      have hlength := length_lt_of_scanUnit hunit
      simp only at hrest
      split_ifs at hrest
      · obtain ⟨half, second, rfl, hsecond⟩ := exists_of_scanPair hrest
        have hmore := length_lt_of_scanUnit hsecond
        simp only [List.length_cons] at hlength ⊢
        exact ⟨by omega, .inr ⟨ascii 'u' :: half, skipEscape_of_scanUnit hunit,
          skipEscape_of_scanUnit hsecond, by simp only [List.length_cons]; omega⟩⟩
      · cases hrest
        exact ⟨by simp only [List.length_cons]; omega, .inl (skipEscape_of_scanUnit hunit)⟩

theorem skipContent_escape {s rest : Bytes} (h : skipEscape s = .ok rest) (turns : Nat) :
    skipContent (turns + 1) (ascii '\\' :: s) = skipContent turns rest := by
  rw [skipContent, if_neg (by decide), if_pos rfl, h]
  rfl

theorem skipContent_of_scanContent {turns : Nat} {s rest bytes : Bytes}
    (h : scanContent turns s = .ok (bytes, rest)) {limit : Nat} (hlimit : s.length ≤ limit) :
    skipContent limit s = .ok rest := by
  induction turns generalizing s bytes limit with
  | zero => cases h
  | succ turns ih =>
      cases s with
      | nil => cases h
      | cons b s =>
          rw [List.length_cons] at hlimit
          obtain ⟨limit, rfl⟩ := Nat.exists_eq_add_one_of_ne_zero (n := limit) (by omega)
          rw [scanContent] at h
          split_ifs at h with hquote hbackslash hcontrol
          · cases h
            rw [skipContent, if_pos hquote]
          · obtain ⟨⟨bytes, left⟩, hescape, hrest⟩ := exists_of_bind_eq_ok h
            obtain ⟨⟨more, last⟩, hmore, hlast⟩ := exists_of_bind_eq_ok hrest
            cases hlast
            obtain ⟨hlength, hskip | ⟨half, hfirst, hsecond, hhalf⟩⟩ :=
              skipEscape_of_scanEscape hescape
            · rw [hbackslash, skipContent_escape hskip]
              exact ih hmore (by omega)
            · obtain ⟨limit, rfl⟩ := Nat.exists_eq_add_one_of_ne_zero (n := limit) (by omega)
              rw [hbackslash, skipContent_escape hfirst, skipContent_escape hsecond]
              exact ih hmore (by omega)
          · obtain ⟨⟨more, last⟩, hmore, hlast⟩ := exists_of_bind_eq_ok h
            cases hlast
            rw [skipContent, if_neg hquote, if_neg hbackslash, if_neg hcontrol]
            exact ih hmore (by omega)

/-- A literal that has the right form is read to its closing quote, if it is read at all. -/
theorem IsContent.scan_rest {content : Bytes} (h : IsContent content) {s rest : Bytes}
    {text : String} (hscan : scan (content ++ ascii '\x22' :: s) = .ok (text, rest)) :
    rest = s := by
  obtain ⟨⟨bytes, left⟩, hcontent, hrest⟩ := exists_of_bind_eq_ok hscan
  have hleft : left = s := by
    have hskip := skipContent_of_scanContent hcontent (Nat.le_refl _)
    have hthis := h.skip_eq s
    rw [skip, hskip] at hthis
    exact Except.ok.inj hthis
  simp only at hrest
  split at hrest
  · cases hrest
    exact hleft
  · cases hrest

/-! ## Writing -/

theorem spells_short {letter c : Char} (hshort : (letter, c) ∈ shortEscapes) {content : Bytes}
    {chars : List Char} (h : Spells content chars) :
    Spells (encoded ['\\', letter] ++ content) (c :: chars) := by
  have hall : ∀ entry ∈ shortEscapes, entry.1.toNat < 128 := by decide
  have hascii : ∀ other ∈ ['\\', letter], other.toNat < 128 :=
    List.forall_mem_cons.mpr ⟨by decide, List.forall_mem_singleton.mpr (hall (letter, c) hshort)⟩
  rw [encoded_of_ascii hascii]
  exact .short hshort h

theorem isHexDigit_hexChar {value : Nat} (h : value < 16) :
    (hexChar value).toNat < 128 ∧ IsHexDigit (ascii (hexChar value)) value := by
  have hall : ∀ v < 16, hexChar v = v.digitChar ∧ v.digitChar.toNat < 128 := by decide
  obtain ⟨hchar, hascii⟩ := hall value h
  rw [hchar]
  exact ⟨hascii, h, .inl rfl⟩

theorem spells_escapeChar (c : Char) {content : Bytes} {chars : List Char}
    (h : Spells content chars) : Spells (encoded (escapeChar c) ++ content) (c :: chars) := by
  rw [escapeChar]
  split_ifs with hquote hbackslash hbackspace htab hnewline hformfeed hreturn hcontrol
  · subst hquote
    exact spells_short (by decide) h
  · subst hbackslash
    exact spells_short (by decide) h
  · subst hbackspace
    exact spells_short (by decide) h
  · subst htab
    exact spells_short (by decide) h
  · subst hnewline
    exact spells_short (by decide) h
  · subst hformfeed
    exact spells_short (by decide) h
  · subst hreturn
    exact spells_short (by decide) h
  · obtain ⟨hfirst, hhigh⟩ := isHexDigit_hexChar (show c.toNat / 16 < 16 by omega)
    obtain ⟨hsecond, hlow⟩ := isHexDigit_hexChar (show c.toNat % 16 < 16 by omega)
    have hzero : IsHexDigit (ascii '0') 0 := ⟨by decide, .inl rfl⟩
    have hunit := IsUnit.digits hzero hzero hhigh hlow
    have hvalue : ((0 * 16 + 0) * 16 + c.toNat / 16) * 16 + c.toNat % 16 = c.toNat := by omega
    rw [hvalue] at hunit
    rw [encoded_of_ascii (by simp [hfirst, hsecond])]
    exact .unit hunit h
  · have hplain : IsPlain c := ⟨hquote, hbackslash, Nat.not_lt.mp hcontrol⟩
    rw [encoded_cons, encoded_nil, List.append_nil]
    exact .plain hplain h

theorem spells_escaped (chars : List Char) : Spells (encoded (chars.flatMap escapeChar)) chars := by
  induction chars with
  | nil => exact .nil
  | cons c chars ih =>
      rw [List.flatMap_cons, encoded_append]
      exact spells_escapeChar c ih

end AttributeExchange.Json.StringLiteral
