import AttributeExchange.Json.Scan

/-!
# Bytes of a text

The bytes of a text are those of its characters one after the other, and an ASCII character is one
byte. Blanks before what is scanned make no difference.
-/

namespace AttributeExchange

def encoded (chars : List Char) : Bytes :=
  chars.flatMap String.utf8EncodeChar

@[simp] theorem encoded_nil : encoded [] = [] := rfl

@[simp] theorem encoded_append (chars more : List Char) :
    encoded (chars ++ more) = encoded chars ++ encoded more :=
  List.flatMap_append

theorem encoded_cons (c : Char) (chars : List Char) :
    encoded (c :: chars) = String.utf8EncodeChar c ++ encoded chars := rfl

theorem utf8_ofList (chars : List Char) : utf8 (String.ofList chars) = encoded chars := by
  simp [utf8, String.ofList, List.utf8Encode, encoded]

theorem ofUtf8?_encoded (chars : List Char) :
    ofUtf8? (encoded chars) = some (String.ofList chars) := by
  rw [← utf8_ofList, ofUtf8?_utf8]

theorem utf8EncodeChar_of_lt {c : Char} (h : c.toNat < 128) :
    String.utf8EncodeChar c = [ascii c] := by
  apply String.utf8EncodeChar_eq_singleton
  rw [Char.utf8Size_eq_one_iff, UInt32.le_iff_toNat_le]
  exact Nat.lt_succ_iff.mp h

theorem encoded_of_ascii {chars : List Char} (h : ∀ c ∈ chars, c.toNat < 128) :
    encoded chars = chars.map ascii := by
  induction chars with
  | nil => rfl
  | cons c chars ih =>
      rw [encoded_cons, utf8EncodeChar_of_lt (h c List.mem_cons_self),
        ih fun d hd => h d (List.mem_cons_of_mem c hd)]
      rfl

theorem le_ofNat_add (n : Nat) {high : Nat} (hlow : 128 ≤ high) (hhigh : n + high < 256) :
    128 ≤ UInt8.ofNat (n + high) := by
  rw [UInt8.le_iff_toNat_le, UInt8.toNat_ofNat', Nat.mod_eq_of_lt hhigh]
  exact Nat.le_trans hlow (Nat.le_add_left high n)

/-- No byte of a character beyond ASCII is an ASCII byte. -/
theorem le_of_mem_utf8EncodeChar {c : Char} (h : 128 ≤ c.toNat) {b : UInt8}
    (hb : b ∈ String.utf8EncodeChar c) : 128 ≤ b := by
  revert hb
  fun_cases String.utf8EncodeChar c with
  | case1 v hv => exact absurd (Nat.lt_of_lt_of_le (Nat.lt_succ_of_le hv) h) (Nat.lt_irrefl _)
  | case2 v =>
      simp only [List.mem_cons, List.not_mem_nil, or_false]
      rintro (rfl | rfl) <;> apply le_ofNat_add <;> omega
  | case3 v =>
      simp only [List.mem_cons, List.not_mem_nil, or_false]
      rintro (rfl | rfl | rfl) <;> apply le_ofNat_add <;> omega
  | case4 v =>
      simp only [List.mem_cons, List.not_mem_nil, or_false]
      rintro (rfl | rfl | rfl | rfl) <;> apply le_ofNat_add <;> omega

namespace Json

/-! ## Blanks -/

def Blank (s : Bytes) : Prop :=
  ∀ b ∈ s, isBlank b = true

theorem Blank.nil : Blank [] :=
  fun _ hb => absurd hb List.not_mem_nil

theorem Blank.skipBlanks_append {blanks : Bytes} (h : Blank blanks) (s : Bytes) :
    skipBlanks (blanks ++ s) = skipBlanks s :=
  List.dropWhile_append_of_pos h

theorem skipBlanks_cons {b : UInt8} (h : isBlank b = false) (s : Bytes) :
    skipBlanks (b :: s) = b :: s :=
  List.dropWhile_cons_of_neg (by simp [h])

theorem Blank.skipBlanks_append_cons {blanks : Bytes} (h : Blank blanks) {b : UInt8}
    (hb : isBlank b = false) (s : Bytes) : skipBlanks (blanks ++ b :: s) = b :: s := by
  rw [h.skipBlanks_append, skipBlanks_cons hb]

theorem Blank.skipBlanks_eq_nil {blanks : Bytes} (h : Blank blanks) : skipBlanks blanks = [] := by
  have hskip := h.skipBlanks_append []
  rwa [List.append_nil] at hskip

theorem Blank.scanEnd_eq_ok {blanks : Bytes} (h : Blank blanks) : scanEnd blanks = .ok () := by
  rw [scanEnd, h.skipBlanks_eq_nil]

theorem Blank.scanColon {blanks : Bytes} (h : Blank blanks) (s : Bytes) :
    scanColon (blanks ++ ascii ':' :: s) = .ok s := by
  rw [Json.scanColon, h.skipBlanks_append_cons (by decide)]
  rfl

/-! ## Literals -/

theorem scanLetters_append (letters : List Char) (s : Bytes) :
    scanLetters letters (letters.map ascii ++ s) = .ok s := by
  induction letters with
  | nil => rfl
  | cons c letters ih => simpa [scanLetters] using ih

end Json

end AttributeExchange
