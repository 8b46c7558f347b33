import AttributeExchange.Json.Reader
import AttributeExchange.Proofs.Json.Literal
import AttributeExchange.Proofs.Json.Number
import Mathlib.Data.List.DropRight

/-!
# Values by their form

The texts that are JSON values by their form alone: any nesting, numbers of any size, strings of any
escapes, blanks wherever they may be. Passing over a document takes exactly one of these off the
front.
-/

namespace AttributeExchange.Json

/-! ## Written values -/

structure Padded where
  before : Bytes
  text : Bytes
  after : Bytes
  blank_before : Blank before
  blank_after : Blank after

def Padded.bytes (part : Padded) : Bytes :=
  part.before ++ (part.text ++ part.after)

def Padded.tight (text : Bytes) : Padded :=
  ⟨[], text, [], .nil, .nil⟩

def Padded.flush (part : Padded) : Padded :=
  { part with before := [], blank_before := .nil }

/-- A member: what is between the quotes of its name, and its value. -/
structure WrittenMember where
  before : Bytes
  name : Bytes
  between : Bytes
  value : Padded
  blank_before : Blank before
  blank_between : Blank between

def WrittenMember.bytes (member : WrittenMember) : Bytes :=
  member.before ++
    ascii '\x22' ::
      (member.name ++ ascii '\x22' :: (member.between ++ ascii ':' :: member.value.bytes))

def WrittenMember.tight (name text : Bytes) : WrittenMember :=
  ⟨[], name, [], .tight text, .nil, .nil⟩

def WrittenMember.flush (member : WrittenMember) : WrittenMember :=
  { member with before := [], blank_before := .nil }

def further (parts : List Bytes) : Bytes :=
  parts.flatMap (ascii ',' :: ·)

/-- The texts that are an object with these members, and blanks around it. -/
inductive ObjectText : List WrittenMember → Bytes → Prop where
  | empty {before blanks after : Bytes} (hbefore : Blank before) (hblanks : Blank blanks)
      (hafter : Blank after) :
      ObjectText [] (before ++ ascii '\x7b' :: (blanks ++ ascii '\x7d' :: after))
  | members {before after : Bytes} (hbefore : Blank before) (first : WrittenMember)
      (more : List WrittenMember) (hafter : Blank after) :
      ObjectText (first :: more) (before ++ ascii '\x7b' ::
        (first.bytes ++ (further (more.map WrittenMember.bytes) ++ ascii '\x7d' :: after)))

/-- The texts that are a list of these parts, and blanks around it. -/
inductive ListText : List Padded → Bytes → Prop where
  | empty {before blanks after : Bytes} (hbefore : Blank before) (hblanks : Blank blanks)
      (hafter : Blank after) : ListText [] (before ++ ascii '[' :: (blanks ++ ascii ']' :: after))
  | parts {before after : Bytes} (hbefore : Blank before) (first : Padded) (more : List Padded)
      (hafter : Blank after) :
      ListText (first :: more) (before ++ ascii '[' ::
        (first.bytes ++ (further (more.map Padded.bytes) ++ ascii ']' :: after)))

def sign (negative : Bool) : Bytes :=
  if negative then [ascii '-'] else []

/-- The texts that are values by their form. -/
inductive IsValue : Bytes → Prop where
  | null : IsValue (['n', 'u', 'l', 'l'].map ascii)
  | yes : IsValue (['t', 'r', 'u', 'e'].map ascii)
  | no : IsValue (['f', 'a', 'l', 's', 'e'].map ascii)
  | number {text : Bytes} {numeral : Numeral} (h : Numeral.Writes text numeral) :
      IsValue (sign numeral.negative ++ text)
  | string {content : Bytes} (h : StringLiteral.IsContent content) :
      IsValue (ascii '\x22' :: (content ++ [ascii '\x22']))
  | emptyList {blanks : Bytes} (h : Blank blanks) : IsValue (ascii '[' :: (blanks ++ [ascii ']']))
  | list (first : Padded) (more : List Padded) (h : ∀ part ∈ first :: more, IsValue part.text) :
      IsValue (ascii '[' :: (first.bytes ++ (further (more.map Padded.bytes) ++ [ascii ']'])))
  | emptyObject {blanks : Bytes} (h : Blank blanks) :
      IsValue (ascii '\x7b' :: (blanks ++ [ascii '\x7d']))
  | object (first : WrittenMember) (more : List WrittenMember)
      (hnames : ∀ member ∈ first :: more, StringLiteral.IsContent member.name)
      (hvalues : ∀ member ∈ first :: more, IsValue member.value.text) :
      IsValue (ascii '\x7b' ::
        (first.bytes ++ (further (more.map WrittenMember.bytes) ++ [ascii '\x7d'])))

/-! ## What follows a value -/

theorem isBlank_of_blank_cons {blanks : Bytes} (h : Blank blanks) {b c : UInt8} {s : Bytes}
    (hc : (blanks ++ b :: s).head? = some c) : isBlank c = true ∨ c = b := by
  cases blanks with
  | nil => exact .inr (Option.some.inj hc).symm
  | cons first blanks => exact .inl (Option.some.inj hc ▸ h first List.mem_cons_self)

theorem ends_nil : Ends [] :=
  fun _ hb => absurd hb (by simp)

theorem Blank.ends_append {blanks : Bytes} (h : Blank blanks) {b : UInt8}
    (hb : b = ascii ',' ∨ b = ascii ']' ∨ b = ascii '\x7d') (s : Bytes) :
    Ends (blanks ++ b :: s) := by
  intro c hc
  rcases isBlank_of_blank_cons h hc with hblank | rfl
  · exact .inl hblank
  · exact .inr hb

theorem further_cons (part : Bytes) (parts : List Bytes) :
    further (part :: parts) = ascii ',' :: (part ++ further parts) := rfl

theorem length_le_further (parts : List Bytes) : parts.length ≤ (further parts).length := by
  induction parts with
  | nil => exact Nat.le_refl _
  | cons part parts ih =>
      rw [further_cons]
      simp only [List.length_cons, List.length_append]
      omega

theorem length_le_further_of_mem {part : Bytes} {parts : List Bytes} (h : part ∈ parts) :
    part.length < (further parts).length := by
  induction parts with
  | nil => cases h
  | cons first parts ih =>
      rw [further_cons]
      simp only [List.length_cons, List.length_append]
      rcases List.mem_cons.mp h with rfl | hmem
      · omega
      · have := ih hmem
        omega

/-- After a part of a list come blanks, and then a comma or the closer. -/
theorem exists_after_part {close : UInt8} (hclose : close = ascii ']' ∨ close = ascii '\x7d')
    (parts : List Bytes) (s : Bytes) :
    ∃ b rest, further parts ++ close :: s = b :: rest ∧
      (b = ascii ',' ∨ b = ascii ']' ∨ b = ascii '\x7d') := by
  cases parts with
  | nil => exact ⟨close, s, rfl, .inr hclose⟩
  | cons part parts => exact ⟨ascii ',', _, rfl, .inl rfl⟩

theorem ends_after_part {blanks : Bytes} (h : Blank blanks) {close : UInt8}
    (hclose : close = ascii ']' ∨ close = ascii '\x7d') (parts : List Bytes) (s : Bytes) :
    Ends (blanks ++ (further parts ++ close :: s)) := by
  obtain ⟨b, rest, hrest, hb⟩ := exists_after_part hclose parts s
  rw [hrest]
  exact h.ends_append hb rest

theorem length_lt_of_further (front : Bytes) (parts : List Bytes) (close : UInt8) (s : Bytes) :
    parts.length < (front ++ (further parts ++ close :: s)).length := by
  have hle := length_le_further parts
  simp only [List.length_append, List.length_cons]
  omega

/-! ## How a value starts -/

theorem isDigit_start {b : UInt8} (hb : Numeral.isDigit b = true) :
    isBlank b = false ∧ b ≠ ascii ']' ∧ b ≠ ascii '\x7d' := by
  have hends : ¬ (isBlank b = true ∨ b = ascii ',' ∨ b = ascii ']' ∨ b = ascii '\x7d') := by
    intro hends
    have hfalse := Numeral.noDigit_of_ends (s := [b]) (fun c hc => Option.some.inj hc ▸ hends) b rfl
    rw [hb] at hfalse
    cases hfalse
  simp only [not_or, Bool.not_eq_true] at hends
  exact ⟨hends.1, hends.2.2⟩

theorem IsValue.exists_cons {text : Bytes} (h : IsValue text) :
    ∃ b rest, text = b :: rest ∧ isBlank b = false ∧ b ≠ ascii ']' ∧ b ≠ ascii '\x7d' := by
  cases h with
  | @number text numeral hwrites =>
      obtain ⟨b, rest, rfl, hb⟩ := hwrites.exists_cons
      cases numeral.negative with
      | false => exact ⟨b, rest, rfl, isDigit_start hb⟩
      | true => exact ⟨ascii '-', b :: rest, rfl, by decide⟩
  | null | yes | no | string | emptyList | list | emptyObject | object =>
      exact ⟨_, _, rfl, by decide⟩

/-! ## Blanks before a part -/

theorem skipBlanks_padded {part : Padded} (h : IsValue part.text) (s : Bytes) :
    ∃ b rest, skipBlanks (part.bytes ++ s) = b :: rest ∧ part.flush.bytes ++ s = b :: rest ∧
      b ≠ ascii ']' := by
  obtain ⟨b, rest, htext, hb, hclose, -⟩ := h.exists_cons
  refine ⟨b, rest ++ (part.after ++ s), ?_, ?_, hclose⟩
  · rw [Padded.bytes, htext, List.append_assoc, List.append_assoc, List.cons_append,
      part.blank_before.skipBlanks_append_cons hb]
  · simp [Padded.bytes, Padded.flush, htext]

theorem skipBlanks_member (member : WrittenMember) (s : Bytes) :
    skipBlanks (member.bytes ++ s) = member.flush.bytes ++ s := by
  rw [WrittenMember.bytes, List.append_assoc, List.cons_append,
    member.blank_before.skipBlanks_append_cons (by decide)]
  rfl

/-! ## Passing over -/

theorem skipNested_blanks (levels : Nat) {blanks : Bytes} (h : Blank blanks) (s : Bytes) :
    skipNested levels (blanks ++ s) = skipNested levels s := by
  cases levels with
  | zero => rfl
  | succ levels => rw [skipNested, skipNested, h.skipBlanks_append]

section Parts

variable {element : Bytes → Except ReadError Bytes}
  (hblanks : ∀ {blanks : Bytes}, Blank blanks → ∀ s, element (blanks ++ s) = element s)

include hblanks

theorem element_padded {part : Padded} (htakes : ∀ s, Ends s → element (part.text ++ s) = .ok s)
    {close : UInt8} (hclose : close = ascii ']' ∨ close = ascii '\x7d') (parts : List Bytes)
    (s : Bytes) :
    element (part.bytes ++ (further parts ++ close :: s)) =
      .ok (part.after ++ (further parts ++ close :: s)) := by
  rw [Padded.bytes, List.append_assoc, List.append_assoc, hblanks part.blank_before]
  exact htakes _ (ends_after_part part.blank_after hclose parts s)

theorem skipElements_append (first : Padded) {more : List Padded}
    (htakes : ∀ part ∈ first :: more, ∀ s, Ends s → element (part.text ++ s) = .ok s) {turns : Nat}
    (hturns : more.length < turns) (s : Bytes) :
    skipElements element turns
      (first.bytes ++ (further (more.map Padded.bytes) ++ ascii ']' :: s)) = .ok s := by
  induction more generalizing first turns with
  | nil =>
      obtain ⟨turns, rfl⟩ := Nat.exists_eq_add_one_of_ne_zero (Nat.ne_zero_of_lt hturns)
      rw [skipElements, element_padded hblanks (htakes first List.mem_cons_self) (.inl rfl)]
      have hskip := first.blank_after.skipBlanks_append_cons (b := ascii ']') (by decide) s
      simp [further, bind, Except.bind, hskip]
  | cons next more ih =>
      obtain ⟨turns, rfl⟩ := Nat.exists_eq_add_one_of_ne_zero (Nat.ne_zero_of_lt hturns)
      have hrest := ih next (fun part hpart => htakes part (List.mem_cons_of_mem first hpart))
        (Nat.lt_of_succ_lt_succ hturns)
      rw [skipElements, element_padded hblanks (htakes first List.mem_cons_self) (.inl rfl),
        List.map_cons, further_cons, List.cons_append, List.append_assoc]
      have hskip := first.blank_after.skipBlanks_append_cons (b := ascii ',') (by decide)
        (next.bytes ++ (further (more.map Padded.bytes) ++ ascii ']' :: s))
      simp only [bind, Except.bind, hskip]
      rw [if_neg (by decide), if_pos trivial]
      exact hrest

theorem skipMembers_append (first : WrittenMember) {more : List WrittenMember}
    (hnames : ∀ member ∈ first :: more, StringLiteral.IsContent member.name)
    (htakes : ∀ member ∈ first :: more, ∀ s, Ends s →
      element (member.value.text ++ s) = .ok s)
    {turns : Nat} (hturns : more.length < turns) (s : Bytes) :
    skipMembers element turns
      (first.bytes ++ (further (more.map WrittenMember.bytes) ++ ascii '\x7d' :: s)) = .ok s := by
  have hquote : isBlank (ascii '\x22') = false := by decide
  induction more generalizing first turns with
  | nil =>
      obtain ⟨turns, rfl⟩ := Nat.exists_eq_add_one_of_ne_zero (Nat.ne_zero_of_lt hturns)
      have hvalue := element_padded hblanks (htakes first List.mem_cons_self) (.inr rfl) [] s
      have hskip := first.value.blank_after.skipBlanks_append_cons (b := ascii '\x7d') (by decide) s
      simp only [skipMembers, WrittenMember.bytes, List.map_nil, List.append_assoc,
        List.cons_append, first.blank_before.skipBlanks_append_cons hquote,
        (hnames first List.mem_cons_self).skip_eq, first.blank_between.scanColon, bind,
        Except.bind, hvalue]
      simp [further, hskip]
  | cons next more ih =>
      obtain ⟨turns, rfl⟩ := Nat.exists_eq_add_one_of_ne_zero (Nat.ne_zero_of_lt hturns)
      have hrest := ih next
        (fun member hmember => hnames member (List.mem_cons_of_mem first hmember))
        (fun member hmember => htakes member (List.mem_cons_of_mem first hmember))
        (Nat.lt_of_succ_lt_succ hturns)
      have hvalue := element_padded hblanks (htakes first List.mem_cons_self) (.inr rfl)
        ((next :: more).map WrittenMember.bytes) s
      have hskip := first.value.blank_after.skipBlanks_append_cons (b := ascii ',') (by decide)
        (next.bytes ++ (further (more.map WrittenMember.bytes) ++ ascii '\x7d' :: s))
      simp only [skipMembers, WrittenMember.bytes, List.append_assoc, List.cons_append,
        first.blank_before.skipBlanks_append_cons hquote, (hnames first List.mem_cons_self).skip_eq,
        first.blank_between.scanColon, bind, Except.bind, hvalue]
      rw [List.map_cons, further_cons, List.cons_append, List.append_assoc, hskip]
      exact hrest

theorem skipList_append {first : Padded} {more : List Padded} (hfirst : IsValue first.text)
    (htakes : ∀ part ∈ first :: more, ∀ s, Ends s → element (part.text ++ s) = .ok s) (s : Bytes) :
    skipList element (first.bytes ++ (further (more.map Padded.bytes) ++ ascii ']' :: s)) =
      .ok s := by
  obtain ⟨b, rest, hskip, hflush, hclose⟩ := skipBlanks_padded hfirst
    (further (more.map Padded.bytes) ++ ascii ']' :: s)
  have hturns := length_lt_of_further first.flush.bytes (more.map Padded.bytes) (ascii ']') s
  rw [List.length_map] at hturns
  rw [skipList, hskip]
  simp only [if_neg hclose]
  rw [← hflush]
  exact skipElements_append hblanks first.flush
    (List.forall_mem_cons.mpr ⟨htakes first List.mem_cons_self, fun part hpart =>
      htakes part (List.mem_cons_of_mem first hpart)⟩) hturns s

theorem skipObject_append {first : WrittenMember} {more : List WrittenMember}
    (hnames : ∀ member ∈ first :: more, StringLiteral.IsContent member.name)
    (htakes : ∀ member ∈ first :: more, ∀ s, Ends s →
      element (member.value.text ++ s) = .ok s) (s : Bytes) :
    skipObject element
      (first.bytes ++ (further (more.map WrittenMember.bytes) ++ ascii '\x7d' :: s)) = .ok s := by
  have hturns := length_lt_of_further first.flush.bytes (more.map WrittenMember.bytes)
    (ascii '\x7d') s
  rw [List.length_map] at hturns
  have hmembers := skipMembers_append hblanks first.flush
    (List.forall_mem_cons.mpr ⟨hnames first List.mem_cons_self, fun member hmember =>
      hnames member (List.mem_cons_of_mem first hmember)⟩)
    (List.forall_mem_cons.mpr ⟨htakes first List.mem_cons_self, fun member hmember =>
      htakes member (List.mem_cons_of_mem first hmember)⟩) hturns s
  rw [skipObject, skipBlanks_member]
  exact hmembers

end Parts

theorem skipNested_cons {levels : Nat} {b : UInt8} (hb : isBlank b = false) (s : Bytes) :
    skipNested (levels + 1) (b :: s) =
      if b = ascii 'n' then scanLetters ['u', 'l', 'l'] s
      else if b = ascii 't' then scanLetters ['r', 'u', 'e'] s
      else if b = ascii 'f' then scanLetters ['a', 'l', 's', 'e'] s
      else if b = ascii '-' then (Numeral.scan .invalidNumber true s).map (·.2)
      else if Numeral.isDigit b then (Numeral.scan .invalidNumber false (b :: s)).map (·.2)
      else if b = ascii '\x22' then StringLiteral.skip s
      else if b = ascii '[' then skipList (skipNested levels) s
      else if b = ascii '\x7b' then skipObject (skipNested levels) s
      else .error .expectedValue := by
  rw [skipNested, skipBlanks_cons hb]

theorem ne_of_isDigit {b c : UInt8} (hb : Numeral.isDigit b = true)
    (hc : Numeral.isDigit c = false) : b ≠ c := by
  rintro rfl
  rw [hb] at hc
  cases hc

theorem skipNested_number {levels : Nat} {text : Bytes} {numeral : Numeral}
    (h : Numeral.Writes text numeral) {s : Bytes} (hends : Ends s) :
    skipNested (levels + 1) (sign numeral.negative ++ (text ++ s)) = .ok s := by
  have hscan := h.scan_append hends .invalidNumber
  cases hsign : numeral.negative with
  | true =>
      rw [hsign] at hscan
      change skipNested (levels + 1) (ascii '-' :: (text ++ s)) = .ok s
      rw [skipNested_cons (by decide), if_neg (by decide), if_neg (by decide), if_neg (by decide),
        if_pos rfl, hscan]
      rfl
  | false =>
      rw [hsign] at hscan
      obtain ⟨b, rest, rfl, hb⟩ := h.exists_cons
      have hblank : isBlank b = false := (isDigit_start hb).1
      change skipNested (levels + 1) (b :: (rest ++ s)) = .ok s
      rw [skipNested_cons hblank, if_neg (ne_of_isDigit hb (by decide)),
        if_neg (ne_of_isDigit hb (by decide)), if_neg (ne_of_isDigit hb (by decide)),
        if_neg (ne_of_isDigit hb (by decide)), if_pos hb, ← List.cons_append, hscan]
      rfl

theorem Padded.length_text_le (part : Padded) : part.text.length ≤ part.bytes.length := by
  simp only [Padded.bytes, List.length_append]
  omega

theorem WrittenMember.length_text_lt (member : WrittenMember) :
    member.value.text.length < member.bytes.length := by
  have hvalue := member.value.length_text_le
  simp only [WrittenMember.bytes, List.length_append, List.length_cons]
  omega

theorem length_part_lt {bytes first : Bytes} {more : List Bytes} (opening closing : UInt8)
    (h : bytes ∈ first :: more) :
    bytes.length + 1 < (opening :: (first ++ (further more ++ [closing]))).length := by
  simp only [List.length_cons, List.length_append]
  rcases List.mem_cons.mp h with rfl | hmore
  · omega
  · have hlt := length_le_further_of_mem hmore
    omega

/-- Passing over takes exactly one value off the front. -/
theorem IsValue.skipNested_append {text : Bytes} (h : IsValue text) {levels : Nat}
    (hlevels : text.length < levels) {s : Bytes} (hends : Ends s) :
    skipNested levels (text ++ s) = .ok s := by
  obtain ⟨levels, rfl⟩ := Nat.exists_eq_add_one_of_ne_zero (Nat.ne_zero_of_lt hlevels)
  induction h generalizing levels s with
  | null => exact scanLetters_append ['u', 'l', 'l'] s
  | yes => exact scanLetters_append ['r', 'u', 'e'] s
  | no => exact scanLetters_append ['a', 'l', 's', 'e'] s
  | number hwrites =>
      rw [List.append_assoc]
      exact skipNested_number hwrites hends
  | @string content hcontent =>
      have hskip := hcontent.skip_eq s
      rw [List.cons_append, List.append_assoc]
      exact hskip
  | @emptyList blanks hblanks =>
      have hskip := hblanks.skipBlanks_append_cons (b := ascii ']') (by decide) s
      rw [List.cons_append, List.append_assoc]
      change skipList (skipNested levels) (blanks ++ ascii ']' :: s) = .ok s
      rw [skipList, hskip]
      rfl
  | list first more hvalues ih =>
      have htakes : ∀ part ∈ first :: more, ∀ s, Ends s →
          skipNested levels (part.text ++ s) = .ok s := by
        intro part hpart s hs
        have hlength := length_part_lt (ascii '[') (ascii ']')
          (List.mem_map_of_mem (f := Padded.bytes) hpart)
        have hle := part.length_text_le
        obtain ⟨levels, rfl⟩ := Nat.exists_eq_add_one_of_ne_zero (n := levels) (by omega)
        exact ih part hpart hs levels (by omega)
      rw [List.cons_append, List.append_assoc, List.append_assoc]
      exact skipList_append (skipNested_blanks levels) (hvalues first List.mem_cons_self) htakes s
  | @emptyObject blanks hblanks =>
      have hskip := hblanks.skipBlanks_append_cons (b := ascii '\x7d') (by decide) s
      rw [List.cons_append, List.append_assoc]
      change skipObject (skipNested levels) (blanks ++ ascii '\x7d' :: s) = .ok s
      rw [skipObject, hskip]
      rfl
  | object first more hnames _ ih =>
      have htakes : ∀ member ∈ first :: more, ∀ s, Ends s →
          skipNested levels (member.value.text ++ s) = .ok s := by
        intro member hmember s hs
        have hlength := length_part_lt (ascii '\x7b') (ascii '\x7d')
          (List.mem_map_of_mem (f := WrittenMember.bytes) hmember)
        have hlt := member.length_text_lt
        obtain ⟨levels, rfl⟩ := Nat.exists_eq_add_one_of_ne_zero (n := levels) (by omega)
        exact ih member hmember hs levels (by omega)
      rw [List.cons_append, List.append_assoc, List.append_assoc]
      exact skipObject_append (skipNested_blanks levels) hnames htakes s

/-- Passing over a document takes a value off the front, with the blanks before it. -/
theorem IsValue.skipDocument_append {text : Bytes} (h : IsValue text) {blanks : Bytes}
    (hblanks : Blank blanks) {s : Bytes} (hends : Ends s) :
    skipDocument (blanks ++ (text ++ s)) = .ok s := by
  rw [skipDocument, skipNested_blanks _ hblanks]
  exact h.skipNested_append (by simp only [List.length_append]; omega) hends

/-!
## Compact texts

The bytes of a compact text: a list is its elements and an object is its members, with no blanks
anywhere.
-/

theorem encoded_cons_of_lt {c : Char} (h : c.toNat < 128) (chars : List Char) :
    encoded (c :: chars) = ascii c :: encoded chars := by
  rw [encoded_cons, utf8EncodeChar_of_lt h]
  rfl

theorem encoded_toDigits (n : Nat) :
    encoded (Nat.toDigits 10 n) = (Nat.toDigits 10 n).map ascii :=
  encoded_of_ascii fun _ hc => Numeral.toNat_lt_of_isDigit (Numeral.isDigit_of_mem_toDigits hc)

def quotedContent (text : String) : Bytes :=
  encoded (text.toList.flatMap escapeChar)

theorem encoded_stringText (text : String) :
    encoded (stringText text) = ascii '\x22' :: (quotedContent text ++ [ascii '\x22']) := by
  rw [stringText, encoded_cons_of_lt (by decide), encoded_append, encoded_cons_of_lt (by decide)]
  rfl

theorem scan_quotedContent (text : String) (s : Bytes) :
    StringLiteral.scan (quotedContent text ++ ascii '\x22' :: s) = .ok (text, s) := by
  rw [quotedContent, (StringLiteral.spells_escaped text.toList).scan_eq, String.ofList_toList]

def writtenElement (document : Json) : Padded :=
  .tight (encoded document.compactChars)

def writtenMember (member : String × Json) : WrittenMember :=
  .tight (quotedContent member.1) (encoded member.2.compactChars)

theorem bytes_writtenElement (document : Json) :
    (writtenElement document).bytes = encoded document.compactChars := by
  simp [writtenElement, Padded.bytes, Padded.tight]

theorem bytes_writtenMember (member : String × Json) :
    (writtenMember member).bytes =
      encoded (stringText member.1 ++ ':' :: member.2.compactChars) := by
  rw [encoded_append, encoded_stringText, encoded_cons_of_lt (by decide)]
  simp [writtenMember, WrittenMember.bytes, WrittenMember.tight, Padded.bytes, Padded.tight]

theorem encoded_elementsText (first : Json) (more : List Json) :
    encoded (elementsText (first :: more)) =
      (writtenElement first).bytes ++ further ((more.map writtenElement).map Padded.bytes) := by
  induction more generalizing first with
  | nil => rw [elementsText, bytes_writtenElement]; simp [further]
  | cons next more ih =>
      rw [elementsText, encoded_append, encoded_cons_of_lt (by decide), ih next,
        bytes_writtenElement first]
      · rfl
      · exact fun h => List.cons_ne_nil _ _ h

theorem encoded_membersText (first : String × Json) (more : List (String × Json)) :
    encoded (membersText (first :: more)) =
      (writtenMember first).bytes ++
        further ((more.map writtenMember).map WrittenMember.bytes) := by
  induction more generalizing first with
  | nil =>
      rw [membersText, bytes_writtenMember]
      simp [further]
  | cons next more ih =>
      rw [membersText, ← List.cons_append, ← List.append_assoc, encoded_append,
        encoded_cons_of_lt (by decide), ih next, bytes_writtenMember first]
      · rfl
      · exact fun h => List.cons_ne_nil _ _ h

theorem objectText_membersText (members : List (String × Json)) :
    ObjectText (members.map writtenMember)
      (encoded ('\x7b' :: (membersText members ++ ['\x7d']))) := by
  cases members with
  | nil => exact .empty .nil .nil .nil
  | cons first more =>
      rw [encoded_cons_of_lt (by decide), encoded_append, encoded_membersText, List.append_assoc]
      exact .members .nil (writtenMember first) (more.map writtenMember) .nil

end AttributeExchange.Json
