import AttributeExchange.Message
import AttributeExchange.Proofs.Basic
import Mathlib.Data.List.Induction
import Mathlib.Data.List.Nodup

/-!
# Ids in topics

An id is read from the topics that spell it in digits, and from no others. So the id that a topic
was made with is the one that is read from it.
-/

namespace AttributeExchange.Topic

theorem after?_eq_some {base topic : String} {rest : List Char} :
    after? base topic = some rest ↔ base.toList ++ rest = topic.toList :=
  List.isPrefixOf?_eq_some_iff_append_eq

theorem after?_ofId (base : String) (id : RequestId) :
    after? base (ofId base id) = some (Nat.toDigits 10 id.toNat) := by
  simp [after?_eq_some, ofId, Nat.repr]

/-- That a topic is the base and then digits, one or more, of which the value is the id. -/
def Spells (base topic : String) (id : RequestId) : Prop :=
  ∃ digits : List Char, topic = base ++ String.ofList digits ∧ digits ≠ [] ∧
    (∀ c ∈ digits, c.isDigit = true) ∧ Nat.ofDigitChars 10 digits 0 = id.toNat

theorem idOfDigits?_eq_some_iff {digits : List Char} {id : RequestId} :
    idOfDigits? digits = some id ↔
      digits ≠ [] ∧ (∀ c ∈ digits, c.isDigit = true) ∧ Nat.ofDigitChars 10 digits 0 = id.toNat := by
  constructor
  · intro h
    unfold idOfDigits? at h
    split at h
    · cases h
    · rename_i hplain
      simp only [Bool.or_eq_true, List.isEmpty_iff, Bool.not_eq_true', not_or,
        Bool.not_eq_false, List.all_eq_true] at hplain
      dsimp only at h
      split at h
      · rename_i hsize
        obtain rfl := Option.some.inj h
        exact ⟨hplain.1, hplain.2, (Nat.mod_eq_of_lt hsize).symm⟩
      · cases h
  · rintro ⟨hne, hall, hvalue⟩
    have hsize : Nat.ofDigitChars 10 digits 0 < UInt64.size := hvalue ▸ id.toNat_lt_size
    simp [idOfDigits?, hne, hvalue, List.all_eq_true.mpr hall, id.toNat_lt_size]

theorem parseId?_eq_some_iff {base topic : String} {id : RequestId} :
    parseId? base topic = some id ↔ Spells base topic id := by
  rw [parseId?, Option.bind_eq_some_iff]
  constructor
  · rintro ⟨digits, hafter, hid⟩
    refine ⟨digits, ?_, idOfDigits?_eq_some_iff.mp hid⟩
    apply String.toList_inj.mp
    rw [String.toList_append, String.toList_ofList]
    exact (after?_eq_some.mp hafter).symm
  · rintro ⟨digits, rfl, hid⟩
    refine ⟨digits, ?_, idOfDigits?_eq_some_iff.mpr hid⟩
    rw [after?_eq_some, String.toList_append, String.toList_ofList]

theorem idOfDigits?_toDigits (id : RequestId) :
    idOfDigits? (Nat.toDigits 10 id.toNat) = some id := by
  apply idOfDigits?_eq_some_iff.mpr
  refine ⟨Nat.toDigits_ne_nil, ?_, Nat.ofDigitChars_ten_toDigits⟩
  intro c hc
  exact Nat.isDigit_of_mem_toDigits (by decide) (by decide) hc

theorem parseId?_ofId (base : String) (id : RequestId) :
    parseId? base (ofId base id) = some id := by
  rw [parseId?, after?_ofId, Option.bind_some, idOfDigits?_toDigits]

/-!
## Topics, ids and the filter

A topic with an id is read back as that id, whatever the base. What else is read as the id are the
spellings of it with zeros in front. Every topic from which an id can be read belongs to the
responses and is matched by the filter under which an inquirer subscribes.
-/

/-! ### Spellings of an id -/

theorem exists_digitChar {c : Char} (h : c.isDigit = true) : ∃ d < 10, c = Nat.digitChar d := by
  rw [Char.isDigit_iff_toNat] at h
  have hzero : '0'.toNat = 48 := rfl
  have hnine : '9'.toNat = 57 := rfl
  refine ⟨c.toNat - 48, by omega, ?_⟩
  apply Char.toNat_inj.mp
  rw [Nat.toNat_digitChar_of_lt_ten (by omega)]
  omega

theorem exists_zeros_of_digits {digits : List Char} (hne : digits ≠ [])
    (hdigits : ∀ c ∈ digits, c.isDigit = true) :
    ∃ zeros, digits =
      List.replicate zeros '0' ++ Nat.toDigits 10 (Nat.ofDigitChars 10 digits 0) := by
  -- From the right, since the decimal form of a number grows by its last digit.
  induction digits using List.reverseRecOn with
  | nil => exact absurd rfl hne
  | append_singleton front last ih =>
      obtain ⟨d, hd, rfl⟩ := exists_digitChar (hdigits last (by simp))
      have hvalue : Nat.ofDigitChars 10 (front ++ [d.digitChar]) 0 =
          10 * Nat.ofDigitChars 10 front 0 + d := by
        rw [Nat.ofDigitChars_append, Nat.ofDigitChars_cons_digitChar_of_lt_ten hd,
          Nat.ofDigitChars_nil]
      rw [hvalue]
      by_cases hfront : front = []
      · subst hfront
        exact ⟨0, by simp [Nat.toDigits_of_lt_base hd]⟩
      · obtain ⟨zeros, hzeros⟩ := ih hfront fun c hc => hdigits c (List.mem_append_left _ hc)
        by_cases hzero : Nat.ofDigitChars 10 front 0 = 0
        · refine ⟨zeros + 1, ?_⟩
          rw [hzero, Nat.toDigits_zero] at hzeros
          rw [hzero, Nat.mul_zero, Nat.zero_add, Nat.toDigits_of_lt_base hd, hzeros,
            List.replicate_succ']
        · refine ⟨zeros, ?_⟩
          rw [← Nat.toDigits_append_toDigits (by decide) (Nat.pos_of_ne_zero hzero) hd,
            Nat.toDigits_of_lt_base hd, ← List.append_assoc, ← hzeros]

/-- The topics that spell an id are its own topic and those with zeros before the number. -/
theorem spells_iff_exists_zeros {base topic : String} {id : RequestId} :
    Spells base topic id ↔
      ∃ zeros, topic = base ++ String.ofList (List.replicate zeros '0') ++ id.toNat.repr := by
  constructor
  · rintro ⟨digits, rfl, hne, hdigits, hvalue⟩
    obtain ⟨zeros, hzeros⟩ := exists_zeros_of_digits hne hdigits
    refine ⟨zeros, ?_⟩
    rw [hvalue] at hzeros
    rw [hzeros, String.ofList_append, ← String.append_assoc, ← Nat.repr_eq_ofList_toDigits]
  · rintro ⟨zeros, rfl⟩
    refine ⟨List.replicate zeros '0' ++ Nat.toDigits 10 id.toNat, ?_, ?_, ?_, ?_⟩
    · rw [String.ofList_append, ← String.append_assoc, ← Nat.repr_eq_ofList_toDigits]
    · simp [Nat.toDigits_ne_nil]
    · intro c hc
      rcases List.mem_append.mp hc with hc | hc
      · rw [List.eq_of_mem_replicate hc]
        decide
      · exact Nat.isDigit_of_mem_toDigits (by decide) (by decide) hc
    · rw [Nat.ofDigitChars_append, Nat.ofDigitChars_replicate_zero, Nat.mul_zero,
        Nat.ofDigitChars_ten_toDigits]

/-- What is read of digits after the base: their value, unless it has more than 64 bits. -/
theorem parseId?_of_digits (base : String) {digits : List Char} (hne : digits ≠ [])
    (hdigits : ∀ c ∈ digits, c.isDigit = true) :
    (parseId? base (base ++ String.ofList digits)).map UInt64.toNat =
      if Nat.ofDigitChars 10 digits 0 < UInt64.size then some (Nat.ofDigitChars 10 digits 0)
      else none := by
  have hafter : after? base (base ++ String.ofList digits) = some digits := by
    rw [after?_eq_some, String.toList_append, String.toList_ofList]
  have hplain : (digits.isEmpty || !digits.all Char.isDigit) = false := by
    simp [hne, List.all_eq_true.mpr hdigits]
  rw [parseId?, hafter, Option.bind_some, idOfDigits?, hplain]
  by_cases hsize : Nat.ofDigitChars 10 digits 0 < UInt64.size
  · simp [hsize, Nat.mod_eq_of_lt]
  · simp [hsize]

theorem ofId_injective (base : String) : Function.Injective (ofId base) := by
  intro id other h
  have hparse := congrArg (parseId? base) h
  rw [parseId?_ofId, parseId?_ofId] at hparse
  exact Option.some.inj hparse

/-! ### Filters -/

/-- How the levels of a filter match those of a topic: `+` stands for any one level, and a last `#`
for all that are left. -/
inductive LevelsMatch : List (List Char) → List (List Char) → Prop where
  | done : LevelsMatch [] []
  | same {filter topic : List (List Char)} (level : List Char) :
      LevelsMatch filter topic → LevelsMatch (level :: filter) (level :: topic)
  | any {filter topic : List (List Char)} (level : List Char) :
      LevelsMatch filter topic → LevelsMatch (['+'] :: filter) (level :: topic)
  | rest (topic : List (List Char)) : LevelsMatch [['#']] topic

/-- Whether a broker delivers a topic to those who subscribed the filter. -/
def Matches (filter topic : String) : Prop :=
  LevelsMatch (filter.toList.splitOn '/') (topic.toList.splitOn '/')

def responseLevels : List (List Char) :=
  ["v1", "devices", "me", "attributes", "response"].map String.toList

theorem splitOn_responseFilter :
    responseFilter.toList.splitOn '/' = responseLevels ++ [['+']] := by
  decide +kernel

theorem not_mem_responseLevels : ∀ level ∈ responseLevels, '/' ∉ level := by
  decide

theorem toList_responseBase_append (level : List Char) :
    responseBase.toList ++ level = ['/'].intercalate (responseLevels ++ [level]) := by
  simp [responseBase, responseLevels, List.intercalate]

theorem LevelsMatch.append_single {levels : List (List Char)} {topic : List (List Char)}
    (hplain : ∀ level ∈ levels, level ≠ ['+'] ∧ level ≠ ['#']) :
    LevelsMatch (levels ++ [['+']]) topic ↔ ∃ level, topic = levels ++ [level] := by
  induction levels generalizing topic with
  | nil =>
      constructor
      · rintro (_ | ⟨_, hrest⟩ | ⟨level, hrest⟩ | _)
        · cases hrest
          exact ⟨_, rfl⟩
        · cases hrest
          exact ⟨level, rfl⟩
      · rintro ⟨level, rfl⟩
        exact .any level .done
  | cons first levels ih =>
      obtain ⟨hplus, hhash⟩ := hplain first List.mem_cons_self
      have hlevels : ∀ level ∈ levels, level ≠ ['+'] ∧ level ≠ ['#'] := fun level hlevel =>
        hplain level (List.mem_cons_of_mem first hlevel)
      constructor
      · intro h
        rw [List.cons_append] at h
        generalize htail : levels ++ [['+']] = tail at h
        cases h with
        | same _ hrest =>
            obtain ⟨level, rfl⟩ := (ih hlevels).mp (htail ▸ hrest)
            exact ⟨level, rfl⟩
        | any _ hrest => exact absurd rfl hplus
        | rest => exact absurd rfl hhash
      · rintro ⟨level, rfl⟩
        exact .same first ((ih hlevels).mpr ⟨level, rfl⟩)

/-- The filter of an inquirer matches the topics with exactly one level after the base. -/
theorem matches_responseFilter_iff {topic : String} :
    Matches responseFilter topic ↔
      ∃ level : List Char, '/' ∉ level ∧ topic = responseBase ++ String.ofList level := by
  have hplain : ∀ level ∈ responseLevels, level ≠ ['+'] ∧ level ≠ ['#'] := by decide
  rw [Matches, splitOn_responseFilter, LevelsMatch.append_single hplain]
  constructor
  · rintro ⟨level, hsplit⟩
    refine ⟨level, ?_, ?_⟩
    · have hmem : level ∈ topic.toList.splitOn '/' := by
        rw [hsplit]
        exact List.mem_append_right _ List.mem_cons_self
      exact not_mem_of_mem_splitOn hmem
    · apply String.toList_inj.mp
      rw [String.toList_append, String.toList_ofList, toList_responseBase_append, ← hsplit,
        List.intercalate_splitOn]
  · rintro ⟨level, hlevel, rfl⟩
    refine ⟨level, ?_⟩
    rw [String.toList_append, String.toList_ofList, toList_responseBase_append]
    apply List.splitOn_intercalate
    · intro other hother
      rcases List.mem_append.mp hother with hother | hother
      · exact not_mem_responseLevels other hother
      · rwa [List.mem_singleton.mp hother]
    · exact List.append_ne_nil_of_right_ne_nil _ (List.cons_ne_nil _ _)

theorem Spells.matches {topic : String} {id : RequestId} (h : Spells responseBase topic id) :
    Matches responseFilter topic := by
  obtain ⟨digits, rfl, -, hdigits, -⟩ := h
  refine matches_responseFilter_iff.mpr ⟨digits, ?_, rfl⟩
  intro hslash
  have hdigit := hdigits '/' hslash
  revert hdigit
  decide

theorem Spells.isResponse {topic : String} {id : RequestId} (h : Spells responseBase topic id) :
    isResponse topic = true := by
  obtain ⟨digits, rfl, -⟩ := h
  rw [Topic.isResponse, Option.isSome_iff_exists]
  exact ⟨digits, after?_eq_some.mpr (by rw [String.toList_append, String.toList_ofList])⟩

theorem after?_responseBase_request (id : RequestId) : after? responseBase (request id) = none := by
  rw [Option.eq_none_iff_forall_not_mem]
  intro rest hrest
  have hchars := after?_eq_some.mp hrest
  simp [responseBase, request, ofId, requestBase] at hchars

/-! ### The code as a whole -/

/-- Topics as a code for ids. Each id is read back from its own topic, and from nothing but the base
and digits of that value, of which those beyond the decimal form are zeros in front; a value of more
than 64 bits is no id. So different ids have different topics, nothing is read as a response from a
request topic, and all that is read as a response belongs to the responses and passes the filter. -/
theorem ids_spelled_by_topics :
    (∀ id, parseId? responseBase (response id) = some id ∧
      parseId? requestBase (request id) = some id) ∧
    (∀ base topic id, parseId? base topic = some id ↔ Spells base topic id) ∧
    (∀ base topic, parseId? base topic = none ↔ ∀ id, ¬ Spells base topic id) ∧
    (∀ base topic id, Spells base topic id ↔
      ∃ zeros, topic = base ++ String.ofList (List.replicate zeros '0') ++ id.toNat.repr) ∧
    (∀ base (digits : List Char), digits ≠ [] → (∀ c ∈ digits, c.isDigit = true) →
      (parseId? base (base ++ String.ofList digits)).map UInt64.toNat =
        if Nat.ofDigitChars 10 digits 0 < UInt64.size then some (Nat.ofDigitChars 10 digits 0)
        else none) ∧
    Function.Injective response ∧ Function.Injective request ∧
    (∀ id, isResponse (request id) = false ∧ parseId? responseBase (request id) = none) ∧
    ∀ topic id, parseId? responseBase topic = some id →
      isResponse topic = true ∧ Matches responseFilter topic := by
  refine ⟨fun id => ⟨parseId?_ofId _ id, parseId?_ofId _ id⟩,
    fun _ _ _ => parseId?_eq_some_iff, ?_, fun _ _ _ => spells_iff_exists_zeros,
    fun base _ => parseId?_of_digits base, ofId_injective _, ofId_injective _, ?_, ?_⟩
  · intro base topic
    simp only [Option.eq_none_iff_forall_ne_some, ne_eq, parseId?_eq_some_iff]
  · intro id
    rw [Topic.isResponse, parseId?, after?_responseBase_request]
    exact ⟨rfl, rfl⟩
  · intro topic id hparse
    have hspells := parseId?_eq_some_iff.mp hparse
    exact ⟨hspells.isResponse, hspells.matches⟩

/-- The largest id after a zero is read, the number after it is not. -/
theorem ids_spelled_by_topics_limit :
    parseId? responseBase "v1/devices/me/attributes/response/018446744073709551615" =
      some 18446744073709551615 ∧
    Matches responseFilter "v1/devices/me/attributes/response/018446744073709551615" ∧
    (parseId? responseBase (responseBase ++ String.ofList "18446744073709551616".toList)).map
      UInt64.toNat = none := by
  obtain ⟨-, -, -, hzeros, hdigits, -, -, -, hfilter⟩ := ids_spelled_by_topics
  have hparse : parseId? responseBase "v1/devices/me/attributes/response/018446744073709551615" =
      some 18446744073709551615 := by
    rw [parseId?_eq_some_iff, hzeros]
    exact ⟨1, by decide +kernel⟩
  refine ⟨hparse, (hfilter _ _ hparse).2, ?_⟩
  rw [hdigits responseBase "18446744073709551616".toList (by decide)
    (List.all_eq_true.mp (by decide))]
  decide +kernel

end AttributeExchange.Topic
