import AttributeExchange.Message
import Mathlib.Data.List.Infix

/-!
# The text of a key list

What joining keys comes to, said without the loop: the usable keys with a comma between any two and
perhaps one more at the end. A list that does not fit is told by its shortest prefix that does not.
-/

namespace AttributeExchange.KeyList

def usable (keys : List String) : List String :=
  keys.filter isUsable

theorem anyUsable_iff (keys : List String) : anyUsable keys = true ↔ usable keys ≠ [] := by
  simp [anyUsable, usable]

theorem usable_cons_of_usable {key : String} (hkey : isUsable key = true) (keys : List String) :
    usable (key :: keys) = key :: usable keys :=
  List.filter_cons_of_pos hkey

theorem usable_cons_of_empty {key : String} (hkey : ¬ isUsable key = true) (keys : List String) :
    usable (key :: keys) = usable keys :=
  List.filter_cons_of_neg hkey

theorem isUsable_of_mem_concat {done : List String} {key : String}
    (hdone : ∀ key ∈ done, isUsable key) (hkey : isUsable key = true) :
    ∀ other ∈ done ++ [key], isUsable other := by
  intro other hother
  rcases List.mem_append.mp hother with hother | hother
  · exact hdone other hother
  · rw [List.mem_singleton.mp hother]
    exact hkey

theorem usable_append (keys more : List String) :
    usable (keys ++ more) = usable keys ++ usable more :=
  List.filter_append ..

namespace Layout

/-- The string that keys make, all of them being usable. -/
def text (layout : Layout) (keys : List String) : String :=
  if keys = [] then ""
  else ",".intercalate keys ++ if layout.trailingComma then "," else ""

def size (layout : Layout) (keys : List String) : Nat :=
  (layout.text keys).utf8ByteSize

/-- The length that is reported for keys that do not fit: that of their shortest prefix over the
limit. -/
def sizeOver (layout : Layout) (limit : Nat) (keys : List String) : Nat :=
  ((keys.inits.map layout.size).find? fun length => limit < length).getD 0

def overLimit? (layout : Layout) (keys : List String) : Option RequestFault :=
  match layout.limit with
  | none => none
  | some limit =>
    if limit < layout.size keys then some (.listOverLimit (layout.sizeOver limit keys) limit)
    else none

/-- What joining comes to once the empty keys are gone. -/
def joined (layout : Layout) (keys : List String) : Except RequestFault String :=
  if keys = [] then .error (.invalid .noKeys)
  else
    match layout.overLimit? keys with
    | some fault => .error fault
    | none => .ok (layout.text keys)

variable (layout : Layout)

@[simp] theorem text_nil : layout.text [] = "" := rfl

@[simp] theorem size_nil : layout.size [] = 0 := rfl

theorem isEmpty_intercalate {keys : List String} (hkeys : ∀ key ∈ keys, isUsable key)
    (hne : keys ≠ []) : (",".intercalate keys).isEmpty = false := by
  cases keys with
  | nil => exact absurd rfl hne
  | cons key rest =>
      have hkey : key ≠ "" := by simpa [isUsable] using hkeys key (by simp)
      cases rest with
      | nil => simpa using hkey
      | cons next rest => simp [String.intercalate_cons_cons, hkey]

theorem isEmpty_text {keys : List String} (hkeys : ∀ key ∈ keys, isUsable key) :
    (layout.text keys).isEmpty = decide (keys = []) := by
  by_cases hne : keys = []
  · simp [hne]
  · have hjoined := isEmpty_intercalate hkeys hne
    simp [text, hne] at hjoined ⊢
    simp [hjoined]

theorem append_text {keys : List String} (key : String) (hkeys : ∀ key ∈ keys, isUsable key) :
    layout.append (layout.text keys) key = layout.text (keys ++ [key]) := by
  by_cases hne : keys = []
  · cases htrailing : layout.trailingComma <;> simp [append, text, hne, htrailing]
  · have hempty := layout.isEmpty_text hkeys
    rw [append, hempty]
    simp only [text, hne, if_false, decide_false, List.append_eq_nil_iff, false_and]
    rw [String.intercalate_append_of_ne_nil hne (by simp)]
    cases layout.trailingComma <;> simp [String.append_assoc]

theorem size_le_append (keys more : List String) :
    layout.size keys ≤ layout.size (keys ++ more) := by
  by_cases hkeys : keys = []
  · simp [hkeys]
  by_cases hmore : more = []
  · simp [hmore]
  · simp only [size, text, hkeys, List.append_eq_nil_iff, false_and, if_false]
    rw [String.intercalate_append_of_ne_nil hkeys hmore]
    simp only [String.utf8ByteSize_append]
    omega

theorem size_le_of_prefix {keys longer : List String} (h : keys <+: longer) :
    layout.size keys ≤ layout.size longer := by
  obtain ⟨more, rfl⟩ := h
  exact layout.size_le_append keys more

theorem excess?_text (keys : List String) :
    layout.excess? (layout.text keys) =
      match layout.limit with
      | none => none
      | some limit =>
        if limit < layout.size keys then some (.listOverLimit (layout.size keys) limit)
        else none := rfl

/-- The shortest prefix over the limit is found where the text first exceeds it. -/
theorem sizeOver_eq {limit : Nat} {done rest : List String} {key : String}
    (hdone : layout.size done ≤ limit) (hover : limit < layout.size (done ++ [key])) :
    layout.sizeOver limit (done ++ key :: rest) = layout.size (done ++ [key]) := by
  have hfits : (done.inits.map layout.size).find? (fun length => limit < length) = none := by
    rw [List.find?_eq_none]
    intro length hlength
    obtain ⟨keys, hkeys, rfl⟩ := List.mem_map.mp hlength
    have hle := layout.size_le_of_prefix ((List.mem_inits keys done).mp hkeys)
    simp only [decide_eq_true_eq]
    omega
  rw [sizeOver, List.inits_append, List.map_append, List.find?_append, hfits]
  cases rest <;> simp [hover]

theorem joined_of_excess {done : List String} {key : String} {fault : RequestFault}
    (rest : List String) (hdone : layout.excess? (layout.text done) = none)
    (hkey : layout.excess? (layout.text (done ++ [key])) = some fault) :
    layout.joined (done ++ key :: rest) = .error fault := by
  rw [excess?_text] at hdone hkey
  cases hlimit : layout.limit with
  | none => simp [hlimit] at hkey
  | some limit =>
      simp only [hlimit, Option.ite_none_right_eq_some, Option.some.injEq] at hkey
      have hfits : layout.size done ≤ limit := by simpa [hlimit] using hdone
      have hlonger := layout.size_le_append (done ++ [key]) rest
      rw [List.append_assoc, List.singleton_append] at hlonger
      have hover : limit < layout.size (done ++ key :: rest) := by omega
      simp [joined, overLimit?, hlimit, hover, layout.sizeOver_eq hfits hkey.1, hkey.2]

/-- The loop of joining, started on keys that are in already and fit. -/
theorem result_joinOnto (keys done : List String) (skipped : Nat)
    (hdone : ∀ key ∈ done, isUsable key) (hfits : layout.excess? (layout.text done) = none) :
    (layout.joinOnto (layout.text done) skipped keys).result =
      layout.joined (done ++ usable keys) := by
  induction keys generalizing done skipped with
  | nil =>
      have hover : layout.overLimit? done = none := by
        rw [excess?_text] at hfits
        unfold overLimit?
        cases hlimit : layout.limit with
        | none => rfl
        | some limit => simpa [hlimit] using hfits
      simp only [joinOnto, isEmpty_text layout hdone, usable, List.filter_nil, List.append_nil,
        joined, hover, decide_eq_true_eq]
  | cons key keys ih =>
      by_cases hkey : isUsable key = true
      · have hdone' := isUsable_of_mem_concat hdone hkey
        rw [joinOnto, if_pos hkey, append_text layout key hdone, usable_cons_of_usable hkey]
        cases hexcess : layout.excess? (layout.text (done ++ [key])) with
        | none =>
            have hnext := ih (done ++ [key]) skipped hdone' hexcess
            simpa [hexcess] using hnext
        | some fault =>
            simpa [hexcess] using
              (layout.joined_of_excess (usable keys) hfits hexcess).symm
      · rw [joinOnto, if_neg hkey, usable_cons_of_empty hkey]
        exact ih done (skipped + 1) hdone hfits

theorem result_join (keys : List String) :
    (layout.join keys).result = layout.joined (usable keys) := by
  have hfits : layout.excess? (layout.text []) = none := by
    rw [excess?_text]
    cases layout.limit <;> simp
  exact layout.result_joinOnto keys [] 0 (by simp) hfits

/-!
## Where joining stops

Joining goes through the keys until the text is too long for its limit. So a list is accepted
exactly if its whole text fits, what is reported of one that does not fit is the length of the first
text over the limit, and the empty keys that are reported are those before that.
-/

def Fits (layout : Layout) (keys : List String) : Prop :=
  ∀ limit ∈ layout.limit, layout.size keys ≤ limit

/-- That joining stops at a position of the keys: the text fits so far, and the key there, if the
keys are not at an end, makes it too long. -/
structure StopsAt (layout : Layout) (keys : List String) (position : Nat) : Prop where
  le_length : position ≤ keys.length
  fits : ∀ earlier ≤ position, layout.Fits (usable (keys.take earlier))
  not_fits : position < keys.length → ¬ layout.Fits (usable (keys.take (position + 1)))

theorem Fits.of_prefix {layout : Layout} {keys longer : List String} (h : layout.Fits longer)
    (hshorter : keys <+: longer) : layout.Fits keys :=
  fun limit hlimit => (layout.size_le_of_prefix hshorter).trans (h limit hlimit)

theorem excess?_eq_none_iff (keys : List String) :
    layout.excess? (layout.text keys) = none ↔ layout.Fits keys := by
  rw [excess?_text, Fits]
  cases layout.limit <;> simp

theorem skipped_joinOnto (keys done : List String) (skipped : Nat)
    (hdone : ∀ key ∈ done, isUsable key) (hfits : layout.Fits done) :
    ∃ position ≤ keys.length, layout.Fits (done ++ usable (keys.take position)) ∧
      (position < keys.length → ¬ layout.Fits (done ++ usable (keys.take (position + 1)))) ∧
      (layout.joinOnto (layout.text done) skipped keys).skipped =
        skipped + (keys.take position).countP String.isEmpty := by
  induction keys generalizing done skipped with
  | nil =>
      refine ⟨0, le_rfl, ?_, fun hlt => absurd hlt (lt_irrefl 0), rfl⟩
      simpa [usable] using hfits
  | cons key keys ih =>
      by_cases hkey : isUsable key = true
      · have hdone' := isUsable_of_mem_concat hdone hkey
        rw [joinOnto, if_pos hkey, append_text layout key hdone]
        cases hexcess : layout.excess? (layout.text (done ++ [key])) with
        | some fault =>
            have hover : ¬ layout.Fits (done ++ [key]) := by
              rw [← excess?_eq_none_iff, hexcess]
              exact Option.some_ne_none fault
            refine ⟨0, Nat.zero_le _, ?_, fun _ => ?_, ?_⟩
            · simpa [usable] using hfits
            · simpa [usable, hkey] using hover
            · simp [hexcess]
        | none =>
            have hfits' := (layout.excess?_eq_none_iff _).mp hexcess
            obtain ⟨position, hle, hin, hout, hskipped⟩ := ih (done ++ [key]) skipped hdone' hfits'
            have hsame (others : List String) :
                done ++ usable (key :: others) = done ++ [key] ++ usable others := by
              rw [usable_cons_of_usable hkey, List.append_assoc, List.singleton_append]
            have hcount : key.isEmpty = false := by simpa [isUsable] using hkey
            refine ⟨position + 1, Nat.succ_le_succ hle, ?_, fun hlt => ?_, ?_⟩
            · rwa [List.take_succ_cons, hsame]
            · rw [List.take_succ_cons, hsame]
              exact hout (Nat.lt_of_succ_lt_succ hlt)
            · simpa [hexcess, hcount] using hskipped
      · rw [joinOnto, if_neg hkey]
        obtain ⟨position, hle, hin, hout, hskipped⟩ := ih done (skipped + 1) hdone hfits
        have hcount : key.isEmpty = true := by simpa [isUsable] using hkey
        refine ⟨position + 1, Nat.succ_le_succ hle, ?_, fun hlt => ?_, ?_⟩
        · rwa [List.take_succ_cons, usable_cons_of_empty hkey]
        · rw [List.take_succ_cons, usable_cons_of_empty hkey]
          exact hout (Nat.lt_of_succ_lt_succ hlt)
        · rw [hskipped, List.take_succ_cons, List.countP_cons_of_pos hcount]
          omega

theorem exists_stopsAt_join (keys : List String) :
    ∃ position, layout.StopsAt keys position ∧
      (layout.join keys).skipped = (keys.take position).countP String.isEmpty := by
  have hfits : layout.Fits [] := fun limit _ => Nat.zero_le limit
  obtain ⟨position, hle, hin, hout, hskipped⟩ :=
    layout.skipped_joinOnto keys [] 0 (by simp) hfits
  refine ⟨position, ⟨hle, ?_, hout⟩, hskipped.trans (Nat.zero_add _)⟩
  intro earlier hearlier
  exact hin.of_prefix ((List.take_prefix_take_left hearlier).filter isUsable)

theorem joined_eq_ok_iff {keys : List String} {text : String} :
    layout.joined keys = .ok text ↔ keys ≠ [] ∧ layout.Fits keys ∧ text = layout.text keys := by
  have hover : layout.overLimit? keys = none ↔ layout.Fits keys := by
    rw [overLimit?, Fits]
    cases layout.limit <;> simp
  by_cases hkeys : keys = []
  · simp [joined, hkeys]
  · rw [joined, if_neg hkeys, ← hover]
    cases layout.overLimit? keys with
    | none => simp [hkeys, eq_comm]
    | some fault => simp

theorem exists_joined_eq_error {limit : Nat} (hlimit : layout.limit = some limit)
    {keys : List String} (hover : limit < layout.size keys) :
    ∃ count ≤ keys.length, limit < layout.size (keys.take count) ∧
      (∀ fewer < count, layout.size (keys.take fewer) ≤ limit) ∧
      layout.joined keys =
        .error (.listOverLimit (layout.size (keys.take count)) limit) := by
  have hne : keys ≠ [] := by
    rintro rfl
    exact absurd hover (Nat.not_lt_zero limit)
  have hfault : layout.joined keys =
      .error (.listOverLimit (layout.sizeOver limit keys) limit) := by
    simp [joined, overLimit?, hne, hlimit, hover]
  have hfound : ((keys.inits.map layout.size).find? fun length => limit < length).isSome := by
    rw [List.find?_isSome]
    exact ⟨_, List.mem_map_of_mem ((List.mem_inits keys keys).mpr List.prefix_rfl),
      decide_eq_true hover⟩
  obtain ⟨length, hlength⟩ := Option.isSome_iff_exists.mp hfound
  obtain ⟨hlong, count, hcount, hsize, hfewer⟩ := List.find?_eq_some_iff_getElem.mp hlength
  rw [List.getElem_map, List.getElem_inits] at hsize
  subst hsize
  rw [hfault, sizeOver, hlength, Option.getD_some]
  refine ⟨count, ?_, of_decide_eq_true hlong, ?_, rfl⟩
  · rw [List.length_map, List.length_inits] at hcount
    omega
  · intro fewer hlt
    have hshort := hfewer fewer hlt
    rw [List.getElem_map, List.getElem_inits] at hshort
    simpa using hshort

/-- Keys joined for a request, in either layout and with any limit. The usable ones make one text.
It is accepted as a whole if there are any and it fits; otherwise the length of the first text over
the limit is reported. Of the empty keys those are reported, if any are to be, that come before the
position where joining stops. -/
theorem join_eq_text (keys : List String) (trailingComma : Bool) (limit? : Option Nat)
    (verbose : Bool) (id? : Option RequestId) (requestMember responseMember : String) :
    let layout : Layout := ⟨trailingComma, limit?⟩
    let draft : Draft :=
      ⟨keys, id?, some requestMember, some responseMember, layout, verbose⟩
    let valid := usable keys
    (valid = [] → draft.joined.result = .error (.invalid .noKeys)) ∧
    (∀ text, draft.joined.result = .ok text ↔
      valid ≠ [] ∧ (∀ limit ∈ limit?, layout.size valid ≤ limit) ∧ text = layout.text valid) ∧
    (∀ limit ∈ limit?, limit < layout.size valid →
      ∃ count ≤ valid.length, limit < layout.size (valid.take count) ∧
        (∀ fewer < count, layout.size (valid.take fewer) ≤ limit) ∧
        draft.joined.result =
          .error (.listOverLimit (layout.size (valid.take count)) limit)) ∧
    ∃ position, layout.StopsAt keys position ∧
      draft.reported = if verbose then (keys.take position).countP String.isEmpty else 0 := by
  intro layout draft valid
  have hresult : draft.joined.result = layout.joined valid := layout.result_join keys
  rw [hresult]
  refine ⟨?_, fun text => layout.joined_eq_ok_iff, ?_, ?_⟩
  · intro hnone
    simp [joined, hnone]
  · intro limit hlimit hover
    exact layout.exists_joined_eq_error hlimit hover
  · obtain ⟨position, hstops, hskipped⟩ := layout.exists_stopsAt_join keys
    refine ⟨position, hstops, ?_⟩
    rw [← hskipped]
    cases verbose <;> rfl

/-- The second key takes the text from three bytes to six, and two empty keys come before it. -/
theorem join_eq_text_over_limit :
    let layout : Layout := ⟨true, some 5⟩
    let keys := ["", "é", "", "ab", "", "c"]
    let draft : Draft := ⟨keys, none, some "clientKeys", some "client", layout, true⟩
    5 < layout.size (usable keys) ∧
      (∃ count ≤ (usable keys).length, 5 < layout.size ((usable keys).take count) ∧
        (∀ fewer < count, layout.size ((usable keys).take fewer) ≤ 5) ∧
        draft.joined.result =
          .error (.listOverLimit (layout.size ((usable keys).take count)) 5)) ∧
      layout.size ((usable keys).take 1) = 3 ∧
      draft.joined.result = .error (.listOverLimit 6 5) ∧ draft.reported = 2 := by
  intro layout keys draft
  have hover : 5 < layout.size (usable keys) := by decide +kernel
  obtain ⟨-, -, hexcess, -⟩ :=
    join_eq_text keys true (some 5) true none "clientKeys" "client"
  refine ⟨hover, hexcess 5 rfl hover, ?_, ?_, ?_⟩
  · decide +kernel
  · rfl
  · rfl

end Layout

end AttributeExchange.KeyList
