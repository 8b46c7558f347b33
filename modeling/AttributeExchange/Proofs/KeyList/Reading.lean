import AttributeExchange.CommandLine.Arguments
import AttributeExchange.Proofs.Basic
import AttributeExchange.Proofs.KeyList.Joining
import Mathlib.Tactic.SplitIfs

/-!
# Keys from the command line

Keys come to the program as parts of texts that are split at their commas, and by no other way. So
no key that the program asks for has a comma in it.
-/

namespace AttributeExchange.CommandLine

theorem not_mem_of_mem_splitKeys {text key : String} (h : key ∈ splitKeys text) :
    ',' ∉ key.toList := by
  obtain ⟨part, hpart, rfl⟩ := List.mem_map.mp h
  rw [String.toList_ofList]
  exact not_mem_of_mem_splitOn hpart

namespace Given

def CommaFree (given : Given) : Prop :=
  ∀ keys ∈ given.keys, ∀ key ∈ keys, ',' ∉ key.toList

variable {given after : Given}

theorem CommaFree.setParameter (h : given.CommaFree) {text : String} {parameter : Parameter}
    (hset : given.setParameter text parameter = .ok after) : after.CommaFree := by
  cases parameter with
  | keys =>
      obtain rfl := Except.ok.inj hset
      intro keys hkeys key hkey
      obtain rfl := Option.some.inj hkeys
      rcases List.mem_append.mp hkey with hkey | hkey
      · cases hgiven : given.keys with
        | none => simp [hgiven] at hkey
        | some earlier =>
            rw [hgiven, Option.getD_some] at hkey
            exact h earlier hgiven key hkey
      · exact not_mem_of_mem_splitKeys hkey
  | settings | scope | response | answerTick | ticks | tickInterval =>
      obtain ⟨value, -, hset⟩ := exists_of_bind_eq_ok hset
      obtain rfl := Except.ok.inj hset
      exact h

theorem CommaFree.setFlag (h : given.CommaFree) {flag : Flag}
    (hset : given.setFlag flag = .ok after) : after.CommaFree := by
  cases flag with
  | verbose =>
      rw [Given.setFlag] at hset
      split_ifs at hset
      obtain rfl := Except.ok.inj hset
      exact h
  | help | version => cases hset

end Given

def Cluster.given : Cluster → Given
  | .flags given | .settings given _ => given

theorem Given.CommaFree.readLetters {given : Given} (h : given.CommaFree) {letters : List Char}
    {cluster : Cluster} (hread : readLetters given letters = .ok cluster) :
    cluster.given.CommaFree := by
  fun_induction CommandLine.readLetters given letters with
  | case1 | case2 | case3 | case4 =>
      obtain rfl := Except.ok.inj hread
      exact h
  | case5 => cases hread
  | case6 given letter letters _ _ _ flag hflag ih =>
      obtain ⟨next, hnext, hread⟩ := exists_of_bind_eq_ok hread
      exact ih next (h.setFlag hnext) hread

theorem Given.CommaFree.readArguments {given after : Given} (h : given.CommaFree)
    {waiting : Option Parameter} {arguments : List String}
    (hread : readArguments given waiting arguments = .ok after) : after.CommaFree := by
  fun_induction CommandLine.readArguments given waiting arguments with
  -- Misuse ends the reading without options.
  | case1 | case4 | case6 | case7 | case10 | case11 => cases hread
  -- At the end, or at a separator that is the last argument, the options stay as they are.
  | case2 | case5 => exact Except.ok.inj hread ▸ h
  | case3 given text arguments parameter _ ih =>
      obtain ⟨next, hnext, hread⟩ := exists_of_bind_eq_ok hread
      exact ih next (h.setParameter hnext) hread
  | case8 given text arguments name parameter _ _ ih => exact ih h hread
  | case9 given text arguments name parameter value _ _ ih =>
      obtain ⟨next, hnext, hread⟩ := exists_of_bind_eq_ok hread
      exact ih next (h.setParameter hnext) hread
  | case12 given text arguments name _ flag _ _ ih =>
      obtain ⟨next, hnext, hread⟩ := exists_of_bind_eq_ok hread
      exact ih next (h.setFlag hnext) hread
  | case13 given text arguments letters _ ihFlags ihPath =>
      obtain ⟨cluster, hcluster, hread⟩ := exists_of_bind_eq_ok hread
      have hkept := h.readLetters hcluster
      cases cluster with
      | flags next => exact ihFlags next hkept hread
      | settings next value =>
          cases value with
          | none => exact ihPath next hkept hread
          | some value =>
              obtain ⟨set, hset, hread⟩ := exists_of_bind_eq_ok hread
              exact ihFlags set (hkept.setParameter hset) hread

/-- No key that the program is asked for has a comma. -/
theorem not_mem_of_ofArguments {arguments : List String} {otherPath : Option String}
    {options : Options} (hread : Options.ofArguments arguments otherPath = .ok options)
    {key : String} (hkey : key ∈ options.keys) : ',' ∉ key.toList := by
  obtain ⟨given, hgiven, hcomplete⟩ := exists_of_bind_eq_ok hread
  have hnothing : Given.nothing.CommaFree := fun keys hkeys => by cases hkeys
  have hfree : given.CommaFree := hnothing.readArguments hgiven
  rw [Given.complete] at hcomplete
  cases hkeys : given.keys with
  | none =>
      rw [hkeys] at hcomplete
      cases hcomplete
  | some keys =>
      rw [hkeys] at hcomplete
      dsimp only at hcomplete
      split_ifs at hcomplete
      obtain rfl := Except.ok.inj hcomplete
      exact hfree keys hkeys key hkey

end AttributeExchange.CommandLine

namespace AttributeExchange.KeyList

/-!
## Reading joined keys

Whoever receives joined keys takes the text apart at its commas and drops what is empty. A key may
have commas itself, and nothing marks them. So what is read are the parts of the keys, which are the
keys themselves exactly if none of them has a comma.
-/

/-- What is read of a text: all that stands between its commas and is not empty. -/
def pieces (text : String) : List String :=
  usable (CommandLine.splitKeys text)

theorem pieces_append_comma (text more : String) :
    pieces (text ++ "," ++ more) = pieces text ++ pieces more := by
  have hsplit : CommandLine.splitKeys (text ++ "," ++ more) =
      CommandLine.splitKeys text ++ CommandLine.splitKeys more := by
    have hchars : (text ++ "," ++ more).toList = text.toList ++ ',' :: more.toList := by simp
    rw [CommandLine.splitKeys, hchars, List.splitOn_append_cons_self, List.map_append]
    rfl
  rw [pieces, hsplit, usable_append]
  rfl

theorem pieces_of_not_mem {key : String} (h : ',' ∉ key.toList) : pieces key = usable [key] := by
  rw [pieces, CommandLine.splitKeys, List.splitOn_eq_singleton h, List.map_singleton,
    String.ofList_toList]

theorem not_mem_of_mem_pieces {text piece : String} (h : piece ∈ pieces text) :
    ',' ∉ piece.toList :=
  CommandLine.not_mem_of_mem_splitKeys (List.mem_of_mem_filter h)

theorem pieces_empty : pieces "" = [] := by
  rw [pieces_of_not_mem (by simp)]
  rfl

theorem pieces_intercalate (keys : List String) :
    pieces (",".intercalate keys) = keys.flatMap pieces := by
  induction keys with
  | nil => simpa using pieces_empty
  | cons key keys ih =>
      cases keys with
      | nil => simp
      | cons next keys =>
          rw [String.intercalate_cons_cons, pieces_append_comma, ih, ← List.flatMap_cons]

theorem pieces_text (layout : Layout) (keys : List String) :
    pieces (layout.text keys) = keys.flatMap pieces := by
  by_cases hkeys : keys = []
  · simp [hkeys, pieces_empty]
  · rw [Layout.text, if_neg hkeys, ← pieces_intercalate]
    cases layout.trailingComma with
    | false => simp
    | true =>
        have hcomma := pieces_append_comma (",".intercalate keys) ""
        simpa [pieces_empty] using hcomma

theorem flatMap_pieces_usable (keys : List String) :
    (usable keys).flatMap pieces = keys.flatMap pieces := by
  induction keys with
  | nil => rfl
  | cons key keys ih =>
      by_cases hkey : isUsable key = true
      · rw [usable_cons_of_usable hkey, List.flatMap_cons, List.flatMap_cons, ih]
      · have hempty : key = "" := by simpa [isUsable] using hkey
        rw [usable_cons_of_empty hkey, ih, List.flatMap_cons, hempty, pieces_empty,
          List.nil_append]

theorem pieces_of_result_join {layout : Layout} {keys : List String} {text : String}
    (h : (layout.join keys).result = .ok text) : pieces text = keys.flatMap pieces := by
  rw [layout.result_join] at h
  obtain ⟨-, -, rfl⟩ := layout.joined_eq_ok_iff.mp h
  rw [pieces_text, flatMap_pieces_usable]

theorem flatMap_pieces_eq_usable_iff {keys : List String} :
    keys.flatMap pieces = usable keys ↔ ∀ key ∈ keys, ',' ∉ key.toList := by
  constructor
  · intro hsame key hkey
    by_cases husable : isUsable key = true
    · have hpiece : key ∈ keys.flatMap pieces := hsame ▸ List.mem_filter.mpr ⟨hkey, husable⟩
      obtain ⟨_, -, hpiece⟩ := List.mem_flatMap.mp hpiece
      exact not_mem_of_mem_pieces hpiece
    · have hempty : key = "" := by simpa [isUsable] using husable
      simp [hempty]
  · intro hfree
    induction keys with
    | nil => rfl
    | cons key keys ih =>
        have hkey : ',' ∉ key.toList := hfree key List.mem_cons_self
        rw [List.flatMap_cons, pieces_of_not_mem hkey,
          ih fun other hother => hfree other (List.mem_cons_of_mem key hother), ← usable_append]
        rfl

def Plain (keys : List String) : Prop :=
  ∀ key ∈ keys, isUsable key = true ∧ ',' ∉ key.toList

theorem Plain.pieces_of_result_join {layout : Layout} {keys : List String} (h : Plain keys)
    {text : String} (hjoin : (layout.join keys).result = .ok text) : pieces text = keys := by
  rw [KeyList.pieces_of_result_join hjoin,
    flatMap_pieces_eq_usable_iff.mpr fun key hkey => (h key hkey).2]
  exact List.filter_eq_self.mpr fun key hkey => (h key hkey).1

/-- What a receiver reads of keys that were joined: the parts of all keys in order, whatever the
layout. Those are the usable keys themselves exactly if no key has a comma, and none has that the
program is asked for on its command line. Of plain keys no two lists make the same text. -/
theorem read_join (layout : Layout) (keys : List String) (text : String)
    (hjoin : (layout.join keys).result = .ok text) :
    pieces text = keys.flatMap pieces ∧
    (pieces text = usable keys ↔ ∀ key ∈ keys, ',' ∉ key.toList) ∧
    (∀ (arguments : List String) (otherPath : Option String) (options : CommandLine.Options),
      CommandLine.Options.ofArguments arguments otherPath = .ok options →
      ∀ key ∈ options.keys, ',' ∉ key.toList) ∧
    (∀ (other : Layout) (again : String),
      (other.join keys).result = .ok again → pieces again = pieces text) ∧
    (Plain keys → ∀ (other : Layout) (more : List String),
      Plain more → (other.join more).result = .ok text → more = keys) := by
  have hpieces := pieces_of_result_join hjoin
  refine ⟨hpieces, ?_, ?_, ?_, ?_⟩
  · rw [hpieces]
    exact flatMap_pieces_eq_usable_iff
  · intro arguments otherPath options hread key hkey
    exact CommandLine.not_mem_of_ofArguments hread hkey
  · intro other again hagain
    rw [pieces_of_result_join hagain, hpieces]
  · intro hplain other more hmore hsame
    rw [← hmore.pieces_of_result_join hsame, hplain.pieces_of_result_join hjoin]

/-- Keys with commas are read as their parts, and plain ones as they are in both layouts. -/
theorem read_join_with_commas :
    let keys := ["a,,b", "", ",", "c"]
    let plain := ["a", "é"]
    ((Layout.mk true none).join keys).result = .ok "a,,b,,,c," ∧
      pieces "a,,b,,,c," = keys.flatMap pieces ∧ pieces "a,,b,,,c," = ["a", "b", "c"] ∧
      pieces "a,,b,,,c," ≠ usable keys ∧
      ((Layout.mk true none).join plain).result = .ok "a,é," ∧
      ((Layout.mk false (some 4)).join plain).result = .ok "a,é" ∧
      pieces "a,é" = pieces "a,é," ∧ pieces "a,é" = usable plain := by
  intro keys plain
  have hkeys : ((Layout.mk true none).join keys).result = .ok "a,,b,,,c," := rfl
  have hone : ((Layout.mk true none).join plain).result = .ok "a,é," := rfl
  have hother : ((Layout.mk false (some 4)).join plain).result = .ok "a,é" := rfl
  obtain ⟨hparts, hiff, -⟩ := read_join _ keys _ hkeys
  obtain ⟨-, -, -, halike, -⟩ := read_join _ plain _ hone
  obtain ⟨-, hplain, -⟩ := read_join _ plain _ hother
  refine ⟨hkeys, hparts, by decide +kernel, ?_, hone, hother, halike _ _ hother,
    hplain.mpr (by decide)⟩
  intro hsame
  exact hiff.mp hsame "," (by decide) (by decide)

end AttributeExchange.KeyList
