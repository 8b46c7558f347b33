import AttributeExchange.Json.Reader
import AttributeExchange.Proofs.Json.DoubleText
import AttributeExchange.Proofs.Basic

/-!
# Sound documents

What can be said of every document that was read: its integers have 64 bits, its doubles are
numbers, the names of an object are in order, and it nests no deeper than the reader allows.
-/

namespace AttributeExchange.Json

/-- That the names of members are in order, each of them once. -/
def Ordered (members : List (String × Json)) : Prop :=
  members.Pairwise fun a b => a.1 < b.1

/-- That a document can be read where it may nest so many levels. -/
inductive Sound : Nat → Json → Prop where
  | null {levels : Nat} : Sound levels .null
  | bool {levels : Nat} (value : Bool) : Sound levels (.bool value)
  | integer {levels : Nat} {n : Int} (hlow : -(Int64.size / 2 : Nat) ≤ n)
      (hhigh : n < UInt64.size) : Sound levels (.integer n)
  | double {levels : Nat} {bits : UInt64} (h : Double.FiniteBits bits) : Sound levels (.double bits)
  | string {levels : Nat} (text : String) : Sound levels (.string text)
  | array {levels : Nat} {elements : List Json} (h : ∀ element ∈ elements, Sound levels element) :
      Sound (levels + 1) (.array elements)
  | object {levels : Nat} {members : List (String × Json)} (hordered : Ordered members)
      (h : ∀ member ∈ members, Sound levels member.2) : Sound (levels + 1) (.object members)

/-! ## Objects -/

theorem mem_insertMember {name : String} {value : Json} {members : List (String × Json)}
    {member : String × Json} (h : member ∈ insertMember name value members) :
    member = (name, value) ∨ member ∈ members := by
  fun_induction insertMember name value members with
  | case1 => exact .inl (List.mem_singleton.mp h)
  | case2 old members =>
      exact (List.mem_cons.mp h).imp id (List.mem_cons_of_mem _)
  | case3 other old members => exact List.mem_cons.mp h
  | case4 other old members hne hless ih =>
      rcases List.mem_cons.mp h with rfl | hmem
      · exact .inr List.mem_cons_self
      · exact (ih hmem).imp id (List.mem_cons_of_mem _)

theorem lt_of_not_lt {a b : String} (hne : a ≠ b) (h : ¬ a < b) : b < a := by
  by_contra hnot
  exact hne (String.le_antisymm (String.not_lt.mp hnot) (String.not_lt.mp h))

theorem Ordered.insertMember {members : List (String × Json)} (h : Ordered members) (name : String)
    (value : Json) : Ordered (insertMember name value members) := by
  fun_induction Json.insertMember name value members with
  | case1 => exact List.pairwise_singleton _ _
  | case2 old members =>
      exact List.pairwise_cons.mpr ⟨(List.pairwise_cons.mp h).1, (List.pairwise_cons.mp h).2⟩
  | case3 other old members hne hless =>
      refine List.pairwise_cons.mpr ⟨fun member hmember => ?_, h⟩
      rcases List.mem_cons.mp hmember with rfl | hmem
      · exact hless
      · exact String.lt_trans hless ((List.pairwise_cons.mp h).1 member hmem)
  | case4 other old members hne hless ih =>
      refine List.pairwise_cons.mpr ⟨fun member hmember => ?_, ih (List.pairwise_cons.mp h).2⟩
      rcases mem_insertMember hmember with rfl | hmem
      · exact lt_of_not_lt hne hless
      · exact (List.pairwise_cons.mp h).1 member hmem

/-- The members that an object is made of need not be in order. -/
theorem Sound.ofMembers {levels : Nat} {members : List (String × Json)}
    (h : ∀ member ∈ members, Sound levels member.2) : Sound (levels + 1) (ofMembers members) := by
  have hfold : ∀ sorted : List (String × Json), Ordered sorted →
      (∀ member ∈ sorted, Sound levels member.2) →
      Sound (levels + 1) (.object (members.foldl
        (fun sorted member => Json.insertMember member.1 member.2 sorted) sorted)) := by
    induction members with
    | nil => exact fun sorted hordered hsound => .object hordered hsound
    | cons first members ih =>
        intro sorted hordered hsound
        refine ih (fun member hmember => h member (List.mem_cons_of_mem first hmember)) _
          (hordered.insertMember _ _) fun member hmember => ?_
        rcases mem_insertMember hmember with rfl | hmem
        · exact h first List.mem_cons_self
        · exact hsound member hmem
  exact hfold [] List.Pairwise.nil fun member hmember => absurd hmember List.not_mem_nil

/-! ## Numbers -/

theorem bounds_of_integer? {numeral : Numeral} {n : Int} (h : numeral.integer? = some n) :
    -(Int64.size / 2 : Nat) ≤ n ∧ n < UInt64.size := by
  unfold Numeral.integer? at h
  dsimp only at h
  split_ifs at h with hplain hnegative hmin hmax
  · obtain rfl := Option.some.inj h
    have hle := of_decide_eq_true ((Bool.and_eq_true _ _).mp hmin).2
    have hsize : 0 < UInt64.size := by decide
    omega
  · obtain rfl := Option.some.inj h
    omega

theorem Sound.of_value {numeral : Numeral} {document : Json} (h : numeral.value = .ok document)
    (levels : Nat) : Sound levels document := by
  rw [Numeral.value] at h
  cases hinteger : numeral.integer? with
  | some n =>
      rw [hinteger] at h
      obtain rfl := Except.ok.inj h
      exact .integer (bounds_of_integer? hinteger).1 (bounds_of_integer? hinteger).2
  | none =>
      rw [hinteger] at h
      cases hdouble : numeral.double? with
      | some bits =>
          rw [hdouble] at h
          obtain rfl := Except.ok.inj h
          exact .double (Double.finiteBits_double? hdouble)
      | none =>
          rw [hdouble] at h
          cases h

theorem Sound.of_scanNumber {negative : Bool} {s : Bytes} {found : Json × Bytes}
    (h : scanNumber negative s = .ok found) (levels : Nat) : Sound levels found.1 := by
  obtain ⟨numeral, -, hrest⟩ := exists_of_bind_eq_ok h
  obtain ⟨document, hdocument, hpair⟩ := exists_of_bind_eq_ok hrest
  obtain rfl := Except.ok.inj hpair
  exact .of_value hdocument levels

/-! ## Scanning -/

section Parts

variable {element : Scanner Json} {P : Json → Prop}
  (hsound : ∀ {s : Bytes} {found : Json × Bytes}, element s = .ok found → P found.1)

include hsound

theorem forall_of_scanElements {turns : Nat} {s : Bytes} {found : List Json × Bytes}
    (h : scanElements element turns s = .ok found) : ∀ document ∈ found.1, P document := by
  induction turns generalizing s found with
  | zero => cases h
  | succ turns ih =>
      rw [scanElements] at h
      obtain ⟨first, hfirst, hafter⟩ := exists_of_bind_eq_ok h
      have hone := hsound hfirst
      dsimp only at hafter
      split at hafter
      · cases hafter
      · split_ifs at hafter
        · obtain rfl := Except.ok.inj hafter
          exact List.forall_mem_singleton.mpr hone
        · split at hafter
          · cases hafter
          · split_ifs at hafter
            obtain ⟨more, hmore, hpair⟩ := exists_of_bind_eq_ok hafter
            obtain rfl := Except.ok.inj hpair
            exact List.forall_mem_cons.mpr ⟨hone, ih hmore⟩

theorem forall_of_scanList {s : Bytes} {found : List Json × Bytes}
    (h : scanList element s = .ok found) : ∀ document ∈ found.1, P document := by
  rw [scanList] at h
  split at h
  · cases h
  · split_ifs at h
    · obtain rfl := Except.ok.inj h
      exact fun document hdocument => absurd hdocument List.not_mem_nil
    · exact forall_of_scanElements hsound h

theorem forall_of_scanMembers {turns : Nat} {s : Bytes} {found : List (String × Json) × Bytes}
    (h : scanMembers element turns s = .ok found) : ∀ member ∈ found.1, P member.2 := by
  induction turns generalizing s found with
  | zero => cases h
  | succ turns ih =>
      cases s with
      | nil => cases h
      | cons b s =>
          rw [scanMembers] at h
          split_ifs at h
          obtain ⟨name, -, h⟩ := exists_of_bind_eq_ok h
          obtain ⟨start, -, h⟩ := exists_of_bind_eq_ok h
          obtain ⟨value, hvalue, hafter⟩ := exists_of_bind_eq_ok h
          have hone := hsound hvalue
          dsimp only at hafter
          split at hafter
          · cases hafter
          · split_ifs at hafter
            · obtain rfl := Except.ok.inj hafter
              exact List.forall_mem_singleton.mpr hone
            · split at hafter
              · cases hafter
              · split_ifs at hafter
                obtain ⟨more, hmore, hpair⟩ := exists_of_bind_eq_ok hafter
                obtain rfl := Except.ok.inj hpair
                exact List.forall_mem_cons.mpr ⟨hone, ih hmore⟩

theorem forall_of_scanObject {s : Bytes} {found : List (String × Json) × Bytes}
    (h : scanObject element s = .ok found) : ∀ member ∈ found.1, P member.2 := by
  rw [scanObject] at h
  split at h
  · cases h
  · split_ifs at h
    · obtain rfl := Except.ok.inj h
      exact fun member hmember => absurd hmember List.not_mem_nil
    · exact forall_of_scanMembers hsound h

end Parts

theorem Sound.of_scanDocument {element : Option (Scanner Json)} {levels : Nat}
    (hsound : ∀ scanner ∈ element, ∃ inner, levels = inner + 1 ∧
      ∀ {s : Bytes} {found : Json × Bytes}, scanner s = .ok found → Sound inner found.1)
    {s : Bytes} {found : Json × Bytes} (h : scanDocument element s = .ok found) :
    Sound levels found.1 := by
  rw [scanDocument] at h
  split at h
  · cases h
  · split_ifs at h
    · obtain ⟨rest, -, rfl⟩ := exists_of_map_eq_ok h
      exact .null
    · obtain ⟨rest, -, rfl⟩ := exists_of_map_eq_ok h
      exact .bool true
    · obtain ⟨rest, -, rfl⟩ := exists_of_map_eq_ok h
      exact .bool false
    · exact .of_scanNumber h levels
    · exact .of_scanNumber h levels
    · obtain ⟨literal, -, rfl⟩ := exists_of_map_eq_ok h
      exact .string literal.1
    · split at h
      · cases h
      · obtain ⟨elements, helements, rfl⟩ := exists_of_map_eq_ok h
        obtain ⟨inner, rfl, hinner⟩ := hsound _ rfl
        exact .array (forall_of_scanList hinner helements)
    · split at h
      · cases h
      · obtain ⟨members, hmembers, rfl⟩ := exists_of_map_eq_ok h
        obtain ⟨inner, rfl, hinner⟩ := hsound _ rfl
        exact .ofMembers (forall_of_scanObject hinner hmembers)

theorem Sound.of_scanNested {levels : Nat} {s : Bytes} {found : Json × Bytes}
    (h : scanNested levels s = .ok found) : Sound levels found.1 := by
  induction levels generalizing s found with
  | zero => exact .of_scanDocument (fun scanner hscanner => by cases hscanner) h
  | succ levels ih =>
      refine .of_scanDocument (fun scanner hscanner => ?_) h
      obtain rfl := Option.some.inj hscanner
      exact ⟨levels, rfl, ih⟩

/-- Every document that was read is sound. -/
theorem Sound.of_read {s : Bytes} {document : Json} (h : read s = .ok document) :
    Sound nestingLimit document := by
  obtain ⟨found, hfound, hrest⟩ := exists_of_bind_eq_ok h
  obtain ⟨-, -, hdocument⟩ := exists_of_bind_eq_ok hrest
  obtain rfl := Except.ok.inj hdocument
  exact .of_scanNested hfound

end AttributeExchange.Json
