import AttributeExchange.Failure
import AttributeExchange.Proofs.Settings.Setting
import Mathlib.Data.List.ReduceOption
import Mathlib.Tactic.SplitIfs

/-!
# Reading settings over the defaults

An object sets the fields that occur in it and leaves the others at their defaults, in whatever
order its members come and whatever else is among them. A list sets the fields that come first. No
object in which a field occurs twice is read.
-/

namespace AttributeExchange.Settings

open AttributeExchange.Json (Blank Ends IsValue ListText ObjectText Padded WrittenMember
  further further_cons skipBlanks
  skipBlanks_cons skipBlanks_member)
open AttributeExchange.Json.StringLiteral (IsContent Spells)

/-! ## Members -/

theorem Field.ofName?_name (field : Field) : Field.ofName? field.name = some field := by
  cases field <;> rfl

/-- What a member sets: the field of its name with a value of its type, or nothing if no field has
that name. -/
inductive Sets : WrittenMember → Option Setting → Prop where
  | known {member : WrittenMember} (setting : Setting)
      (hname : Spells member.name setting.field.name.toList)
      (hvalue : member.value.text = setting.text) : Sets member (some setting)
  | unknown {member : WrittenMember} {name : String} (hname : Spells member.name name.toList)
      (hunknown : Field.ofName? name = none) (hvalue : IsValue member.value.text) :
      Sets member none

/-- A member is taken off the front as far as its value, and what it sets is added. -/
theorem Sets.scan {member : WrittenMember} {made : Option Setting} (h : Sets member made)
    {overlay : Overlay} (hfresh : ∀ setting ∈ made, overlay.has setting.field = false) :
    ∃ name : String,
      (∀ s, Json.StringLiteral.scan (member.name ++ ascii '\x22' :: s) = .ok (name, s)) ∧
      ∀ parts s,
        scanMember overlay name (member.between ++ ascii ':' ::
            (member.value.bytes ++ (further parts ++ ascii '\x7d' :: s))) =
          .ok (Setting.setAll made.toList overlay,
            member.value.after ++ (further parts ++ ascii '\x7d' :: s)) := by
  have hscan : ∀ name : String, Spells member.name name.toList →
      ∀ s, Json.StringLiteral.scan (member.name ++ ascii '\x22' :: s) = .ok (name, s) := by
    intro name hname s
    rw [hname.scan_eq, String.ofList_toList]
  cases h with
  | known setting hname hvalue =>
      refine ⟨setting.field.name, hscan _ hname, fun parts s => ?_⟩
      have hends := Json.ends_after_part member.value.blank_after (.inr rfl) parts s
      have hnew : ¬ overlay.has setting.field = true := by simp [hfresh setting rfl]
      simp only [scanMember, Field.ofName?_name]
      rw [if_neg hnew, member.blank_between.scanColon, Padded.bytes, List.append_assoc,
        List.append_assoc, hvalue]
      simp only [lift, Except.mapError, bind, Except.bind]
      rw [scanField_blanks _ _ member.value.blank_before, scanField_text setting overlay hends]
      rfl
  | @unknown name hname hunknown hvalue =>
      refine ⟨name, hscan _ hname, fun parts s => ?_⟩
      have hends := Json.ends_after_part member.value.blank_after (.inr rfl) parts s
      simp only [scanMember, hunknown]
      rw [member.blank_between.scanColon, Padded.bytes, List.append_assoc, List.append_assoc]
      simp only [lift, Except.mapError, bind, Except.bind,
        hvalue.skipDocument_append member.value.blank_before hends]
      rfl

/-! ## Objects -/

/-- That these settings can be added: no field is among them twice, and none has been set. -/
def Addable (given : List Setting) (overlay : Overlay) : Prop :=
  (given.map Setting.field).Nodup ∧ ∀ setting ∈ given, overlay.has setting.field = false

theorem Addable.fresh {setting : Setting} {given : List Setting} {overlay : Overlay}
    (h : Addable (setting :: given) overlay) : overlay.has setting.field = false :=
  h.2 setting List.mem_cons_self

theorem Addable.rest {setting : Setting} {given : List Setting} {overlay : Overlay}
    (h : Addable (setting :: given) overlay) : Addable given (setting.set overlay) := by
  obtain ⟨hdistinct, hfresh⟩ := h
  rw [List.map_cons, List.nodup_cons] at hdistinct
  refine ⟨hdistinct.2, fun other hother => ?_⟩
  rw [Setting.has_set, hfresh other (List.mem_cons_of_mem setting hother), Bool.or_false,
    decide_eq_false_iff_not]
  intro hfield
  exact hdistinct.1 (hfield ▸ List.mem_map_of_mem hother)

theorem addable_empty {given : List Setting} (h : (given.map Setting.field).Nodup) :
    Addable given .empty := by
  refine ⟨h, fun setting _ => ?_⟩
  cases setting.field <;> rfl

theorem flush_append (member : WrittenMember) (s : Bytes) :
    member.flush.bytes ++ s = ascii '\x22' :: (member.name ++ ascii '\x22' ::
      (member.between ++ ascii ':' :: (member.value.bytes ++ s))) := by
  simp [WrittenMember.bytes, WrittenMember.flush]

/-- What comes after a member: the end of the object, or a comma and further members. -/
def goOn (turns : Nat) (overlay : Overlay) (s : Bytes) : Except ReadError (Overlay × Bytes) :=
  match skipBlanks s with
  | [] => .error (.malformed .endInObject)
  | b :: rest =>
    if b = ascii '\x7d' then .ok (overlay, rest)
    else if b = ascii ',' then
      match skipBlanks rest with
      | [] => .error (.malformed .endInValue)
      | c :: rest =>
        if c = ascii '\x7d' then .error (.malformed .trailingComma)
        else scanMembers turns overlay (c :: rest)
    else .error (.malformed .expectedCommaOrBrace)

theorem goOn_blanks (turns : Nat) (overlay : Overlay) {blanks : Bytes} (h : Blank blanks)
    (s : Bytes) : goOn turns overlay (blanks ++ s) = goOn turns overlay s := by
  rw [goOn, goOn, h.skipBlanks_append]

section Member

variable {member : WrittenMember} {name : String} {overlay later : Overlay} {parts : List Bytes}
  {s : Bytes}
  (hname : Json.StringLiteral.scan (member.name ++ ascii '\x22' :: (member.between ++ ascii ':' ::
      (member.value.bytes ++ (further parts ++ ascii '\x7d' :: s)))) =
    .ok (name, member.between ++ ascii ':' ::
      (member.value.bytes ++ (further parts ++ ascii '\x7d' :: s))))
  (hmember : scanMember overlay name (member.between ++ ascii ':' ::
      (member.value.bytes ++ (further parts ++ ascii '\x7d' :: s))) =
    .ok (later, member.value.after ++ (further parts ++ ascii '\x7d' :: s)))

include hname hmember

theorem scanMembers_member (turns : Nat) :
    scanMembers (turns + 1) overlay
        (member.flush.bytes ++ (further parts ++ ascii '\x7d' :: s)) =
      goOn turns later (further parts ++ ascii '\x7d' :: s) := by
  rw [flush_append, scanMembers, if_neg (by simp), hname]
  simp only [lift, Except.mapError, bind, Except.bind]
  rw [hmember]
  exact goOn_blanks turns later member.value.blank_after _

theorem scanMembers_last (hparts : parts = []) (turns : Nat) :
    scanMembers (turns + 1) overlay (member.flush.bytes ++ (further parts ++ ascii '\x7d' :: s)) =
      .ok (later, s) := by
  subst hparts
  rw [scanMembers_member hname hmember, further, List.flatMap_nil, List.nil_append, goOn,
    skipBlanks_cons (by decide)]
  exact if_pos rfl

theorem scanMembers_next {next : WrittenMember} {more : List Bytes}
    (hparts : parts = next.bytes :: more) (turns : Nat) :
    scanMembers (turns + 1) overlay (member.flush.bytes ++ (further parts ++ ascii '\x7d' :: s)) =
      scanMembers turns later (next.flush.bytes ++ (further more ++ ascii '\x7d' :: s)) := by
  subst hparts
  rw [scanMembers_member hname hmember, further_cons, List.cons_append, List.append_assoc, goOn,
    skipBlanks_cons (by decide)]
  simp only
  rw [if_neg (by decide), if_pos trivial, skipBlanks_member]
  exact if_neg (by decide)

end Member

theorem setAll_cons (made : Option Setting) (others : List (Option Setting)) (overlay : Overlay) :
    Setting.setAll (made :: others).reduceOption overlay =
      Setting.setAll others.reduceOption (Setting.setAll made.toList overlay) := by
  cases made <;> rfl

theorem Addable.first {made : Option Setting} {others : List (Option Setting)} {overlay : Overlay}
    (h : Addable (made :: others).reduceOption overlay) :
    (∀ setting ∈ made, overlay.has setting.field = false) ∧
      Addable others.reduceOption (Setting.setAll made.toList overlay) := by
  cases made with
  | none => exact ⟨nofun, h⟩
  | some setting =>
      rw [List.reduceOption_cons_of_some] at h
      refine ⟨fun other hother => ?_, h.rest⟩
      obtain rfl := Option.some.inj hother
      exact h.fresh

/-- The members of an object are taken off the front, and what they set is added in their order. -/
theorem scanMembers_append {first : WrittenMember} {more : List WrittenMember}
    {sets : List (Option Setting)} (hsets : List.Forall₂ Sets (first :: more) sets)
    {overlay : Overlay} (hnew : Addable sets.reduceOption overlay) {turns : Nat}
    (hturns : more.length < turns) (s : Bytes) :
    scanMembers turns overlay
        (first.flush.bytes ++ (further (more.map WrittenMember.bytes) ++ ascii '\x7d' :: s)) =
      .ok (Setting.setAll sets.reduceOption overlay, s) := by
  induction more generalizing first sets overlay turns with
  | nil =>
      cases hsets with
      | @cons _ made _ others hfirst hmore =>
          cases hmore
          obtain ⟨name, hname, hmember⟩ := hfirst.scan hnew.first.1
          obtain ⟨turns, rfl⟩ := Nat.exists_eq_add_one_of_ne_zero (Nat.ne_zero_of_lt hturns)
          rw [List.map_nil, scanMembers_last (hname _) (hmember _ s) rfl, setAll_cons]
          rfl
  | cons next more ih =>
      cases hsets with
      | @cons _ made _ others hfirst hmore =>
          obtain ⟨name, hname, hmember⟩ := hfirst.scan hnew.first.1
          obtain ⟨turns, rfl⟩ := Nat.exists_eq_add_one_of_ne_zero (Nat.ne_zero_of_lt hturns)
          rw [List.map_cons, scanMembers_next (hname _) (hmember _ s) rfl, setAll_cons]
          exact ih hmore hnew.first.2 (Nat.lt_of_succ_lt_succ hturns)

theorem whole_ok {α : Type} (value : α) {after : Bytes} (h : Blank after) :
    whole (.ok (value, after)) = .ok value := by
  simp [whole, h.scanEnd_eq_ok, lift, Except.mapError, bind, Except.bind]
  rfl

theorem scanOverlay_brace {before : Bytes} (h : Blank before) (s : Bytes) :
    scanOverlay (before ++ ascii '\x7b' :: s) = scanObject s := by
  rw [scanOverlay, h.skipBlanks_append_cons (by decide)]
  exact if_pos rfl

theorem scanOverlay_bracket {before : Bytes} (h : Blank before) (s : Bytes) :
    scanOverlay (before ++ ascii '[' :: s) = scanList s := by
  rw [scanOverlay, h.skipBlanks_append_cons (by decide)]
  exact (if_neg (by decide)).trans (if_pos rfl)

theorem scanObject_member (member : WrittenMember) (s : Bytes) :
    scanObject (member.bytes ++ s) =
      scanMembers (member.flush.bytes ++ s).length .empty (member.flush.bytes ++ s) := by
  rw [scanObject, skipBlanks_member]
  exact if_neg (by decide)

theorem scanOverlay_objectText {members : List WrittenMember} {s : Bytes}
    (h : ObjectText members s) {sets : List (Option Setting)}
    (hsets : List.Forall₂ Sets members sets)
    (hdistinct : (sets.reduceOption.map Setting.field).Nodup) :
    whole (scanOverlay s) = .ok (Setting.setAll sets.reduceOption .empty) := by
  cases h with
  | empty hbefore hblanks hafter =>
      cases hsets
      rw [scanOverlay_brace hbefore, scanObject, hblanks.skipBlanks_append_cons (by decide)]
      exact whole_ok _ hafter
  | @members before after hbefore first more hafter =>
      have hturns := Json.length_lt_of_further first.flush.bytes (more.map WrittenMember.bytes)
        (ascii '\x7d') after
      rw [List.length_map] at hturns
      rw [scanOverlay_brace hbefore, scanObject_member,
        scanMembers_append hsets (addable_empty hdistinct) hturns]
      exact whole_ok _ hafter

/-! ## Lists -/

theorem scanField_padded {part : Padded} {setting : Setting} (htext : part.text = setting.text)
    (overlay : Overlay) (parts : List Bytes) (s : Bytes) :
    ∃ b rest, skipBlanks (part.bytes ++ (further parts ++ ascii ']' :: s)) = b :: rest ∧
      b ≠ ascii ']' ∧ scanField overlay (b :: rest) setting.field =
        .ok (setting.set overlay, part.after ++ (further parts ++ ascii ']' :: s)) := by
  have hvalue : IsValue part.text := htext ▸ setting.isValue_text
  have hends := Json.ends_after_part part.blank_after (.inl rfl) parts s
  obtain ⟨b, rest, hskip, hflush, hclose⟩ := Json.skipBlanks_padded hvalue
    (further parts ++ ascii ']' :: s)
  refine ⟨b, rest, hskip, hclose, ?_⟩
  rw [← hflush, ← scanField_text setting overlay hends]
  simp [Padded.bytes, Padded.flush, htext]

/-- The values after the first one are taken off the front, each for the next field. -/
theorem scanFurther_append {parts : List Padded} {given : List Setting}
    (htexts : List.Forall₂ (fun part setting => part.text = setting.text) parts given)
    {fields : List Field} (hfields : given.map Setting.field <+: fields) (overlay : Overlay)
    {blanks : Bytes} (hblanks : Blank blanks) (s : Bytes) :
    scanFurther fields overlay
        (blanks ++ (further (parts.map Padded.bytes) ++ ascii ']' :: s)) =
      .ok (Setting.setAll given overlay, s) := by
  induction htexts generalizing fields overlay blanks with
  | nil =>
      have hskip : skipBlanks (blanks ++ (further ([].map Padded.bytes) ++ ascii ']' :: s)) =
          ascii ']' :: s := hblanks.skipBlanks_append_cons (by decide) s
      cases fields with
      | nil =>
          rw [scanFurther, scanListEnd, hskip]
          rfl
      | cons field fields =>
          rw [scanFurther, hskip]
          rfl
  | @cons part setting parts given htext _ ih =>
      cases fields with
      | nil => cases List.prefix_nil.mp hfields
      | cons field fields =>
          rw [List.map_cons, List.cons_prefix_cons] at hfields
          obtain ⟨rfl, hfields⟩ := hfields
          obtain ⟨b, rest, hskip, hclose, hfield⟩ :=
            scanField_padded htext overlay (parts.map Padded.bytes) s
          rw [scanFurther, List.map_cons, further_cons, List.cons_append, List.append_assoc,
            hblanks.skipBlanks_append_cons (by decide)]
          simp only
          rw [if_neg (by decide), if_pos trivial, hskip]
          simp only [if_neg hclose, hfield, bind, Except.bind]
          exact ih hfields _ part.blank_after

theorem scanOverlay_listText {parts : List Padded} {s : Bytes} (h : ListText parts s)
    {given : List Setting}
    (htexts : List.Forall₂ (fun part setting => part.text = setting.text) parts given)
    (hfields : given.map Setting.field <+: Field.all) :
    whole (scanOverlay s) = .ok (Setting.setAll given .empty) := by
  cases h with
  | empty hbefore hblanks hafter =>
      cases htexts
      rw [scanOverlay_bracket hbefore, scanList, hblanks.skipBlanks_append_cons (by decide)]
      exact whole_ok _ hafter
  | @parts before after hbefore first more hafter =>
      cases htexts with
      | @cons _ setting _ given htext hmore =>
          rw [List.map_cons, Field.all, List.cons_prefix_cons] at hfields
          obtain ⟨hfirst, hfields⟩ := hfields
          obtain ⟨b, rest, hskip, hclose, hfield⟩ :=
            scanField_padded htext .empty (more.map Padded.bytes) after
          rw [hfirst] at hfield
          rw [scanOverlay_bracket hbefore, scanList, hskip]
          simp only [if_neg hclose, hfield, bind, Except.bind]
          have hfurther : scanFurther Field.all.tail (setting.set .empty) (first.after ++
              (further (more.map Padded.bytes) ++ ascii ']' :: after)) =
                .ok (Setting.setAll given (setting.set .empty), after) :=
            scanFurther_append hmore hfields _ first.blank_after after
          rw [hfurther]
          exact whole_ok _ hafter

/-! ## Fields that occur twice -/

def Names (member : WrittenMember) (field : Field) : Prop :=
  Spells member.name field.name.toList

/-- A member by its form is refused or taken off the front as far as its value. Then its field, if
its name is of one, had not been set and is set now. -/
theorem scanMember_rest {member : WrittenMember} (hvalue : IsValue member.value.text)
    {overlay later : Overlay} {name : String} {parts : List Bytes} {s rest : Bytes}
    (hscan : scanMember overlay name (member.between ++ ascii ':' ::
        (member.value.bytes ++ (further parts ++ ascii '\x7d' :: s))) = .ok (later, rest)) :
    rest = member.value.after ++ (further parts ++ ascii '\x7d' :: s) ∧
      (∀ field, overlay.has field = true → later.has field = true) ∧
      ∀ field, Field.ofName? name = some field →
        overlay.has field = false ∧ later.has field = true := by
  have hends := Json.ends_after_part member.value.blank_after (.inr rfl) parts s
  rw [scanMember, member.blank_between.scanColon, Padded.bytes, List.append_assoc,
    List.append_assoc] at hscan
  cases hfield : Field.ofName? name with
  | none =>
      rw [hfield] at hscan
      simp only [lift, Except.mapError, bind, Except.bind,
        hvalue.skipDocument_append member.value.blank_before hends] at hscan
      cases hscan
      exact ⟨rfl, fun _ hhas => hhas, by simp⟩
  | some field =>
      rw [hfield] at hscan
      simp only [lift, Except.mapError, bind, Except.bind,
        scanField_blanks _ _ member.value.blank_before] at hscan
      split_ifs at hscan with hhas
      obtain ⟨hrest, hset⟩ := scanField_rest hvalue hends hscan
      refine ⟨hrest, fun other hother => hset other (.inr hother), fun other hother => ?_⟩
      obtain rfl := Option.some.inj hother
      exact ⟨by simpa using hhas, hset field (.inl rfl)⟩

theorem exists_of_scanMembers {member : WrittenMember} (hname : IsContent member.name)
    (hvalue : IsValue member.value.text) {turns : Nat} {overlay : Overlay} {parts : List Bytes}
    {s : Bytes} {found : Overlay × Bytes}
    (hscan : scanMembers (turns + 1) overlay
        (member.flush.bytes ++ (further parts ++ ascii '\x7d' :: s)) = .ok found) :
    ∃ name later,
      Json.StringLiteral.scan (member.name ++ ascii '\x22' :: (member.between ++ ascii ':' ::
          (member.value.bytes ++ (further parts ++ ascii '\x7d' :: s)))) =
        .ok (name, member.between ++ ascii ':' ::
          (member.value.bytes ++ (further parts ++ ascii '\x7d' :: s))) ∧
      scanMember overlay name (member.between ++ ascii ':' ::
          (member.value.bytes ++ (further parts ++ ascii '\x7d' :: s))) =
        .ok (later, member.value.after ++ (further parts ++ ascii '\x7d' :: s)) := by
  rw [flush_append, scanMembers, if_neg (by simp)] at hscan
  obtain ⟨⟨name, left⟩, hlift, hrest⟩ := exists_of_bind_eq_ok hscan
  have hliteral := eq_ok_of_mapError_eq_ok hlift
  obtain rfl := hname.scan_rest hliteral
  obtain ⟨⟨later, last⟩, hmember, -⟩ := exists_of_bind_eq_ok hrest
  obtain ⟨rfl, -⟩ := scanMember_rest hvalue hmember
  exact ⟨name, later, hliteral, hmember⟩

theorem distinct_of_scanMembers {first : WrittenMember} {more : List WrittenMember}
    (hnames : ∀ member ∈ first :: more, IsContent member.name)
    (hvalues : ∀ member ∈ first :: more, IsValue member.value.text) {turns : Nat}
    {overlay : Overlay} {s : Bytes} {found : Overlay × Bytes}
    (hscan : scanMembers turns overlay
        (first.flush.bytes ++ (further (more.map WrittenMember.bytes) ++ ascii '\x7d' :: s)) =
      .ok found) :
    (∀ member ∈ first :: more, ∀ field, Names member field → overlay.has field = false) ∧
      (first :: more).Pairwise fun a b => ∀ field, Names a field → ¬ Names b field := by
  induction turns generalizing first more overlay with
  | zero => cases hscan
  | succ turns ih =>
      have hfirst := hnames first List.mem_cons_self
      have hvalue := hvalues first List.mem_cons_self
      obtain ⟨name, later, hname, hmember⟩ := exists_of_scanMembers hfirst hvalue hscan
      obtain ⟨-, hkept, hset⟩ := scanMember_rest hvalue hmember
      have hown : ∀ field, Names first field →
          overlay.has field = false ∧ later.has field = true := by
        intro field hfield
        have hspelled := hfield.scan_eq
        rw [hspelled, String.ofList_toList] at hname
        obtain ⟨rfl, -⟩ := Prod.mk.inj (Except.ok.inj hname)
        exact hset field (Field.ofName?_name field)
      cases more with
      | nil =>
          exact ⟨List.forall_mem_singleton.mpr fun field hfield => (hown field hfield).1,
            List.pairwise_singleton _ _⟩
      | cons next more =>
          rw [scanMembers_next hname hmember rfl] at hscan
          obtain ⟨hnew, hdistinct⟩ := ih
            (fun member hmore => hnames member (List.mem_cons_of_mem first hmore))
            (fun member hmore => hvalues member (List.mem_cons_of_mem first hmore)) hscan
          refine ⟨List.forall_mem_cons.mpr ⟨fun field hfield => (hown field hfield).1, ?_⟩,
            List.pairwise_cons.mpr ⟨?_, hdistinct⟩⟩
          · intro member hmore field hfield
            have hlater := hnew member hmore field hfield
            cases hhas : overlay.has field with
            | false => rfl
            | true => rw [hkept field hhas] at hlater; cases hlater
          · intro member hmore field hfield hother
            have hfalse := hnew member hmore field hother
            rw [(hown field hfield).2] at hfalse
            cases hfalse

theorem scanOverlay_twice {members : List WrittenMember} {s : Bytes} (h : ObjectText members s)
    (hnames : ∀ member ∈ members, IsContent member.name)
    (hvalues : ∀ member ∈ members, IsValue member.value.text) {a b : WrittenMember}
    (hboth : [a, b].Sublist members) {field : Field} (ha : Names a field) (hb : Names b field) :
    ∃ fault, whole (scanOverlay s) = .error fault := by
  cases hread : whole (scanOverlay s) with
  | error fault => exact ⟨fault, rfl⟩
  | ok overlay =>
      exfalso
      cases h with
      | empty => cases hboth
      | @members before after hbefore first more hafter =>
          obtain ⟨found, hscan, -⟩ := exists_of_bind_eq_ok hread
          rw [scanOverlay_brace hbefore, scanObject_member] at hscan
          obtain ⟨-, hdistinct⟩ := distinct_of_scanMembers hnames hvalues hscan
          exact List.pairwise_iff_forall_sublist.mp hdistinct hboth field ha hb

/-! ## Texts -/

theorem ofText_of_scanOverlay {text : String} {overlay : Overlay}
    (h : whole (scanOverlay (utf8 text)) = .ok overlay) :
    ofText text = .ok (overlay.onto default) := by
  rw [ofText, read, h]
  rfl

theorem ofText_objectText {text : String} {members : List WrittenMember}
    (h : ObjectText members (utf8 text)) {sets : List (Option Setting)}
    (hsets : List.Forall₂ Sets members sets)
    (hdistinct : (sets.reduceOption.map Setting.field).Nodup) :
    ofText text = .ok (Setting.overlaid sets.reduceOption) := by
  rw [ofText_of_scanOverlay (scanOverlay_objectText h hsets hdistinct),
    Setting.onto_setAll_empty]

/-- Settings are read over the defaults. An object sets the fields that occur in it, in any order
and with any other members among them, and two objects that set the same say the same. A timeout
that is left out is five seconds, and a comma after the last key that is left out is wanted. An
object in which a field occurs twice is refused, whatever else is in it. A list sets the fields that
come first. -/
theorem ofText_sets_fields :
    (∀ text members sets, ObjectText members (utf8 text) → List.Forall₂ Sets members sets →
      (sets.reduceOption.map Setting.field).Nodup →
      ofText text = .ok (Setting.overlaid sets.reduceOption)) ∧
    (∀ text other members otherMembers sets otherSets, ObjectText members (utf8 text) →
      ObjectText otherMembers (utf8 other) → List.Forall₂ Sets members sets →
      List.Forall₂ Sets otherMembers otherSets → (sets.reduceOption.map Setting.field).Nodup →
      sets.reduceOption.Perm otherSets.reduceOption → ofText text = ofText other) ∧
    (∀ given : List Setting, (.timeout ∉ given.map Setting.field →
        (Setting.overlaid given).timeout = some (.ofSeconds 5)) ∧
      (.trailingComma ∉ given.map Setting.field →
        (Setting.overlaid given).trailingComma = true)) ∧
    (∀ text members a b field, ObjectText members (utf8 text) →
      (∀ member ∈ members, IsContent member.name ∧ IsValue member.value.text) →
      [a, b].Sublist members → Names a field → Names b field →
      ∃ failure, ofText text = .error failure) ∧
    ∀ text parts given, ListText parts (utf8 text) →
      List.Forall₂ (fun part setting => part.text = setting.text) parts given →
      given.map Setting.field <+: Field.all → ofText text = .ok (Setting.overlaid given) := by
  refine ⟨fun text members sets htext => ofText_objectText htext, ?_, fun given =>
    ⟨Setting.timeout_overlaid_of_absent, Setting.trailingComma_overlaid_of_absent⟩, ?_, ?_⟩
  · intro text other members otherMembers sets otherSets htext hother hsets hotherSets hdistinct
      hperm
    have hdistinctOther := (hperm.map Setting.field).nodup_iff.mp hdistinct
    rw [ofText_objectText htext hsets hdistinct, ofText_objectText hother hotherSets hdistinctOther,
      Setting.overlaid_perm hperm hdistinct]
  · intro text members a b field htext hforms hboth ha hb
    obtain ⟨fault, hfault⟩ := scanOverlay_twice htext
      (fun member hmember => (hforms member hmember).1)
      (fun member hmember => (hforms member hmember).2) hboth ha hb
    exact ⟨.internal (.badSettings fault), by rw [ofText, read, hfault]; rfl⟩
  · intro text parts given htext htexts hfields
    rw [ofText_of_scanOverlay (scanOverlay_listText htext htexts hfields),
      Setting.onto_setAll_empty]

theorem ofText_sets_fields_mixed :
    ofText "\x7b\"x\":true,\"max_attributes\":5,\"request_timeout\":null\x7d" =
        .ok { default with maxKeys := some 5, timeout := none } ∧
      ofText "\x7b\"x\":true,\"max_attributes\":5,\"request_timeout\":null\x7d" =
        ofText "\x7b\"request_timeout\":null,\"max_attributes\":5\x7d" ∧
      (∃ failure, ofText "\x7b\"debug\":true,\"debug\":true\x7d" = .error failure) ∧
      ofText "[null,250]" = .ok { default with timeout := some (.ofMillis 250) } := by
  have hspells : ∀ name : String, name.toList.all (decide <| Json.StringLiteral.IsPlain ·) = true →
      Spells (encoded name.toList) name.toList := by
    intro name hname
    exact Json.StringLiteral.spells_of_plain fun c hc =>
      of_decide_eq_true (List.all_eq_true.mp hname c hc)
  have hkeys := hspells "max_attributes" (by decide)
  have htimeout := hspells "request_timeout" (by decide)
  have hdebug := hspells "debug" (by decide)
  have hforeign : Sets (.tight (encoded "x".toList) (flagText true)) none :=
    .unknown (hspells "x" (by decide)) rfl .yes
  have hbound : Sets (.tight (encoded "max_attributes".toList) (numberText (some 5)))
      (some ⟨.maxKeys, some 5⟩) := .known ⟨.maxKeys, some 5⟩ hkeys rfl
  have hnone : Sets (.tight (encoded "request_timeout".toList) (numberText none))
      (some ⟨.timeout, none⟩) := .known ⟨.timeout, none⟩ htimeout rfl
  have htext : ObjectText _
      (utf8 "\x7b\"x\":true,\"max_attributes\":5,\"request_timeout\":null\x7d") :=
    .members .nil (.tight (encoded "x".toList) (flagText true))
      [.tight (encoded "max_attributes".toList) (numberText (some 5)),
        .tight (encoded "request_timeout".toList) (numberText none)] .nil
  have hother : ObjectText _ (utf8 "\x7b\"request_timeout\":null,\"max_attributes\":5\x7d") :=
    .members .nil (.tight (encoded "request_timeout".toList) (numberText none))
      [.tight (encoded "max_attributes".toList) (numberText (some 5))] .nil
  have hdebugs : ObjectText _ (utf8 "\x7b\"debug\":true,\"debug\":true\x7d") :=
    .members .nil (.tight (encoded "debug".toList) (flagText true))
      [.tight (encoded "debug".toList) (flagText true)] .nil
  have hvalues : ListText _ (utf8 "[null,250]") :=
    .parts .nil (.tight (numberText none)) [.tight (numberText (some 250))] .nil
  obtain ⟨hobject, hsame, -, htwice, hlist⟩ := ofText_sets_fields
  have hforms : ∀ member ∈ List.replicate 2 (WrittenMember.tight (encoded "debug".toList)
      (flagText true)), IsContent member.name ∧ IsValue member.value.text := by
    intro member hmember
    obtain rfl := List.eq_of_mem_replicate hmember
    exact ⟨hdebug.isContent, .yes⟩
  refine ⟨hobject _ _ _ htext (.cons hforeign (.cons hbound (.cons hnone .nil))) (by decide),
    hsame _ _ _ _ _ _ htext hother (.cons hforeign (.cons hbound (.cons hnone .nil)))
      (.cons hnone (.cons hbound .nil)) (by decide) (.swap _ _ _),
    htwice _ _ _ _ .verbose hdebugs hforms (.refl _) hdebug hdebug,
    hlist _ _ [⟨.maxWaiting, none⟩, ⟨.timeout, some 250⟩] hvalues (.cons rfl (.cons rfl .nil))
      (by decide)⟩

/-- A name is read as a text, so an unpaired surrogate in it is refused, though the object has the
right form and sets no field. -/
theorem unpaired_name_refused :
    ¬ ∀ text members, ObjectText members (utf8 text) →
      (∀ member ∈ members, IsContent member.name ∧ IsValue member.value.text ∧
        ∀ field, ¬ Names member field) → ofText text = .ok default := by
  intro hclaim
  have hrefused : ofText "\x7b\"\\ud800\":true\x7d" =
      .error (.internal (.badSettings (.malformed .endInHexEscape))) := rfl
  have hdigit : ∀ v < 16, Json.StringLiteral.IsHexDigit (ascii v.digitChar) v :=
    fun v hv => ⟨hv, .inl rfl⟩
  have hunit : Json.StringLiteral.IsUnit ("d800".toList.map ascii) 0xD800 :=
    .digits (hdigit 13 (by decide)) (hdigit 8 (by decide)) (hdigit 0 (by decide))
      (hdigit 0 (by decide))
  have htext : ObjectText [.tight ("\\ud800".toList.map ascii) (flagText true)]
      (utf8 "\x7b\"\\ud800\":true\x7d") :=
    .members .nil (.tight ("\\ud800".toList.map ascii) (flagText true)) [] .nil
  rw [hclaim _ _ htext] at hrefused
  · cases hrefused
  · intro member hmember
    obtain rfl := List.mem_singleton.mp hmember
    refine ⟨.unit hunit .nil, .yes, fun field hfield => ?_⟩
    have hread := hfield.scan_eq []
    cases hread

end AttributeExchange.Settings
