import AttributeExchange.Exchange.Peers
import AttributeExchange.Proofs.Inquirer.Submission
import Mathlib.Data.List.Induction

/-!
# Drafts

A draft is told by the last value that was given to each of its fields. Its document and its
publication are made from these values alone and agree: a publication is the document with an id and
its topic. So a document that was made before there was an id is the one that is published.
-/

namespace AttributeExchange

theorem KeyList.anyUsable_eq_false_iff (layout : Layout) (keys : List String) :
    anyUsable keys = false ↔ ∃ defect, (layout.join keys).result = .error (.invalid defect) := by
  rw [layout.result_join, ← Bool.not_eq_true, anyUsable_iff, not_not, Layout.joined]
  by_cases hkeys : usable keys = []
  · simp [hkeys]
  · cases hover : layout.overLimit? (usable keys) with
    | none => simp [hkeys]
    | some fault =>
        have hfault : ∀ defect, fault ≠ .invalid defect := by
          rintro defect rfl
          unfold Layout.overLimit? at hover
          split at hover
          · cases hover
          · split at hover <;> cases hover
        simp [hkeys, hfault]

namespace Draft

/-! ## The last value of a field -/

namespace Change

def keys? : Change → Option (List String)
  | .keys given => some given
  | _ => none

def id? : Change → Option RequestId
  | .id given => some given
  | _ => none

/-- The request member that a change sets, by itself or as that of a scope. -/
def requestMember? : Change → Option String
  | .scope given => some given.requestMember
  | .requestMember given => some given
  | _ => none

def responseMember? : Change → Option String
  | .scope given => some given.responseMember
  | .responseMember given => some given
  | _ => none

def trailingComma? : Change → Option Bool
  | .trailingComma wanted => some wanted
  | _ => none

def limit? : Change → Option (Option Nat)
  | .limit given => some given
  | _ => none

def verbose? : Change → Option Bool
  | .verbose wanted => some wanted
  | _ => none

end Change

def last {α : Type} (field? : Change → Option α) (changes : List Change) : Option α :=
  (changes.filterMap field?).getLast?

theorem last_concat {α : Type} (field? : Change → Option α) (changes : List Change)
    (change : Change) :
    last field? (changes ++ [change]) = (field? change).or (last field? changes) := by
  rw [last, last, List.filterMap_append]
  cases hfield : field? change <;> simp [hfield]

def ofLast (changes : List Change) : Draft where
  keys := (last Change.keys? changes).getD []
  id := last Change.id? changes
  requestMember := last Change.requestMember? changes
  responseMember := last Change.responseMember? changes
  layout :=
    ⟨(last Change.trailingComma? changes).getD true, (last Change.limit? changes).getD none⟩
  verbose := (last Change.verbose? changes).getD false

theorem ofChanges_concat (changes : List Change) (change : Change) :
    ofChanges (changes ++ [change]) = (ofChanges changes).change change :=
  List.foldl_concat ..

/-- Of several values for a field the last one counts, whatever else was set in between. -/
theorem ofChanges_eq_ofLast (changes : List Change) : ofChanges changes = ofLast changes := by
  induction changes using List.reverseRecOn with
  | nil => rfl
  | append_singleton changes change ih =>
      rw [ofChanges_concat, ih, ofLast, ofLast]
      cases change <;> simp [Draft.change, last_concat, Change.keys?, Change.id?,
        Change.requestMember?, Change.responseMember?, Change.trailingComma?, Change.limit?,
        Change.verbose?]

/-! ## Document and publication -/

def unset {α : Type} (value : Option α) (defect : Defect) : List RequestFault :=
  if value.isNone then [.invalid defect] else []

def joinFaults (draft : Draft) : List RequestFault :=
  match draft.joined.result with
  | .ok _ => []
  | .error fault => [fault]

/-- What keeps a draft from being a document, in the order of the checks. -/
def documentFaults (draft : Draft) : List RequestFault :=
  unset draft.requestMember .requestMemberMissing ++
    (unset draft.responseMember .responseMemberMissing ++ draft.joinFaults)

/-- What keeps a draft from being a publication, in the order of the checks. -/
def faults (draft : Draft) : List RequestFault :=
  unset draft.id .idMissing ++ draft.documentFaults

variable {draft : Draft}

theorem payload_eq_ok_iff {document : Json} :
    draft.payload = .ok document ↔
      ∃ field other text, draft.requestMember = some field ∧ draft.responseMember = some other ∧
        draft.joined.result = .ok text ∧ document = .object [(field, .string text)] := by
  rw [payload]
  cases draft.requestMember with
  | none => simp
  | some field =>
      cases draft.responseMember with
      | none => simp
      | some other =>
          cases draft.joined.result with
          | error fault => simp [Except.map]
          | ok text => simp [Except.map, eq_comm]

theorem payload_eq_error_iff {fault : RequestFault} :
    draft.payload = .error fault ↔ draft.documentFaults.head? = some fault := by
  rw [payload, documentFaults, joinFaults]
  cases draft.requestMember with
  | none => simp [unset]
  | some field =>
      cases draft.responseMember with
      | none => simp [unset]
      | some other => cases draft.joined.result <;> simp [unset, Except.map]

theorem publication_eq_ok_iff {publication : Publication} :
    draft.publication = .ok publication ↔
      ∃ id document, draft.id = some id ∧ draft.payload = .ok document ∧
        publication = ⟨id, Topic.request id, document⟩ := by
  rw [Draft.publication]
  cases draft.id with
  | none => simp
  | some id => cases draft.payload <;> simp [Except.map, eq_comm]

theorem publication_of_payload {document : Json} (h : draft.payload = .ok document)
    (id : RequestId) :
    { draft with id := some id }.publication = .ok ⟨id, Topic.request id, document⟩ :=
  publication_eq_ok_iff.mpr ⟨id, document, rfl, h, rfl⟩

theorem publication_eq_error_iff {fault : RequestFault} :
    draft.publication = .error fault ↔ draft.faults.head? = some fault := by
  rw [Draft.publication, faults]
  cases draft.id with
  | none => simp [unset]
  | some id =>
      have hhead : (unset (some id) .idMissing ++ draft.documentFaults).head? = some fault ↔
          draft.payload = .error fault := payload_eq_error_iff.symm
      rw [hhead]
      cases draft.payload <;> simp [Except.map]

end Draft

/-! ## Drafts of submissions -/

namespace Inquirer

variable {σ : Type}

theorem of_check_eq_ok {settings : Settings} {s : Submission} {checked : Checked} {peers : σ}
    (h : ((check settings s).run peers).value = .ok checked) :
    s.ownFault? settings = none ∧ checked = s.checked settings := by
  have hcheck := congrArg (fun step => (step.run peers).value) (deeds_check (σ := σ) settings s)
  dsimp only [Exchange.run_deeds] at hcheck
  rw [h] at hcheck
  cases hown : s.ownFault? settings with
  | some fault =>
      rw [hown] at hcheck
      cases hcheck
  | none =>
      rw [hown] at hcheck
      exact ⟨rfl, Except.ok.inj hcheck⟩

def changesFor (settings : Settings) (keys : List String) (requestMember responseMember : String) :
    List Draft.Change :=
  [.keys keys, .requestMember requestMember, .responseMember responseMember,
    .trailingComma settings.trailingComma, .limit (settings.maxLength.map UInt64.toNat),
    .verbose settings.verbose]

variable [Channel σ] [IdSource σ]

theorem value_identify (q : Inquirer) (checked : Checked) (peers : σ) :
    ((q.identify checked).run peers).value.1 =
      (IdSource.next peers).1.elim (.error .noId) fun id =>
        { checked.draft with id := some id }.publication.map fun publication =>
          ⟨publication, checked.member, checked.inquiry⟩ := by
  rw [identify, Exchange.run_bind, Exchange.run_draw]
  cases (IdSource.next peers).1 with
  | none => simp [refuse]
  | some id =>
      cases hpublication : { checked.draft with id := some id }.publication with
      | error fault => simp [hpublication, refuse, Except.map]
      | ok publication => simp [hpublication, Except.map]

/-- What was checked is published as the document that was checked, whatever id is drawn. -/
theorem exists_document_of_check {settings : Settings} {s : Submission} {checked : Checked}
    {peers : σ} (h : ((check settings s).run peers).value = .ok checked) :
    ∃ requestMember responseMember document, s.requestMember = some requestMember ∧
      s.responseMember = some responseMember ∧
      checked.draft =
        .ofChanges (changesFor settings s.inquiry.keys requestMember responseMember) ∧
      checked.draft.payload = .ok document ∧
      ∀ (q : Inquirer) (others : σ), ((q.identify checked).run others).value.1 =
        (IdSource.next others).1.elim (.error .noId) fun id =>
          .ok ⟨⟨id, Topic.request id, document⟩, checked.member, checked.inquiry⟩ := by
  obtain ⟨hown, rfl⟩ := of_check_eq_ok h
  obtain ⟨⟨requestMember, responseMember, hrequest, hresponse⟩, hjoined⟩ :=
    Submission.of_ownFault?_eq_none hown
  have hdocument : (s.checked settings).draft.payload = _ := settings.payload_draft s _ _
  rw [hjoined] at hdocument
  refine ⟨requestMember, responseMember, _, hrequest, hresponse, ?_, hdocument,
    fun q others => ?_⟩
  · simp only [Submission.checked, hrequest, hresponse, Option.getD_some]
    rfl
  · rw [value_identify]
    congr 1
    funext id
    rw [Draft.publication_of_payload hdocument id]
    rfl

end Inquirer

namespace Draft

/-- The two ways of finishing a draft agree, after any changes in any order. Only the last value of
each field counts, a scope being one of both members. The document is the joined keys under the
request member; the publication is that document with the id and its topic, or the first thing that
is missing. Keys are refused as such exactly if none can be requested. So a document that can be
made before there is an id is published as it is under any id, and a submission that was checked is
never refused after its id was drawn. -/
theorem publication_agrees_with_document {σ : Type} [Channel σ] [IdSource σ]
    (changes : List Change) :
    let draft := ofChanges changes
    draft = ofLast changes ∧
    (∀ document, draft.payload = .ok document ↔
      ∃ field other text, last Change.requestMember? changes = some field ∧
        last Change.responseMember? changes = some other ∧ draft.joined.result = .ok text ∧
        document = .object [(field, .string text)]) ∧
    (∀ publication, draft.publication = .ok publication ↔
      ∃ id document, last Change.id? changes = some id ∧ draft.payload = .ok document ∧
        publication = ⟨id, Topic.request id, document⟩) ∧
    (∀ fault, draft.payload = .error fault ↔ draft.documentFaults.head? = some fault) ∧
    (∀ fault, draft.publication = .error fault ↔ draft.faults.head? = some fault) ∧
    (∀ (keys : List String) (layout : KeyList.Layout), KeyList.anyUsable keys = false ↔
      ∃ defect, (layout.join keys).result = .error (.invalid defect)) ∧
    (∀ document id, draft.payload = .ok document →
      (ofChanges (changes ++ [.id id])).publication = .ok ⟨id, Topic.request id, document⟩) ∧
    ∀ (settings : Settings) (s : Submission) (peers : σ) (checked : Inquirer.Checked),
      ((Inquirer.check settings s).run peers).value = .ok checked →
      ∃ requestMember responseMember document, s.requestMember = some requestMember ∧
        s.responseMember = some responseMember ∧
        checked.draft = ofChanges
          (Inquirer.changesFor settings s.inquiry.keys requestMember responseMember) ∧
        checked.draft.payload = .ok document ∧
        ∀ (q : Inquirer) (others : σ), ((q.identify checked).run others).value.1 =
          (IdSource.next others).1.elim (.error .noId) fun id =>
            .ok ⟨⟨id, Topic.request id, document⟩, checked.member, checked.inquiry⟩ := by
  intro draft
  have hlast : draft = ofLast changes := ofChanges_eq_ofLast changes
  refine ⟨hlast, fun document => ?_, fun publication => ?_, fun _ => payload_eq_error_iff,
    fun _ => publication_eq_error_iff,
    fun keys layout => KeyList.anyUsable_eq_false_iff layout keys,
    fun document id hdocument => ?_,
    fun settings s peers checked hcheck => Inquirer.exists_document_of_check hcheck⟩
  · rw [payload_eq_ok_iff, show draft.requestMember = _ from congrArg Draft.requestMember hlast,
      show draft.responseMember = _ from congrArg Draft.responseMember hlast]
    rfl
  · rw [publication_eq_ok_iff, show draft.id = _ from congrArg Draft.id hlast]
    rfl
  · rw [ofChanges_concat]
    exact publication_of_payload hdocument id

/-- A scope between two request members, keys and ids given twice, and a submission that draws. -/
theorem publication_agrees_with_document_overlapping :
    let changes : List Change :=
      [.requestMember "x", .id 7, .keys ["a"], .scope .shared, .limit (some 2), .keys ["", "é"],
        .requestMember "y", .trailingComma false]
    let document : Json := .object [("y", .string "é")]
    let s : Submission := ⟨⟨0, ["a", ""], none, false, none⟩, some "clientKeys", some "client"⟩
    let peers : Peers Recorder Script := ⟨.new, ⟨[some 3]⟩⟩
    (ofChanges changes).payload = .ok document ∧
      (ofChanges changes).publication = .ok ⟨7, Topic.request 7, document⟩ ∧
      (ofChanges (changes ++ [.id 9])).publication = .ok ⟨9, Topic.request 9, document⟩ ∧
      ((Inquirer.check .default s).run peers).value = .ok (s.checked .default) ∧
      (((Inquirer.new .default).identify (s.checked .default)).run peers).value.1 =
        .ok ⟨⟨3, Topic.request 3, .object [("clientKeys", .string "a,")]⟩, "client",
          s.inquiry⟩ := by
  intro changes document s peers
  obtain ⟨-, hpayload, hpublication, -, -, -, hlater, hsubmitted⟩ :=
    publication_agrees_with_document (σ := Peers Recorder Script) changes
  have hdocument := (hpayload document).mpr ⟨"y", "shared", "é", rfl, rfl, rfl, rfl⟩
  have hcheck : ((Inquirer.check .default s).run peers).value = .ok (s.checked .default) := rfl
  obtain ⟨_, _, sent, -, -, -, hsent, hidentify⟩ :=
    hsubmitted .default s peers (s.checked .default) hcheck
  obtain rfl : sent = .object [("clientKeys", .string "a,")] :=
    (Except.ok.inj (hsent.symm.trans rfl))
  exact ⟨hdocument, (hpublication _).mpr ⟨7, document, rfl, hdocument, rfl⟩,
    hlater document 9 hdocument, hcheck, hidentify (.new .default) peers⟩

end Draft

end AttributeExchange
