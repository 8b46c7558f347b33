import AttributeExchange.Proofs.Inquirer.Answers
import AttributeExchange.Proofs.Inquirer.Move

/-!
# What an answer does

A document that comes in is for a request exactly if its topic spells the id of one that is waited
for. Then the handler of that request runs on the part of the document that it wants, the request is
gone, and the filter is given up if it was the last. Any other document changes nothing.
-/

namespace AttributeExchange

/-- What is wanted of a document under a name: the member of that name if it is an object with one,
otherwise all of it. -/
inductive Json.Wants (name : String) : Json → Json → Prop where
  | member {members : List (String × Json)} {value : Json} (h : members.lookup name = some value) :
      Wants name (.object members) value
  | whole {document : Json}
      (h : ∀ members, document = .object members → members.lookup name = none) :
      Wants name document document

theorem Json.wants_select (name : String) (document : Json) :
    Wants name document (document.select name) := by
  cases hmember : document.member? name with
  | some value =>
      rw [select_of_member hmember]
      cases document with
      | object members => exact .member hmember
      | null | bool | integer | double | string | array => cases hmember
  | none =>
      rw [select_of_no_member hmember]
      refine .whole fun members hobject => ?_
      subst hobject
      exact hmember

namespace Inquirer

/-- That a request was closed by an answer: of all handlers its response handler ran, once, and the
requests before and after it are waited for as they were. Last of all the filter is given up if
there are none. -/
structure ClosedBy {σ : Type} (q : Inquirer) (before : List OpenRequest) (request : OpenRequest)
    (after : List OpenRequest) (value : Json) (outcome : Outcome σ (Receipt × Inquirer)) :
    Prop where
  waiting : q.outstanding.requests = before ++ request :: after
  only : request.id ∉ (before ++ after).map (·.id)
  runs : Event.runs outcome.events = [.answered request.inquiry.tag value]
  made : Event.made outcome.events =
    if before ++ after = [] then [.unsubscribe Topic.responseFilter] else []
  deeds : ∃ passed accepted, Event.deeds outcome.events =
    .answered request.inquiry.tag value ::
      (forwardDeeds request.inquiry value passed ++ releaseDeeds (before ++ after) accepted)
  left : outcome.value.2 =
    { q with
      outstanding.requests := before ++ after
      subscription.held := !(before ++ after).isEmpty }

theorem Orderly.not_mem_ids_append {before after : List OpenRequest} {request : OpenRequest}
    (h : Orderly (before ++ request :: after)) : request.id ∉ (before ++ after).map (·.id) := by
  have hids : ((request :: (before ++ after)).map (·.id)).Nodup :=
    (List.perm_middle.map _).nodup_iff.mp h.ids
  exact (List.nodup_cons.mp hids).1

theorem Orderly.eraseP_append {before after : List OpenRequest} {request : OpenRequest}
    (h : Orderly (before ++ request :: after)) :
    (before ++ request :: after).eraseP (·.id = request.id) = before ++ after := by
  have hbefore : ∀ other ∈ before, ¬ decide (other.id = request.id) = true := by
    intro other hother hid
    apply h.not_mem_ids_append
    rw [← of_decide_eq_true hid]
    exact List.mem_map_of_mem (List.mem_append_left after hother)
  rw [List.eraseP_append_right (request :: after) hbefore, List.eraseP_cons_of_pos (by simp)]

/-- The addressee of a topic is the request whose id the topic spells. -/
theorem exists_addressee?_iff {requests : List OpenRequest} (h : Orderly requests) {topic : String}
    {id : RequestId} :
    (∃ request, addressee? requests topic = some request ∧ request.id = id) ↔
      Topic.Spells Topic.responseBase topic id ∧ id ∈ requests.map (·.id) := by
  rw [← Topic.parseId?_eq_some_iff, List.mem_map]
  constructor
  · rintro ⟨request, hsome, rfl⟩
    obtain ⟨hmem, hparse⟩ := (addressee?_eq_some_iff h).mp hsome
    exact ⟨hparse, request, hmem, rfl⟩
  · rintro ⟨hparse, request, hmem, rfl⟩
    exact ⟨request, (addressee?_eq_some_iff h).mpr ⟨hmem, hparse⟩, rfl⟩

section Receive

variable {σ : Type} [Channel σ] {requests : List OpenRequest} {topic : String}

theorem run_receive_of_unaddressed (settings : Settings) (h : Orderly requests)
    (hnone : addressee? requests topic = none) (document : Json) (peers : σ) :
    let outcome := ((waitingFor settings requests).receive topic document).run peers
    outcome.value = (.unknown, waitingFor settings requests) ∧ outcome.peers = peers ∧
      Event.deeds outcome.events = [] := by
  have hrun := congrArg (·.run peers) (deeds_receive (σ := σ) settings h.members topic document)
  rw [hnone] at hrun
  exact ⟨congrArg Outcome.value hrun, congrArg Outcome.peers hrun, congrArg Outcome.events hrun⟩

theorem run_receive_of_addressee (settings : Settings) (h : Orderly requests)
    {request : OpenRequest} (hsome : addressee? requests topic = some request) (document : Json)
    (peers : σ) :
    let outcome := ((waitingFor settings requests).receive topic document).run peers
    outcome.value.1 = .answered request.id ∧ ∃ before after,
      ClosedBy (waitingFor settings requests) before request after (request.wanted document)
        outcome := by
  intro outcome
  have hmem : request ∈ requests := ((addressee?_eq_some_iff h).mp hsome).1
  obtain ⟨before, after, rfl⟩ := List.append_of_mem hmem
  have hrun := congrArg (·.run peers) (deeds_receive (σ := σ) settings h.members topic document)
  rw [hsome] at hrun
  dsimp only at hrun
  rw [h.eraseP_append] at hrun
  obtain ⟨passed, hanswer⟩ := exists_run_answer request.inquiry (request.wanted document) peers
  obtain ⟨accepted, hrelease⟩ := exists_run_release (before ++ after)
    ((request.inquiry.answer (request.wanted document)).run peers).peers
  have hvalue : outcome.value = (.answered request.id, waitingFor settings (before ++ after)) :=
    congrArg Outcome.value hrun
  have hdeeds : Event.deeds outcome.events =
      .answered request.inquiry.tag (request.wanted document) ::
      (forwardDeeds request.inquiry (request.wanted document) passed ++
        releaseDeeds (before ++ after) accepted) := by
    have hevents := congrArg Outcome.events hrun
    simpa [hanswer, hrelease] using hevents
  exact ⟨congrArg Prod.fst hvalue, before, after, rfl, h.not_mem_ids_append,
    runs_of_deeds_eq_answered hdeeds, made_of_deeds_eq_answered hdeeds, ⟨passed, accepted, hdeeds⟩,
    congrArg Prod.snd hvalue⟩

/-- What comes of a document that is handed to any inquirer in a state it can come to. An answer to
a request that is waited for, due or not, is one whose topic spells the id of the request; it closes
that request. Everything else is unknown and leaves all as it was. -/
theorem receive_effect {settings : Settings} {q : Inquirer} (h : Reachable settings q)
    (topic : String) (document : Json) (peers : σ) :
    let outcome := (q.receive topic document).run peers
    (∀ id, outcome.value.1 = .answered id ↔
      Topic.Spells Topic.responseBase topic id ∧ id ∈ q.waitingIds) ∧
    (∀ id, outcome.value.1 = .answered id →
      ∃ before request after name value, request.id = id ∧ request.member = some name ∧
        Json.Wants name document value ∧ ClosedBy q before request after value outcome) ∧
    ((∀ id, outcome.value.1 ≠ .answered id) →
      outcome.value = (.unknown, q) ∧ outcome.peers = peers ∧
        Event.deeds outcome.events = []) ∧
    (∀ request ∈ q.outstanding.requests, request.member.isSome) ∧
    ∀ id, outcome.value.1 ≠ .keyMissing id := by
  obtain ⟨requests, horderly, rfl⟩ := h.exists_waitingFor
  intro outcome
  rw [waitingIds_waitingFor]
  simp only [← exists_addressee?_iff horderly]
  cases haddressee : addressee? requests topic with
  | none =>
      obtain ⟨hvalue, hpeers, hdeeds⟩ :=
        run_receive_of_unaddressed settings horderly haddressee document peers
      have hreceipt : outcome.value.1 = .unknown := congrArg Prod.fst hvalue
      rw [hreceipt]
      exact ⟨by simp, by simp, fun _ => ⟨hvalue, hpeers, hdeeds⟩, horderly.members, by simp⟩
  | some request =>
      obtain ⟨hreceipt, before, after, hclosed⟩ :=
        run_receive_of_addressee settings horderly haddressee document peers
      have hmem : request ∈ requests := ((addressee?_eq_some_iff horderly).mp haddressee).1
      obtain ⟨name, hname⟩ := Option.isSome_iff_exists.mp (horderly.members request hmem)
      have hwants : Json.Wants name document (request.wanted document) := by
        rw [OpenRequest.wanted, hname]
        exact Json.wants_select name document
      have hreceipt : outcome.value.1 = .answered request.id := hreceipt
      rw [hreceipt]
      refine ⟨by simp, ?_, fun hnone => absurd rfl (hnone request.id), horderly.members, by simp⟩
      intro id hid
      exact ⟨before, request, after, name, _, Receipt.answered.inj hid, hname, hwants, hclosed⟩

/-- An id with leading zeros is read, and one with a sign is not. -/
theorem receive_effect_staggered :
    let peers : Peers Recorder Script := ⟨.new, ⟨[]⟩⟩
    let padded := (staggered.receive "v1/devices/me/attributes/response/007"
      (.object [("client", .integer 1)])).run peers
    let signed := (staggered.receive "v1/devices/me/attributes/response/+7" .null).run peers
    Reachable (.atMost 2) staggered ∧
      Topic.Spells Topic.responseBase "v1/devices/me/attributes/response/007" 7 ∧
      Event.runs padded.events = [.answered 0 (.integer 1)] ∧ Event.made padded.events = [] ∧
      padded.value.2.waitingIds = [8] ∧ signed.value = (.unknown, staggered) ∧
      signed.peers = peers := by
  intro peers padded signed
  obtain ⟨hanswered, -⟩ := receive_effect reachable_staggered
    "v1/devices/me/attributes/response/007" (.object [("client", .integer 1)]) peers
  obtain ⟨-, -, hunknown, -⟩ := receive_effect reachable_staggered
    "v1/devices/me/attributes/response/+7" .null peers
  obtain ⟨hspells, -⟩ := (hanswered 7).mp rfl
  obtain ⟨hvalue, hpeers, -⟩ := hunknown fun id hid => by cases hid
  exact ⟨reachable_staggered, hspells, rfl, rfl, rfl, hvalue, hpeers⟩

end Receive

end Inquirer

end AttributeExchange
