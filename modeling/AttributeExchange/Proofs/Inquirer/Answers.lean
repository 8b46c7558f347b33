import AttributeExchange.Proofs.Inquirer.Undisturbed

/-!
# Answers in any order

Answers that carry different ids, or no id, close different requests or none. So each has the same
effect wherever it stands among the others, and the one that closes the last request gives the
filter up, whichever it is.
-/

namespace AttributeExchange

namespace Inquirer

abbrev Answer := String × Json

def Answer.id? (answer : Answer) : Option RequestId :=
  Topic.parseId? Topic.responseBase answer.1

def Answer.receipt (requests : List OpenRequest) (answer : Answer) : Receipt :=
  (addressee? requests answer.1).elim .unknown fun request => .answered request.id

def closed (requests : List OpenRequest) (answers : List Answer) : List (OpenRequest × Json) :=
  answers.filterMap fun answer => (addressee? requests answer.1).map (·, answer.2)

def unanswered (requests : List OpenRequest) (answers : List Answer) : List OpenRequest :=
  requests.filter fun request => some request.id ∉ answers.map Answer.id?

def handed (entry : OpenRequest × Json) : Event :=
  .answered entry.1.inquiry.tag (entry.1.wanted entry.2)

/-! ## One answer -/

section Addressee

variable {requests : List OpenRequest} {request : OpenRequest} {topic : String}

theorem addressee?_eq_some_iff (h : Orderly requests) :
    addressee? requests topic = some request ↔
      request ∈ requests ∧ Topic.parseId? Topic.responseBase topic = some request.id := by
  constructor
  · intro hfound
    obtain ⟨id, hparse, hfind⟩ := Option.bind_eq_some_iff.mp hfound
    have hid : request.id = id := by simpa using List.find?_some hfind
    exact ⟨List.mem_of_find?_eq_some hfind, hid ▸ hparse⟩
  · rintro ⟨hmem, hparse⟩
    rw [addressee?, hparse, Option.bind_some]
    exact h.find?_id hmem

theorem addressee?_filter_ne (h : Orderly requests) {id : RequestId}
    (hother : Topic.parseId? Topic.responseBase topic ≠ some id) :
    addressee? (requests.filter (·.id ≠ id)) topic = addressee? requests topic := by
  have hrest : Orderly (requests.filter (·.id ≠ id)) := h.sublist List.filter_sublist
  apply Option.ext
  intro request
  rw [addressee?_eq_some_iff hrest, addressee?_eq_some_iff h, List.mem_filter]
  constructor
  · rintro ⟨⟨hmem, -⟩, hparse⟩
    exact ⟨hmem, hparse⟩
  · rintro ⟨hmem, hparse⟩
    have hid : request.id ≠ id := by
      rintro rfl
      exact hother hparse
    exact ⟨⟨hmem, by simpa using hid⟩, hparse⟩

end Addressee

/-! ## Answers one after the other -/

theorem made_releaseDeeds (requests : List OpenRequest) (accepted : Bool) :
    Event.made (releaseDeeds requests accepted) =
      if requests = [] then [.unsubscribe Topic.responseFilter] else [] := by
  by_cases hrequests : requests = [] <;> simp [releaseDeeds, hrequests, Event.made]

section AnswerDeeds

variable {inquiry : Inquiry} {value : Json} {passed accepted : Bool} {left : List OpenRequest}
  {events : List Event}

theorem runs_of_deeds_eq_answered (hdeeds : Event.deeds events = .answered inquiry.tag value ::
      (forwardDeeds inquiry value passed ++ releaseDeeds left accepted)) :
    Event.runs events = [.answered inquiry.tag value] := by
  rw [← Event.runs_deeds, hdeeds, Event.runs_cons_answered, Event.runs_append,
    runs_forwardDeeds, runs_releaseDeeds, List.append_nil]

theorem made_of_deeds_eq_answered (hdeeds : Event.deeds events = .answered inquiry.tag value ::
      (forwardDeeds inquiry value passed ++ releaseDeeds left accepted)) :
    Event.made events = if left = [] then [.unsubscribe Topic.responseFilter] else [] := by
  rw [← Event.made_deeds, hdeeds, ← List.cons_append, Event.made_append, made_releaseDeeds]
  cases hforward : inquiry.forwardTo <;> simp [forwardDeeds, hforward, Event.made]

end AnswerDeeds

def answering (now : Instant) (answers : List Answer) : List (Instant × Operation) :=
  answers.map fun answer => (now, .receive answer.1 answer.2)

/-- What answers come to, each with an effect that does not depend on the others. -/
structure AnsweredBy {σ : Type} (settings : Settings) (requests : List OpenRequest)
    (answers : List Answer) (outcome : Outcome σ (List Result × Inquirer)) : Prop where
  results : outcome.value.1 = answers.map fun answer => .received (answer.receipt requests)
  inquirer : outcome.value.2 = waitingFor settings (unanswered requests answers)
  runs : Event.runs outcome.events = (closed requests answers).map handed
  made : Event.made outcome.events =
    if requests ≠ [] ∧ unanswered requests answers = [] then
      [.unsubscribe Topic.responseFilter]
    else []

section Cons

variable {requests : List OpenRequest} {answer : Answer} {answers : List Answer}

theorem unanswered_cons_of_unaddressed (h : Orderly requests)
    (hnone : addressee? requests answer.1 = none) :
    unanswered requests (answer :: answers) = unanswered requests answers := by
  apply List.filter_congr
  intro request hmem
  have hother : some request.id ≠ answer.id? := by
    intro hid
    have hfound := (addressee?_eq_some_iff h).mpr ⟨hmem, hid.symm⟩
    rw [hnone] at hfound
    cases hfound
  simp [hother]

theorem unanswered_cons_of_addressee {request : OpenRequest} (h : Orderly requests)
    (hsome : addressee? requests answer.1 = some request) :
    unanswered requests (answer :: answers) =
      unanswered (requests.filter (·.id ≠ request.id)) answers := by
  have hid : answer.id? = some request.id := ((addressee?_eq_some_iff h).mp hsome).2
  rw [unanswered, unanswered, List.filter_filter]
  apply List.filter_congr
  intro other _
  rw [List.map_cons, hid]
  by_cases hsame : other.id = request.id <;> simp [hsame]

theorem closed_cons_of_unaddressed (hnone : addressee? requests answer.1 = none) :
    closed requests (answer :: answers) = closed requests answers :=
  List.filterMap_cons_none (by rw [hnone, Option.map_none])

theorem closed_cons_of_addressee {request : OpenRequest}
    (hsome : addressee? requests answer.1 = some request) :
    closed requests (answer :: answers) = (request, answer.2) :: closed requests answers :=
  List.filterMap_cons_some (by rw [hsome, Option.map_some])

end Cons

section Later

variable {requests : List OpenRequest} {id : RequestId} {answers : List Answer}

theorem addressee?_filter_ne_of_mem (h : Orderly requests)
    (hothers : some id ∉ answers.map Answer.id?) {answer : Answer} (hmem : answer ∈ answers) :
    addressee? (requests.filter (·.id ≠ id)) answer.1 = addressee? requests answer.1 := by
  have hother : answer.id? ≠ some id := by
    intro hid
    exact hothers (hid ▸ List.mem_map_of_mem hmem)
  exact addressee?_filter_ne h hother

theorem map_received_filter_ne (h : Orderly requests)
    (hothers : some id ∉ answers.map Answer.id?) :
    (answers.map fun answer => Result.received (answer.receipt (requests.filter (·.id ≠ id)))) =
      answers.map fun answer => .received (answer.receipt requests) := by
  apply List.map_congr_left
  intro answer hmem
  rw [Answer.receipt, Answer.receipt, addressee?_filter_ne_of_mem h hothers hmem]

theorem closed_filter_ne (h : Orderly requests) (hothers : some id ∉ answers.map Answer.id?) :
    closed (requests.filter (·.id ≠ id)) answers = closed requests answers := by
  apply List.filterMap_congr
  intro answer hmem
  rw [addressee?_filter_ne_of_mem h hothers hmem]

end Later

variable {σ : Type}

section AnsweredBy

variable {settings : Settings} {requests : List OpenRequest} {answer : Answer}
  {answers : List Answer} {rest : Outcome σ (List Result × Inquirer)} {events : List Event}

theorem AnsweredBy.cons_of_unaddressed (h : Orderly requests)
    (hnone : addressee? requests answer.1 = none) (hdeeds : Event.deeds events = [])
    (hrest : AnsweredBy settings requests answers rest) :
    AnsweredBy settings requests (answer :: answers)
      ⟨(.received .unknown :: rest.value.1, rest.value.2), rest.peers, events ++ rest.events⟩ := by
  have hruns : Event.runs events = [] := by
    rw [← Event.runs_deeds, hdeeds]
    rfl
  have hmade : Event.made events = [] := by
    rw [← Event.made_deeds, hdeeds]
    rfl
  have hreceipt : answer.receipt requests = .unknown := by
    rw [Answer.receipt, hnone, Option.elim_none]
  constructor
  · rw [hrest.results, List.map_cons, hreceipt]
  · rw [unanswered_cons_of_unaddressed h hnone]
    exact hrest.inquirer
  · rw [Event.runs_append, hruns, closed_cons_of_unaddressed hnone]
    exact hrest.runs
  · rw [Event.made_append, hmade, unanswered_cons_of_unaddressed h hnone]
    exact hrest.made

theorem AnsweredBy.cons_of_addressee (h : Orderly requests) {request : OpenRequest}
    (hsome : addressee? requests answer.1 = some request)
    (hothers : some request.id ∉ answers.map Answer.id?) {passed accepted : Bool}
    (hdeeds : Event.deeds events = handed (request, answer.2) ::
      (forwardDeeds request.inquiry (request.wanted answer.2) passed ++
        releaseDeeds (requests.filter (·.id ≠ request.id)) accepted))
    (hrest : AnsweredBy settings (requests.filter (·.id ≠ request.id)) answers rest) :
    AnsweredBy settings requests (answer :: answers)
      ⟨(.received (.answered request.id) :: rest.value.1, rest.value.2), rest.peers,
        events ++ rest.events⟩ := by
  have hruns : Event.runs events = [handed (request, answer.2)] :=
    runs_of_deeds_eq_answered hdeeds
  have hmade : Event.made events = if requests.filter (·.id ≠ request.id) = [] then
      [.unsubscribe Topic.responseFilter] else [] :=
    made_of_deeds_eq_answered hdeeds
  have hreceipt : answer.receipt requests = .answered request.id := by
    rw [Answer.receipt, hsome, Option.elim_some]
  have hrequests : requests ≠ [] :=
    List.ne_nil_of_mem ((addressee?_eq_some_iff h).mp hsome).1
  constructor
  · rw [List.map_cons, hreceipt, ← map_received_filter_ne h hothers]
    exact congrArg _ hrest.results
  · rw [unanswered_cons_of_addressee h hsome]
    exact hrest.inquirer
  · rw [Event.runs_append, hruns, closed_cons_of_addressee hsome, ← closed_filter_ne h hothers]
    exact congrArg _ hrest.runs
  · rw [Event.made_append, hmade, hrest.made, unanswered_cons_of_addressee h hsome]
    generalize requests.filter (·.id ≠ request.id) = left
    -- What is left already is answered by nobody, so the filter is given up once.
    by_cases hleft : left = []
    · have hnone : unanswered left answers = [] := by
        rw [hleft]
        rfl
      rw [if_pos hleft, if_neg fun hboth => hboth.1 hleft, if_pos ⟨hrequests, hnone⟩,
        List.append_nil]
    · simp [hleft, hrequests]

end AnsweredBy

variable [Channel σ] [IdSource σ]

theorem answeredBy_performAll (settings : Settings) {requests : List OpenRequest}
    (h : Orderly requests) (now : Instant) {answers : List Answer}
    (hdistinct : (answers.filterMap Answer.id?).Nodup) (peers : σ) :
    AnsweredBy settings requests answers
      (((waitingFor settings requests).performAll (answering now answers)).run peers) := by
  induction answers generalizing requests peers with
  | nil =>
      have hsame : unanswered requests [] = requests := by simp [unanswered]
      constructor
      · rfl
      · rw [hsame]
        rfl
      · rfl
      · rw [hsame, if_neg fun hboth => hboth.1 hboth.2]
        rfl
  | cons answer answers ih =>
      have hlater : (answers.filterMap Answer.id?).Nodup :=
        hdistinct.sublist ((List.sublist_cons_self _ answers).filterMap _)
      -- What the first answer closes is gone for the others, and none of them is for it.
      obtain ⟨after, hafterOrderly, hafter, hmove⟩ :=
        exists_move_perform settings h now (.receive answer.1 answer.2) peers
      rw [show answering now (answer :: answers) = _ :: answering now answers from rfl]
      simp only [run_performAll_cons, hafter]
      generalize ((waitingFor settings requests).perform now
        (.receive answer.1 answer.2)).run peers = first at *
      have hrest := ih hafterOrderly hlater first.peers
      generalize first.value.1 = result at *
      generalize hdeeds : Event.deeds first.events = deeds at *
      cases hmove with
      | unknown hnone => exact .cons_of_unaddressed h hnone hdeeds hrest
      | @answered _ _ request hsome passed accepted =>
          rw [OpenRequest.eraseP_id h.ids] at hrest hdeeds
          rw [OpenRequest.eraseP_id h.ids]
          have hid : answer.id? = some request.id :=
            ((addressee?_eq_some_iff h).mp hsome).2
          have hothers : some request.id ∉ answers.map Answer.id? := by
            rw [List.filterMap_cons_some hid, List.nodup_cons] at hdistinct
            intro hmem
            exact hdistinct.1 (List.mem_filterMap.mpr (List.mem_map.mp hmem))
          exact .cons_of_addressee h hsome hothers hdeeds hrest
      | cancelled hall => rcases hall with hall | hall <;> cases hall

/-! ## Two orders -/

theorem unanswered_perm (requests : List OpenRequest) {first second : List Answer}
    (hperm : first.Perm second) : unanswered requests first = unanswered requests second := by
  apply List.filter_congr
  intro request _
  exact decide_eq_decide.mpr (not_congr (hperm.map Answer.id?).mem_iff)

theorem closed_ids_sublist {requests : List OpenRequest} (h : Orderly requests)
    (answers : List Answer) :
    ((closed requests answers).map (·.1.id)).Sublist (answers.filterMap Answer.id?) := by
  induction answers with
  | nil => exact .slnil
  | cons answer answers ih =>
      cases hfound : addressee? requests answer.1 with
      | none =>
          rw [closed_cons_of_unaddressed hfound]
          exact ih.trans ((List.sublist_cons_self answer answers).filterMap _)
      | some request =>
          have hid : answer.id? = some request.id := ((addressee?_eq_some_iff h).mp hfound).2
          rw [closed_cons_of_addressee hfound, List.filterMap_cons_some hid, List.map_cons]
          exact ih.cons_cons _

/-- Answers with different ids, or without an id, come to the same in every order. -/
theorem answers_in_any_order {settings : Settings} {q : Inquirer} (hq : Reachable settings q)
    {first second : List Answer} (hperm : first.Perm second)
    (hdistinct : (first.filterMap Answer.id?).Nodup) (now : Instant) (peers : σ) :
    let requests := q.outstanding.requests
    let one := (q.performAll (answering now first)).run peers
    let other := (q.performAll (answering now second)).run peers
    one.value.1 = (first.map fun answer => .received (answer.receipt requests)) ∧
      other.value.1 = (second.map fun answer => .received (answer.receipt requests)) ∧
      Event.runs one.events = (closed requests first).map handed ∧
      Event.runs other.events = (closed requests second).map handed ∧
      (closed requests first).Perm (closed requests second) ∧
      ((closed requests first).map (·.1.id)).Nodup ∧
      one.value.2 = other.value.2 ∧
      one.value.2.outstanding.requests = unanswered requests first ∧
      Event.made one.events = Event.made other.events ∧
      Event.made one.events =
        if requests ≠ [] ∧ unanswered requests first = [] then
          [.unsubscribe Topic.responseFilter]
        else [] := by
  obtain ⟨requests, horderly, rfl⟩ := hq.exists_waitingFor
  intro _ one other
  have hdistinctAfter : (second.filterMap Answer.id?).Nodup :=
    (hperm.filterMap Answer.id?).nodup_iff.mp hdistinct
  have hone : AnsweredBy settings requests first one :=
    answeredBy_performAll settings horderly now hdistinct peers
  have hother : AnsweredBy settings requests second other :=
    answeredBy_performAll settings horderly now hdistinctAfter peers
  have hleft := unanswered_perm requests hperm
  have hinquirer : one.value.2 = other.value.2 := by
    rw [hone.inquirer, hother.inquirer, hleft]
  have hmade : Event.made one.events = Event.made other.events := by
    rw [hone.made, hother.made, hleft]
  have hrequests : one.value.2.outstanding.requests = unanswered requests first := by
    rw [hone.inquirer, outstanding_waitingFor]
  exact ⟨hone.results, hother.results, hone.runs, hother.runs, hperm.filterMap _,
    (closed_ids_sublist horderly first).nodup hdistinct, hinquirer, hrequests, hmade, hone.made⟩

/-- Two answers, the first with zeros before its id, a topic without an id, and an answer for
nobody. -/
def mixed : List Answer :=
  [("v1/devices/me/attributes/response/007", .object [("client", .null)]),
    ("v1/devices/me/attributes/response/+7", .null), (Topic.response 9, .null),
    (Topic.response 8, .object [])]

theorem answers_in_any_order_mixed :
    let peers : Peers Recorder Script := ⟨.new, ⟨[]⟩⟩
    let one := (staggered.performAll (answering .start mixed)).run peers
    let other := (staggered.performAll (answering .start mixed.reverse)).run peers
    Reachable (.atMost 2) staggered ∧ mixed.Perm mixed.reverse ∧
      mixed.map Answer.id? = [some 7, none, some 9, some 8] ∧
      (mixed.filterMap Answer.id?).Nodup ∧ one.value.2 = other.value.2 ∧
      one.value.2.outstanding.requests = [] ∧
      Event.runs one.events = [.answered 0 .null, .answered 1 (.object [])] ∧
      Event.made one.events = Event.made other.events ∧
      Event.made one.events = [.unsubscribe Topic.responseFilter] := by
  intro peers
  dsimp only
  have hperm : mixed.Perm mixed.reverse := (List.reverse_perm mixed).symm
  have hids : mixed.map Answer.id? = [some 7, none, some 9, some 8] := by decide +kernel
  have hdistinct : (mixed.filterMap Answer.id?).Nodup := by decide +kernel
  have hsome : staggered.outstanding.requests ≠ [] := by decide
  have hleft : unanswered staggered.outstanding.requests mixed = [] := by decide +kernel
  have hclosed : closed staggered.outstanding.requests mixed =
      staggered.outstanding.requests.zip [.object [("client", .null)], .object []] := by
    decide +kernel
  obtain ⟨-, -, hruns, -, -, -, hinquirer, hrequests, hmade, hrelease⟩ :=
    answers_in_any_order reachable_staggered hperm hdistinct .start peers
  rw [hleft] at hrequests
  rw [hclosed] at hruns
  rw [if_pos ⟨hsome, hleft⟩] at hrelease
  exact ⟨reachable_staggered, hperm, hids, hdistinct, hinquirer, hrequests, hruns, hmade, hrelease⟩

end Inquirer

end AttributeExchange
