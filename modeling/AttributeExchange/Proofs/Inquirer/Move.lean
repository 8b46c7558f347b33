import AttributeExchange.Exchange.Peers
import AttributeExchange.Proofs.Inquirer.Submission

/-!
# Moves of an inquirer

Everything that one operation can do, whatever the channel and the source of ids answer: one rule
for each way in which an operation ends, with its result, its deeds and the requests that are waited
for afterwards. An inquirer that was new once is in order, so what holds of every move holds of
every run.
-/

namespace AttributeExchange

def Inquiry.expiryCall? (inquiry : Inquiry) : Option Call :=
  match inquiry.expiry with
  | .absent | .silent => none
  | .publishing topic document => some (.send topic document)

namespace Inquirer

/-- The deeds of giving the response filter up if nothing is waited for. -/
def releaseDeeds (requests : List OpenRequest) (accepted : Bool) : List Event :=
  if requests = [] then [.called (.unsubscribe Topic.responseFilter) accepted] else []

def forwardDeeds (inquiry : Inquiry) (value : Json) (accepted : Bool) : List Event :=
  inquiry.forwardTo.toList.map fun topic => .forwarded (.send topic value) accepted

def lapseDeeds (inquiry : Inquiry) (accepted : Bool) : List Event :=
  match inquiry.expiry with
  | .absent => []
  | .silent => [.lapsed inquiry.tag]
  | .publishing topic document =>
    [.lapsed inquiry.tag, .forwarded (.send topic document) accepted]

/-- That the expiry handlers of requests did these deeds one after the other, whatever the channel
answered to what they published. -/
inductive Lapsing : List OpenRequest → List Event → Prop where
  | nil : Lapsing [] []
  | cons {request : OpenRequest} {requests : List OpenRequest} {deeds : List Event}
      (accepted : Bool) (h : Lapsing requests deeds) :
      Lapsing (request :: requests) (lapseDeeds request.inquiry accepted ++ deeds)

/-- What an operation can do to the requests that are waited for. -/
inductive Move (settings : Settings) (requests : List OpenRequest) (now : Instant) :
    Operation → Result → List Event → List OpenRequest → Prop where
  | refused {s : Submission} {fault : RequestFault}
      (hfault : s.fault? settings requests.length = some fault) :
      Move settings requests now (.submit s) (.submitted (.error fault)) [] requests
  | notSubscribed {s : Submission} (hfault : s.fault? settings requests.length = none) :
      Move settings requests now (.submit s)
        (.submitted (.error (.notSubscribed Topic.responseFilter)))
        [.called (.subscribe Topic.responseFilter) false] requests
  | noId {s : Submission} (hfault : s.fault? settings requests.length = none) (accepted : Bool) :
      Move settings requests now (.submit s) (.submitted (.error .noId))
        (.called (.subscribe Topic.responseFilter) true :: .drew none ::
          releaseDeeds requests accepted) requests
  | alreadyWaiting {s : Submission} {id : RequestId}
      (hfault : s.fault? settings requests.length = none) (hid : id ∈ requests.map (·.id)) :
      Move settings requests now (.submit s)
        (.submitted (.error (.invalid (.alreadyWaiting id))))
        [.called (.subscribe Topic.responseFilter) true, .drew (some id)] requests
  | opened {s : Submission} {id : RequestId}
      (hfault : s.fault? settings requests.length = none) (hid : id ∉ requests.map (·.id))
      (accepted : Bool) :
      Move settings requests now (.submit s)
        (.submitted (if accepted then .ok id else .error (.notSent id)))
        [.called (.subscribe Topic.responseFilter) true, .drew (some id),
          .called (.send (Topic.request id) (s.document settings)) accepted]
        (requests ++ [s.opening settings id now])
  | unknown {topic : String} {document : Json} (haddressee : addressee? requests topic = none) :
      Move settings requests now (.receive topic document) (.received .unknown) [] requests
  | answered {topic : String} {document : Json} {request : OpenRequest}
      (haddressee : addressee? requests topic = some request) (passed accepted : Bool) :
      Move settings requests now (.receive topic document) (.received (.answered request.id))
        (.answered request.inquiry.tag (request.wanted document) ::
          (forwardDeeds request.inquiry (request.wanted document) passed ++
            releaseDeeds (requests.eraseP (·.id = request.id)) accepted))
        (requests.eraseP (·.id = request.id))
  | idle (hdue : requests.filter (·.isDue now) = []) :
      Move settings requests now .retire (.retired []) [] requests
  | retired (hdue : requests.filter (·.isDue now) ≠ []) {lapsed : List Event}
      (hlapsed : Lapsing (requests.filter (·.isDue now)) lapsed) (accepted : Bool) :
      Move settings requests now .retire
        (.retired ((requests.filter (·.isDue now)).map (·.id)))
        (lapsed ++ releaseDeeds (requests.filter (!·.isDue now)) accepted)
        (requests.filter (!·.isDue now))
  | cancelled {operation : Operation} (hall : operation = .cancelAll ∨ operation = .reconnect)
      (accepted : Bool) :
      Move settings requests now operation (.cancelled accepted)
        [.called (.unsubscribe Topic.responseFilter) accepted] []

/-! ### Handlers among the deeds -/

theorem runs_releaseDeeds (requests : List OpenRequest) (accepted : Bool) :
    Event.runs (releaseDeeds requests accepted) = [] := by
  by_cases hrequests : requests = [] <;> simp [releaseDeeds, hrequests, Event.runs, Event.isRun]

theorem runs_forwardDeeds (inquiry : Inquiry) (value : Json) (accepted : Bool) :
    Event.runs (forwardDeeds inquiry value accepted) = [] := by
  cases hforward : inquiry.forwardTo <;> simp [forwardDeeds, hforward, Event.runs, Event.isRun]

theorem runs_lapseDeeds (inquiry : Inquiry) (accepted : Bool) :
    Event.runs (lapseDeeds inquiry accepted) =
      if inquiry.hasExpiryHandler then [.lapsed inquiry.tag] else [] := by
  cases hexpiry : inquiry.expiry <;>
    simp only [lapseDeeds, Inquiry.hasExpiryHandler, hexpiry] <;> rfl

namespace Lapsing

variable {requests : List OpenRequest} {deeds : List Event}

theorem of_mem (h : Lapsing requests deeds) {event : Event} (hevent : event ∈ deeds) :
    ∃ request ∈ requests, event = .lapsed request.inquiry.tag ∨
      ∃ topic document accepted, event = .forwarded (.send topic document) accepted := by
  induction h with
  | nil => cases hevent
  | @cons request requests deeds accepted _ ih =>
      rcases List.mem_append.mp hevent with hevent | hevent
      · refine ⟨request, List.mem_cons_self, ?_⟩
        cases hexpiry : request.inquiry.expiry with
        | absent => simp [lapseDeeds, hexpiry] at hevent
        | silent => exact .inl (by simpa [lapseDeeds, hexpiry] using hevent)
        | publishing topic document =>
            have hdeeds : event = .lapsed request.inquiry.tag ∨
                event = .forwarded (.send topic document) accepted := by
              simpa [lapseDeeds, hexpiry] using hevent
            exact hdeeds.imp_right fun heq => ⟨topic, document, accepted, heq⟩
      · obtain ⟨other, hother, hdeed⟩ := ih hevent
        exact ⟨other, List.mem_cons_of_mem request hother, hdeed⟩

theorem runs_eq (h : Lapsing requests deeds) : Event.runs deeds = lapses requests := by
  induction h with
  | nil => rfl
  | @cons request requests deeds accepted _ ih =>
      rw [Event.runs_append, ih, runs_lapseDeeds]
      cases hhandler : request.inquiry.hasExpiryHandler <;> simp [lapses, hhandler]

end Lapsing

/-- Requests that can be waited for: they look for a member, and no id occurs twice. -/
structure Orderly (requests : List OpenRequest) : Prop where
  members : ∀ request ∈ requests, request.member.isSome
  ids : (requests.map (·.id)).Nodup

theorem Orderly.nil : Orderly [] :=
  ⟨by simp, by simp⟩

theorem Orderly.sublist {requests fewer : List OpenRequest} (h : Orderly requests)
    (hfewer : fewer.Sublist requests) : Orderly fewer where
  members := fun request hrequest => h.members request (hfewer.subset hrequest)
  ids := h.ids.sublist (hfewer.map _)

theorem Move.orderly {settings : Settings} {requests after : List OpenRequest} {now : Instant}
    {operation : Operation} {result : Result} {deeds : List Event}
    (hmove : Move settings requests now operation result deeds after) (h : Orderly requests) :
    Orderly after := by
  cases hmove with
  | refused => exact h
  | notSubscribed => exact h
  | noId => exact h
  | alreadyWaiting => exact h
  | @opened s id hfault hid accepted =>
      obtain ⟨⟨_, responseMember, -, hresponse⟩, -⟩ :=
        Submission.of_ownFault?_eq_none (Option.or_eq_none_iff.mp hfault).1
      constructor
      · intro request hrequest
        rcases List.mem_append.mp hrequest with hrequest | hrequest
        · exact h.members request hrequest
        · rw [List.mem_singleton.mp hrequest]
          simp [Submission.opening, hresponse]
      · rw [List.map_append]
        refine List.nodup_append.mpr ⟨h.ids, by simp, ?_⟩
        intro other hother new hnew heq
        have hnew : new = id := by simpa [Submission.opening] using hnew
        rw [heq, hnew] at hother
        exact hid hother
  | unknown => exact h
  | answered => exact h.sublist List.eraseP_sublist
  | idle => exact h
  | retired => exact h.sublist List.filter_sublist
  | cancelled => exact .nil

variable {σ : Type} [Channel σ]

theorem exists_run_release (requests : List OpenRequest) (peers : σ) :
    ∃ accepted, ((release requests).run peers).events = releaseDeeds requests accepted := by
  by_cases hrequests : requests = []
  · exact ⟨(Channel.perform (.unsubscribe Topic.responseFilter) peers).1, by
      simp [release, releaseDeeds, hrequests]⟩
  · exact ⟨true, by simp [release, releaseDeeds, hrequests]⟩

theorem exists_run_lapse (inquiry : Inquiry) (peers : σ) :
    ∃ accepted, ((inquiry.lapse).run peers).events = lapseDeeds inquiry accepted := by
  cases hexpiry : inquiry.expiry with
  | absent => exact ⟨true, by simp [Inquiry.lapse, lapseDeeds, hexpiry]⟩
  | silent => exact ⟨true, by simp [Inquiry.lapse, lapseDeeds, hexpiry]⟩
  | publishing topic document =>
      exact ⟨(Channel.perform (.send topic document) peers).1, by
        simp [Inquiry.lapse, lapseDeeds, hexpiry]⟩

theorem lapsing_lapseEach (requests : List OpenRequest) (peers : σ) :
    Lapsing requests ((lapseEach requests).run peers).events := by
  induction requests generalizing peers with
  | nil => exact .nil
  | cons request requests ih =>
      obtain ⟨accepted, hlapse⟩ := exists_run_lapse request.inquiry peers
      simp only [lapseEach, Exchange.run_bind, hlapse]
      exact (ih _).cons accepted

theorem exists_run_answer (inquiry : Inquiry) (value : Json) (peers : σ) :
    ∃ accepted, ((inquiry.answer value).run peers).events =
      .answered inquiry.tag value :: forwardDeeds inquiry value accepted := by
  cases hforward : inquiry.forwardTo with
  | none => exact ⟨true, by simp [Inquiry.answer, forwardDeeds, hforward]⟩
  | some topic =>
      exact ⟨(Channel.perform (.send topic value) peers).1, by
        simp [Inquiry.answer, forwardDeeds, hforward]⟩

def Ends (settings : Settings) (requests : List OpenRequest) (now : Instant)
    (operation : Operation) (outcome : Outcome σ (Result × Inquirer)) : Prop :=
  ∃ requests', outcome.value.2 = waitingFor settings requests' ∧
    Move settings requests now operation outcome.value.1 outcome.events requests'

theorem ends_cancelled (settings : Settings) (requests : List OpenRequest) (now : Instant)
    {operation : Operation} (hall : operation = .cancelAll ∨ operation = .reconnect) (peers : σ)
    [IdSource σ] :
    Ends settings requests now operation
      ((Exchange.deeds ((waitingFor settings requests).perform now operation)).run peers) := by
  have hrun : Exchange.deeds ((waitingFor settings requests).perform now operation) = (do
      let accepted ← Exchange.call (.unsubscribe Topic.responseFilter)
      return (.cancelled accepted, waitingFor settings []) : Exchange σ (Result × Inquirer)) := by
    rcases hall with rfl | rfl <;> simp [perform, reconnect, deeds_cancelAll]
  rw [hrun]
  exact ⟨[], rfl, .cancelled hall _⟩

theorem ends_retire (settings : Settings) (requests : List OpenRequest) (now : Instant) (peers : σ)
    [IdSource σ] :
    Ends settings requests now .retire
      ((Exchange.deeds ((waitingFor settings requests).perform now .retire)).run peers) := by
  rw [perform, Exchange.deeds_bind, deeds_retire]
  by_cases hdue : requests.filter (·.isDue now) = []
  · rw [if_pos hdue]
    exact ⟨requests, rfl, .idle hdue⟩
  · rw [if_neg hdue]
    have hlapsed := lapsing_lapseEach (requests.filter (·.isDue now)) peers
    obtain ⟨accepted, hrelease⟩ := exists_run_release (requests.filter (!·.isDue now))
      ((lapseEach (requests.filter (·.isDue now))).run peers).peers
    refine ⟨requests.filter (!·.isDue now), rfl, ?_⟩
    have hmove : Move settings requests now .retire _ _ _ := .retired hdue hlapsed accepted
    simpa [← hrelease] using hmove

theorem ends_receive (settings : Settings) {requests : List OpenRequest}
    (hmembers : ∀ request ∈ requests, request.member.isSome) (now : Instant) (topic : String)
    (document : Json) (peers : σ) [IdSource σ] :
    Ends settings requests now (.receive topic document)
      ((Exchange.deeds ((waitingFor settings requests).perform now
        (.receive topic document))).run peers) := by
  rw [perform, Exchange.deeds_bind, deeds_receive settings hmembers]
  cases haddressee : addressee? requests topic with
  | none => exact ⟨requests, rfl, .unknown haddressee⟩
  | some request =>
      obtain ⟨passed, hanswer⟩ :=
        exists_run_answer request.inquiry (request.wanted document) peers
      obtain ⟨accepted, hrelease⟩ := exists_run_release (requests.eraseP (·.id = request.id))
        ((request.inquiry.answer (request.wanted document)).run peers).peers
      refine ⟨requests.eraseP (·.id = request.id), rfl, ?_⟩
      have hmove : Move settings requests now (.receive topic document) _ _ _ :=
        .answered haddressee passed accepted
      rw [← hrelease, ← List.cons_append, ← hanswer] at hmove
      simpa using hmove

theorem ends_submit (settings : Settings) (requests : List OpenRequest) (now : Instant)
    (s : Submission) (peers : σ) [IdSource σ] :
    Ends settings requests now (.submit s)
      ((Exchange.deeds ((waitingFor settings requests).perform now (.submit s))).run peers) := by
  have hsettings : (waitingFor settings requests).settings = settings := rfl
  rw [perform, Exchange.deeds_bind, deeds_submit, submissionEffect, hsettings]
  simp only [outstanding_waitingFor, waitingIds_waitingFor]
  cases hfault : s.fault? settings requests.length with
  | some fault => exact ⟨requests, rfl, .refused hfault⟩
  | none =>
      rcases hsubscribe : Channel.perform (.subscribe Topic.responseFilter) peers with
        ⟨subscribed, peers₁⟩
      cases subscribed with
      | false =>
          refine ⟨requests, ?_, ?_⟩
          · simp [hsubscribe]
          · simpa [hsubscribe] using Move.notSubscribed hfault
      | true =>
          rcases hdraw : IdSource.next peers₁ with ⟨drawn, peers₂⟩
          cases drawn with
          | none =>
              obtain ⟨accepted, hrelease⟩ := exists_run_release requests peers₂
              refine ⟨requests, ?_, ?_⟩
              · simp [hsubscribe, hdraw]
              · simpa [hsubscribe, hdraw, hrelease] using Move.noId hfault accepted
          | some id =>
              by_cases hid : id ∈ requests.map (·.id)
              · refine ⟨requests, ?_, ?_⟩
                · simp [hsubscribe, hdraw, hid, -List.mem_map]
                · simpa [hsubscribe, hdraw, hid, -List.mem_map] using
                    Move.alreadyWaiting hfault hid
              · rcases hsend : Channel.perform (.send (Topic.request id) (s.document settings))
                  peers₂ with ⟨accepted, peers₃⟩
                refine ⟨requests ++ [s.opening settings id now], ?_, ?_⟩
                · simp [hsubscribe, hdraw, hid, hsend, opened_waitingFor, -List.mem_map]
                · have hmove : Move settings requests now (.submit s) _ _ _ :=
                    .opened hfault hid accepted
                  cases accepted <;>
                    simpa [hsubscribe, hdraw, hid, hsend, -List.mem_map] using hmove

/-- Every operation of an inquirer in order is a move. -/
theorem ends_perform (settings : Settings) {requests : List OpenRequest} (h : Orderly requests)
    (now : Instant) (operation : Operation) (peers : σ) [IdSource σ] :
    Ends settings requests now operation
      ((Exchange.deeds ((waitingFor settings requests).perform now operation)).run peers) := by
  cases operation with
  | submit s => exact ends_submit settings requests now s peers
  | receive topic document => exact ends_receive settings h.members now topic document peers
  | retire => exact ends_retire settings requests now peers
  | cancelAll => exact ends_cancelled settings requests now (.inl rfl) peers
  | reconnect => exact ends_cancelled settings requests now (.inr rfl) peers

/-- The move of an operation, from the operation itself; it keeps the inquirer in order. -/
theorem exists_move_perform (settings : Settings) {requests : List OpenRequest}
    (h : Orderly requests) (now : Instant) (operation : Operation) (peers : σ) [IdSource σ] :
    let outcome := ((waitingFor settings requests).perform now operation).run peers
    ∃ after, Orderly after ∧ outcome.value.2 = waitingFor settings after ∧
      Move settings requests now operation outcome.value.1 (Event.deeds outcome.events) after := by
  obtain ⟨after, hafter, hmove⟩ := ends_perform settings h now operation peers
  rw [Exchange.run_deeds] at hafter hmove
  exact ⟨after, hmove.orderly h, hafter, hmove⟩

theorem exists_orderly_perform (settings : Settings) {requests : List OpenRequest}
    (h : Orderly requests) (now : Instant) (operation : Operation) (peers : σ) [IdSource σ] :
    ∃ after, Orderly after ∧
      (((waitingFor settings requests).perform now operation).run peers).value.2 =
        waitingFor settings after := by
  obtain ⟨after, horderly, hafter, -⟩ := exists_move_perform settings h now operation peers
  exact ⟨after, horderly, hafter⟩

theorem exists_move_submit (settings : Settings) (requests : List OpenRequest) (now : Instant)
    (s : Submission) (peers : σ) [IdSource σ] :
    let outcome := ((waitingFor settings requests).submit s now).run peers
    ∃ after, outcome.value.2 = waitingFor settings after ∧
      Move settings requests now (.submit s) (.submitted outcome.value.1)
        (Event.deeds outcome.events) after := by
  obtain ⟨after, hafter, hmove⟩ := ends_submit settings requests now s peers
  simp only [perform, Exchange.run_deeds, Exchange.run_bind, Exchange.run_pure,
    List.append_nil] at hafter hmove
  exact ⟨after, hafter, hmove⟩

/-!
## Reachable inquirers

The states that an inquirer comes to from its beginning by any operations at any instants, with
channels and sources of ids that may answer each operation as they like. All of them are in order,
so each is told by the requests it waits for, and a submission to any of them has the effect that
`submissionEffect` says.
-/

/-- The states of an inquirer that was made with the settings. -/
inductive Reachable (settings : Settings) : Inquirer → Prop where
  | new : Reachable settings (.new settings)
  | perform {σ : Type} [Channel σ] [IdSource σ] {q : Inquirer} (peers : σ) (now : Instant)
      (operation : Operation) (h : Reachable settings q) :
      Reachable settings ((q.perform now operation).run peers).value.2

theorem Reachable.exists_waitingFor {settings : Settings} {q : Inquirer}
    (h : Reachable settings q) :
    ∃ requests, Orderly requests ∧ q = waitingFor settings requests := by
  induction h with
  | new => exact ⟨[], .nil, new_eq_waitingFor settings⟩
  | perform peers now operation _ ih =>
      obtain ⟨requests, horderly, rfl⟩ := ih
      exact exists_orderly_perform settings horderly now operation peers

theorem Reachable.eq_waitingFor {settings : Settings} {q : Inquirer}
    (h : Reachable settings q) : q = waitingFor settings q.outstanding.requests := by
  obtain ⟨requests, -, rfl⟩ := h.exists_waitingFor
  rfl

variable [IdSource σ]

theorem Reachable.performAll {settings : Settings} {q : Inquirer} (h : Reachable settings q)
    (history : List (Instant × Operation)) (peers : σ) :
    Reachable settings ((q.performAll history).run peers).value.2 := by
  induction history generalizing q peers with
  | nil => exact h
  | cons entry history ih =>
      obtain ⟨now, operation⟩ := entry
      exact ih (h.perform peers now operation) _

/-- A submission has its stated effect on every reachable inquirer, whatever the channel and the
source of ids answer. -/
theorem submit_eq_submissionEffect {settings : Settings} {q : Inquirer}
    (h : Reachable settings q) (s : Submission) (now : Instant) :
    Exchange.deeds (q.submit s now : Exchange σ (Except RequestFault RequestId × Inquirer)) =
      q.submissionEffect s now := by
  rw [h.eq_waitingFor]
  exact deeds_submit settings q.outstanding.requests s now

/-- A submission for one key, with both handlers and a timeout of one second. -/
def oneKey (tag : Nat) : Submission :=
  .ofScope .client ⟨tag, ["model"], some (.ofSeconds 1), true, none⟩

def full : Inquirer :=
  (((new (.atMost 1)).submit (oneKey 0) .start).run
    (⟨.new, ⟨[some 7]⟩⟩ : Peers Recorder Script)).value.2

theorem reachable_full : Reachable (.atMost 1) full :=
  Reachable.new.perform (⟨.new, ⟨[some 7]⟩⟩ : Peers Recorder Script) .start (.submit (oneKey 0))

theorem submit_eq_submissionEffect_full :
    Reachable (.atMost 1) full ∧
      Exchange.deeds (full.submit (oneKey 1) .start :
          Exchange (Peers Recorder Script) (Except RequestFault RequestId × Inquirer)) =
        pure (.error (.noRoom 1), full) := by
  refine ⟨reachable_full, ?_⟩
  rw [submit_eq_submissionEffect reachable_full (oneKey 1) .start]
  rfl

/-- An inquirer that waits for two requests, due after one second and after two. -/
def staggered : Inquirer :=
  (((new (.atMost 2)).performAll
    [(.start, .submit (oneKey 0)), (⟨.ofSeconds 1⟩, .submit (oneKey 1))]).run
    (⟨.new, ⟨[some 7, some 8]⟩⟩ : Peers Recorder Script)).value.2

theorem reachable_staggered : Reachable (.atMost 2) staggered :=
  Reachable.new.performAll [(.start, .submit (oneKey 0)), (⟨.ofSeconds 1⟩, .submit (oneKey 1))]
    (⟨.new, ⟨[some 7, some 8]⟩⟩ : Peers Recorder Script)

end Inquirer

end AttributeExchange
