import AttributeExchange.Log
import AttributeExchange.Proofs.Inquirer.Bounded

/-!
# Quiet inquirers

Verbose settings add diagnostic notices and do nothing else. An inquirer that is made quiet returns
the same results, keeps the same requests and does the same to the channel, the source of ids and
the handlers; its events are those of the verbose one without the diagnostics.
-/

namespace AttributeExchange

def Event.isDiagnostic : Event → Bool
  | .noted notice => notice.isDiagnostic
  | .called _ _ | .forwarded _ _ | .drew _ | .answered _ _ | .lapsed _ | .asked _ _ => false

@[simp] theorem Event.isDiagnostic_noted (notice : Notice) :
    (Event.noted notice).isDiagnostic = notice.isDiagnostic := rfl

theorem Event.deeds_filter_isDiagnostic (events : List Event) :
    deeds (events.filter (!·.isDiagnostic)) = deeds events := by
  rw [deeds, deeds, List.filter_filter]
  apply List.filter_congr
  intro event _
  cases event <;> simp [isNotice, isDiagnostic]

namespace Log

/-- Whether a record is one that only verbose settings make: one for debugging, without fields. -/
def Record.isDiagnostic (record : Record) : Bool :=
  record.level = .debug && record.fields.isEmpty

theorem isDiagnostic_ofNotice (notice : Notice) :
    (ofNotice notice).isDiagnostic = notice.isDiagnostic := by
  cases notice <;> rfl

/-- The diagnostics among the records are those of the diagnostic notices. -/
theorem ofEvents_filter_isDiagnostic (events : List Event) :
    ofEvents (events.filter (!·.isDiagnostic)) =
      (ofEvents events).filter (!·.isDiagnostic) := by
  rw [ofEvents, ofEvents, List.filterMap_filter, List.filter_filterMap]
  congr 1
  funext event
  cases event with
  | noted notice =>
      have hrecord := isDiagnostic_ofNotice notice
      cases hnotice : notice.isDiagnostic <;> simp [ofEvent?, Option.filter, hrecord, hnotice]
  | called call accepted => cases call <;> rfl
  | forwarded call accepted => cases call <;> rfl
  | drew id => rfl
  | answered tag value => rfl
  | lapsed tag => rfl
  | asked position task => rfl

end Log

namespace Exchange

variable {σ α β : Type}

abbrev hushed (step : Exchange σ α) : Exchange σ α :=
  keep (!·.isDiagnostic) step

@[simp] theorem hushed_emit (event : Event) :
    hushed (emit event : Exchange σ Unit) =
      if event.isDiagnostic then pure () else emit event := by
  ext peers
  cases hdiagnostic : event.isDiagnostic <;> simp [hdiagnostic]

theorem hushed_noteTimes_keySkipped (count : Nat) :
    hushed (noteTimes count .keySkipped : Exchange σ Unit) = pure () := by
  ext peers
  simp [Notice.isDiagnostic]

@[simp] theorem hushed_call [Channel σ] (c : Call) :
    hushed (call c : Exchange σ Bool) = call c := rfl

@[simp] theorem hushed_forward [Channel σ] (c : Call) :
    hushed (forward c : Exchange σ Bool) = forward c := rfl

@[simp] theorem hushed_draw [IdSource σ] : hushed (draw : Exchange σ _) = draw := rfl

end Exchange

def Settings.hushed (settings : Settings) : Settings :=
  { settings with verbose := false }

def Draft.hushed (draft : Draft) : Draft :=
  { draft with verbose := false }

namespace Inquirer

def hushed (q : Inquirer) : Inquirer :=
  { q with settings := q.settings.hushed }

def Checked.hushed (checked : Checked) : Checked :=
  { checked with draft := checked.draft.hushed }

variable {σ : Type}

@[simp] theorem hushed_diagnose (settings : Settings) (notice : Notice) :
    Exchange.hushed (diagnose settings notice : Exchange σ Unit) =
      if notice.isDiagnostic then pure () else diagnose settings notice := by
  cases hdiagnostic : notice.isDiagnostic <;> simp [diagnose, Exchange.note, hdiagnostic]

@[simp] theorem diagnose_hushed (settings : Settings) (notice : Notice) :
    (diagnose settings.hushed notice : Exchange σ Unit) = pure () := rfl

theorem compose_hushed (draft : Draft) :
    (compose draft.hushed : Exchange σ (Except RequestFault Json)) =
      Exchange.hushed (compose draft) := by
  have hpayload : draft.hushed.payload = draft.payload := rfl
  have hsilent : (Exchange.noteTimes draft.hushed.reported .keySkipped : Exchange σ Unit) =
      pure () := rfl
  simp only [compose, hpayload, hsilent, Exchange.keep_bind, Exchange.keep_pure,
    Exchange.hushed_noteTimes_keySkipped]

theorem check_hushed (settings : Settings) (s : Submission) :
    (check settings.hushed s : Exchange σ (Except RequestFault Checked)) =
      Except.map Checked.hushed <$> Exchange.hushed (check settings s) := by
  have hexcess : settings.hushed.excessKeys? = settings.excessKeys? := rfl
  have hdraft (requestMember responseMember : String) :
      settings.hushed.draft s.inquiry.keys requestMember responseMember =
        (settings.draft s.inquiry.keys requestMember responseMember).hushed := rfl
  by_cases husable : KeyList.anyUsable s.inquiry.keys = true
  · cases hrequest : s.requestMember with
    | none => simp [check, husable, hrequest, Notice.isDiagnostic, Except.map]
    | some requestMember =>
        cases hresponse : s.responseMember with
        | none => simp [check, husable, hrequest, hresponse, Notice.isDiagnostic, Except.map]
        | some responseMember =>
            cases hcount : settings.excessKeys? s.inquiry.keys with
            | some fault =>
                simp [check, husable, hrequest, hresponse, hexcess, hcount, Notice.isDiagnostic,
                  Except.map]
            | none =>
                simp only [check, husable, hrequest, hresponse, hexcess, hcount, hdraft, if_true,
                  compose_hushed, Exchange.keep_bind, map_bind]
                congr 1
                funext payload
                cases payload with
                | error fault => simp [Notice.isDiagnostic, Except.map]
                | ok document => simp [Except.map, Checked.hushed]
  · simp [check, husable, Notice.isDiagnostic, Except.map]

/-! ## Operations -/

@[simp] theorem settings_hushed (q : Inquirer) : q.hushed.settings = q.settings.hushed := rfl

@[simp] theorem outstanding_hushed (q : Inquirer) : q.hushed.outstanding = q.outstanding := rfl

@[simp] theorem subscription_hushed (q : Inquirer) : q.hushed.subscription = q.subscription := rfl

section Channel

variable [Channel σ]

theorem hushed_relinquish (subscription : Subscription) :
    Exchange.hushed (subscription.relinquish : Exchange σ (Bool × Subscription)) =
      subscription.relinquish := by
  simp [Subscription.relinquish, Exchange.note, Notice.isDiagnostic]

theorem hushed_acquire (subscription : Subscription) :
    Exchange.hushed
        (subscription.acquire : Exchange σ (Except RequestFault Unit × Subscription)) =
      subscription.acquire := by
  simp [Subscription.acquire, Exchange.note, Notice.isDiagnostic]

theorem hushed_answer (request : OpenRequest) (value : Json) :
    Exchange.hushed (request.answer value : Exchange σ OpenRequest) = request.answer value := by
  have hrun (tag : Nat) : (Event.answered tag value).isDiagnostic = false := rfl
  cases hforward : request.inquiry.forwardTo <;>
    simp [OpenRequest.answer, Inquiry.answer, hforward, hrun]

theorem hushed_lapse (inquiry : Inquiry) :
    Exchange.hushed (inquiry.lapse : Exchange σ Bool) = inquiry.lapse := by
  have hrun : (Event.lapsed inquiry.tag).isDiagnostic = false := rfl
  cases hexpiry : inquiry.expiry <;> simp [Inquiry.lapse, hexpiry, hrun]

theorem hushed_lapseAll (requests : List OpenRequest) :
    Exchange.hushed (lapseAll requests : Exchange σ Unit) = lapseAll requests := by
  induction requests with
  | nil => rfl
  | cons request requests ih =>
      simp [lapseAll, OpenRequest.lapse, Exchange.note, Notice.isDiagnostic, hushed_lapse, ih]

theorem settle_hushed (settings : Settings) (outstanding : Outstanding)
    (subscription : Subscription) :
    (settle ⟨settings.hushed, outstanding, subscription⟩ : Exchange σ Inquirer) =
      hushed <$> Exchange.hushed (settle ⟨settings, outstanding, subscription⟩) := by
  by_cases hidle : (outstanding.isEmpty && subscription.held) = true
  · simp [settle, hidle, hushed_relinquish, hushed]
  · simp [settle, hidle, hushed]

theorem refuse_hushed {α : Type} (q : Inquirer) (fault : RequestFault) :
    (q.hushed.refuse fault : Exchange σ (Except RequestFault α × Inquirer)) =
      Prod.map id hushed <$> Exchange.hushed (q.refuse fault) := by
  have hsettle := settle_hushed (σ := σ) q.settings q.outstanding q.subscription
  have hq : q.hushed = ⟨q.settings.hushed, q.outstanding, q.subscription⟩ := rfl
  simp [refuse, hq, hsettle, Exchange.note, Notice.isDiagnostic]

theorem commit_hushed (q : Inquirer) (ready : Ready) (now : Instant) :
    (q.hushed.commit ready now : Exchange σ (Except RequestFault RequestId × Inquirer)) =
      Prod.map id hushed <$> Exchange.hushed (q.commit ready now) := by
  have htimeout : q.hushed.settings.timeoutOf = q.settings.timeoutOf := rfl
  simp only [commit, htimeout, outstanding_hushed]
  generalize OpenRequest.start ready.publication.id (some ready.member)
    (q.settings.timeoutOf ready.inquiry) ready.inquiry now = request
  cases q.outstanding.insert request with
  | error fault => exact refuse_hushed q fault
  | ok outstanding =>
      simp only [Exchange.keep_bind, Exchange.hushed_call, map_bind]
      congr 1
      funext accepted
      cases accepted with
      | true => simp [Exchange.note, Notice.isDiagnostic, hushed]
      | false => simp [Exchange.note, Notice.isDiagnostic, hushed]

theorem receive_hushed (q : Inquirer) (topic : String) (document : Json) :
    (q.hushed.receive topic document : Exchange σ (Receipt × Inquirer)) =
      Prod.map id hushed <$> Exchange.hushed (q.receive topic document) := by
  by_cases hresponse : Topic.isResponse topic = true
  · cases hparse : Topic.parseId? Topic.responseBase topic with
    | none => simp [receive, hresponse, hparse, Notice.isDiagnostic]
    | some id =>
        cases htake : q.outstanding.take? id with
        | none => simp [receive, hresponse, hparse, htake, Notice.isDiagnostic]
        | some taken =>
            obtain ⟨request, outstanding⟩ := taken
            cases hmember : request.member with
            | none =>
                simp [receive, hresponse, hparse, htake, hmember, settle_hushed,
                  Notice.isDiagnostic]
            | some name =>
                simp [receive, hresponse, hparse, htake, hmember, settle_hushed, hushed_answer]
  · simp [receive, hresponse]

theorem retire_hushed (q : Inquirer) (now : Instant) :
    (q.hushed.retire now : Exchange σ (List RequestId × Inquirer)) =
      Prod.map id hushed <$> Exchange.hushed (q.retire now) := by
  by_cases hdue : q.outstanding.requests.filter (·.isDue now) = []
  · simp [retire, Outstanding.takeDue, hdue]
  · simp [retire, Outstanding.takeDue, hdue, hushed_lapseAll, settle_hushed]

theorem cancelAll_hushed (q : Inquirer) :
    (q.hushed.cancelAll : Exchange σ (Bool × Inquirer)) =
      Prod.map id hushed <$> Exchange.hushed q.cancelAll := by
  by_cases hsome : 0 < q.outstanding.size
  · simp [cancelAll, hsome, Exchange.note, Notice.isDiagnostic, hushed_relinquish, hushed]
  · simp [cancelAll, hsome, hushed_relinquish, hushed]

end Channel

variable [Channel σ] [IdSource σ]

theorem identify_hushed (q : Inquirer) (checked : Checked) :
    (q.hushed.identify checked.hushed : Exchange σ (Except RequestFault Ready × Inquirer)) =
      Prod.map id hushed <$> Exchange.hushed (q.identify checked) := by
  simp only [identify, Exchange.keep_bind, Exchange.hushed_draw, map_bind]
  congr 1
  funext drawn
  cases drawn with
  | none => exact refuse_hushed q .noId
  | some id =>
      have hsilent : ({ checked.hushed.draft with id := some id } : Draft).reported = 0 := rfl
      have hnone : (Exchange.noteTimes 0 .keySkipped : Exchange σ Unit) = pure () := rfl
      have hpublication : ({ checked.hushed.draft with id := some id } : Draft).publication =
          ({ checked.draft with id := some id } : Draft).publication := rfl
      simp only [hsilent, hnone, hpublication, Exchange.keep_bind, pure_bind,
        Exchange.hushed_noteTimes_keySkipped]
      cases ({ checked.draft with id := some id } : Draft).publication with
      | error fault => exact refuse_hushed q fault
      | ok publication => rfl

theorem prepare_hushed (q : Inquirer) (s : Submission) :
    (q.hushed.prepare s : Exchange σ (Except RequestFault Ready × Inquirer)) =
      Prod.map id hushed <$> Exchange.hushed (q.prepare s) := by
  simp only [prepare, settings_hushed, check_hushed, Exchange.keep_bind, map_bind, bind_map_left]
  congr 1
  funext result
  cases result with
  | error fault => rfl
  | ok checked =>
      simp only [Except.map, outstanding_hushed, subscription_hushed]
      cases hroom : q.outstanding.checkRoom with
      | error fault => simp [Exchange.note, Notice.isDiagnostic]
      | ok room =>
          simp only [Exchange.keep_bind, hushed_acquire, map_bind]
          congr 1
          funext obtained
          obtain ⟨obtained, subscription⟩ := obtained
          cases obtained with
          | error fault => rfl
          | ok held => exact identify_hushed { q with subscription } checked

theorem submit_hushed (q : Inquirer) (s : Submission) (now : Instant) :
    (q.hushed.submit s now : Exchange σ (Except RequestFault RequestId × Inquirer)) =
      Prod.map id hushed <$> Exchange.hushed (q.submit s now) := by
  simp only [submit, prepare_hushed, Exchange.keep_bind, map_bind, bind_map_left]
  congr 1
  funext prepared
  obtain ⟨prepared, after⟩ := prepared
  cases prepared with
  | error fault => rfl
  | ok ready => exact commit_hushed after ready now

theorem perform_hushed (q : Inquirer) (now : Instant) (operation : Operation) :
    (q.hushed.perform now operation : Exchange σ (Result × Inquirer)) =
      Prod.map id hushed <$> Exchange.hushed (q.perform now operation) := by
  cases operation with
  | submit s => simp [perform, submit_hushed]
  | receive topic document => simp [perform, receive_hushed]
  | retire => simp [perform, retire_hushed]
  | cancelAll => simp [perform, cancelAll_hushed]
  | reconnect => simp [perform, reconnect, cancelAll_hushed]

/-! ## Runs -/

theorem performRounds_hushed (q : Inquirer) (rounds : List (Round σ)) :
    (q.hushed.performRounds rounds : Exchange σ (List Result × Inquirer)) =
      Prod.map id hushed <$> Exchange.hushed (q.performRounds rounds) := by
  induction rounds generalizing q with
  | nil => rfl
  | cons round rounds ih =>
      have hdisturb : Exchange.hushed (Exchange.disturb round.change) =
          Exchange.disturb round.change := rfl
      simp [performRounds, hdisturb, perform_hushed, ih]

/-- A run of a quiet inquirer is the run of the verbose one without the diagnostics. -/
theorem quiet_run_eq_verbose_run (settings : Settings) (rounds : List (Round σ)) (peers : σ) :
    let run (verbose : Bool) := ((new { settings with verbose }).performRounds rounds).run peers
    (run false).value.1 = (run true).value.1 ∧
      (run false).value.2.outstanding = (run true).value.2.outstanding ∧
      (run false).value.2.subscription = (run true).value.2.subscription ∧
      (run false).peers = (run true).peers ∧
      Event.deeds (run false).events = Event.deeds (run true).events ∧
      (run false).events = (run true).events.filter (!·.isDiagnostic) ∧
      Log.ofEvents (run false).events =
        (Log.ofEvents (run true).events).filter (!·.isDiagnostic) := by
  intro run
  have hquiet : run false = _ :=
    congrArg (·.run peers) (performRounds_hushed (new { settings with verbose := true }) rounds)
  have hresults : (run false).value.1 = (run true).value.1 := by
    rw [hquiet, Exchange.run_map, Exchange.run_keep]
    rfl
  have hinquirer : (run false).value.2 = hushed (run true).value.2 := by
    rw [hquiet, Exchange.run_map, Exchange.run_keep]
    rfl
  have hpeers : (run false).peers = (run true).peers := by
    rw [hquiet, Exchange.run_map, Exchange.run_keep]
  have hevents : (run false).events = (run true).events.filter (!·.isDiagnostic) := by
    rw [hquiet, Exchange.run_map, Exchange.run_keep]
  have hdeeds : Event.deeds (run false).events = Event.deeds (run true).events := by
    rw [hevents, Event.deeds_filter_isDiagnostic]
  have hlog : Log.ofEvents (run false).events =
      (Log.ofEvents (run true).events).filter (!·.isDiagnostic) := by
    rw [hevents, Log.ofEvents_filter_isDiagnostic]
  rw [hinquirer]
  exact ⟨hresults, rfl, rfl, hpeers, hdeeds, hevents, hlog⟩

/-- An empty key is met twice on the way to a request. -/
example :
    let peers : Peers Recorder Script := ⟨.new, ⟨[some 7]⟩⟩
    let s : Submission := .ofScope .client ⟨0, ["", "model"], none, false, none⟩
    let events (verbose : Bool) :=
      (((new { Settings.default with verbose }).performRounds [⟨id, .start, .submit s⟩]).run
        peers).events
    (events true).countP (·.isDiagnostic) = 2 ∧ (events false).countP (·.isDiagnostic) = 0 := by
  decide +kernel

end Inquirer

end AttributeExchange
