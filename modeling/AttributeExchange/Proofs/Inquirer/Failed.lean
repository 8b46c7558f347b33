import AttributeExchange.Proofs.Inquirer.Move
import AttributeExchange.Proofs.Inquirer.Undisturbed

/-!
# Failed submissions

What a submission leaves behind that is not answered with an id.
-/

namespace AttributeExchange

/-!
## Refused submissions

A submission that is refused for what it asks or for want of room leaves the inquirer as it was.
Nearly always it leaves the collaborators alone as well, for its checks come first. One refusal
comes late: that an id is waited for already shows only when it has been drawn, and by then the
response filter has been subscribed once more.
-/

/-- Whether a fault refuses a submission for what it asks or for want of room. -/
def RequestFault.isRefusal : RequestFault → Bool
  | .invalid _ | .noRoom _ | .listOverLimit _ _ | .keysOverLimit _ _ => true
  | .notSubscribed _ | .notSent _ | .noId | .keyMissing _ => false

namespace Inquirer

variable {σ : Type} [Channel σ] [IdSource σ]

theorem run_submissionEffect_of_fault {q : Inquirer} {s : Submission} {fault : RequestFault}
    (h : s.fault? q.settings q.outstanding.requests.length = some fault) (now : Instant)
    (peers : σ) :
    (q.submissionEffect s now).run peers = ⟨(.error fault, q), peers, []⟩ := by
  simp [submissionEffect, h]

/-- Of the refusals past the checks there is one only. -/
theorem Move.of_late_refusal {settings : Settings} {requests after : List OpenRequest}
    {now : Instant} {s : Submission} {fault : RequestFault} {deeds : List Event}
    (hmove : Move settings requests now (.submit s) (.submitted (.error fault)) deeds after)
    (hfault : s.fault? settings requests.length = none) (hrefusal : fault.isRefusal = true) :
    ∃ id ∈ requests.map (·.id), fault = .invalid (.alreadyWaiting id) ∧ after = requests ∧
      deeds = [.called (.subscribe Topic.responseFilter) true, .drew (some id)] := by
  generalize hresult : Result.submitted (.error fault) = result at hmove
  cases hmove with
  | refused hfound =>
      rw [hfault] at hfound
      cases hfound
  | notSubscribed =>
      cases hresult
      cases hrefusal
  | noId =>
      cases hresult
      cases hrefusal
  | @alreadyWaiting _ id _ hid =>
      cases hresult
      exact ⟨id, hid, rfl, rfl, rfl⟩
  | opened _ _ accepted =>
      cases accepted <;> cases hresult
      cases hrefusal
  | cancelled hall => rcases hall with hall | hall <;> cases hall

/-- What a refused submission leaves. The inquirer waits for the same requests under the same
subscription. Nobody was called and no id was drawn, unless the fault is that the id is waited for
already: then the filter was subscribed and the id drawn, and nothing else was done. -/
theorem refused_submission_effect {settings : Settings} {q : Inquirer}
    (h : Reachable settings q) (s : Submission) (now : Instant) (peers : σ)
    {fault : RequestFault} :
    let outcome := (q.submit s now).run peers
    outcome.value.1 = .error fault → fault.isRefusal = true →
    outcome.value.2 = q ∧
    ((∀ id, fault ≠ .invalid (.alreadyWaiting id)) →
      outcome.peers = peers ∧ Event.deeds outcome.events = []) ∧
    ∀ id, fault = .invalid (.alreadyWaiting id) → id ∈ q.waitingIds ∧
      Event.deeds outcome.events =
        [.called (.subscribe Topic.responseFilter) true, .drew (some id)] := by
  intro outcome hvalue hrefusal
  have heffect : (Exchange.deeds (q.submit s now)).run peers =
      (q.submissionEffect s now).run peers :=
    congrArg (·.run peers) (submit_eq_submissionEffect h s now)
  cases hfault : s.fault? q.settings q.outstanding.requests.length with
  | some found =>
      rw [Exchange.run_deeds, run_submissionEffect_of_fault hfault, Outcome.mk.injEq] at heffect
      obtain ⟨hfound, hpeers, hdeeds⟩ := heffect
      have heq : found = fault := by simpa [outcome, hfound] using hvalue
      have hearly : fault.isEarly = true := heq ▸ Submission.isEarly_of_fault? hfault
      refine ⟨congrArg Prod.snd hfound, fun _ => ⟨hpeers, hdeeds⟩, ?_⟩
      rintro id rfl
      cases hearly
  | none =>
      obtain ⟨requests, horderly, rfl⟩ := h.exists_waitingFor
      obtain ⟨after, hafter, hmove⟩ := exists_move_submit settings requests now s peers
      rw [hvalue] at hmove
      obtain ⟨id, hid, rfl, rfl, hdeeds⟩ := hmove.of_late_refusal hfault hrefusal
      refine ⟨hafter, fun hother => absurd rfl (hother id), ?_⟩
      rintro _ ⟨⟩
      exact ⟨hid, hdeeds⟩

def halfFull : Inquirer :=
  (((new (.atMost 2)).submit (oneKey 0) .start).run
    (⟨.new, ⟨[some 7]⟩⟩ : Peers Recorder Script)).value.2

theorem reachable_halfFull : Reachable (.atMost 2) halfFull :=
  Reachable.new.perform (⟨.new, ⟨[some 7]⟩⟩ : Peers Recorder Script) .start (.submit (oneKey 0))

theorem refused_submission_effect_seven :
    let outcome := (halfFull.submit (oneKey 1) .start).run
      (⟨.new, ⟨[some 7]⟩⟩ : Peers Recorder Script)
    outcome.value.1 = .error (.invalid (.alreadyWaiting 7)) ∧
      (RequestFault.invalid (.alreadyWaiting 7)).isRefusal = true ∧
      outcome.value.2 = halfFull ∧ 7 ∈ halfFull.waitingIds ∧
      Event.deeds outcome.events =
        [.called (.subscribe Topic.responseFilter) true, .drew (some 7)] := by
  intro outcome
  obtain ⟨hkept, -, hlate⟩ :=
    refused_submission_effect reachable_halfFull (oneKey 1) .start
      (⟨.new, ⟨[some 7]⟩⟩ : Peers Recorder Script) rfl rfl
  obtain ⟨hwaiting, hdeeds⟩ := hlate 7 rfl
  exact ⟨rfl, rfl, hkept, hwaiting, hdeeds⟩

/-- That a submission refused for what it asks or for want of room makes no call. -/
def RefusesBeforeCalling : Prop :=
  ∀ (σ : Type) [Channel σ] [IdSource σ] (settings : Settings) (q : Inquirer) (s : Submission)
    (now : Instant) (peers : σ) (fault : RequestFault),
    let outcome := (q.submit s now).run peers
    Reachable settings q → outcome.value.1 = .error fault → fault.isRefusal = true →
    Event.calls outcome.events = []

theorem not_refusesBeforeCalling : ¬ RefusesBeforeCalling := by
  intro hrefuses
  have hnone := hrefuses (Peers Recorder Script) (.atMost 2) halfFull (oneKey 1) .start
    ⟨.new, ⟨[some 7]⟩⟩ (.invalid (.alreadyWaiting 7)) reachable_halfFull rfl rfl
  exact absurd hnone (by decide)

/-!
## Submissions that could not be sent

A submission that fails runs no handler, except where its request was opened and could not be sent.
Such a request stays pending under its id, so it can still be answered and it can expire, and its
handlers run as for any other. Left alone it goes when its deadline comes, and never if it has none.
-/

/-- The runs of a failed submission. There are none unless the request could not be sent; one that
could not runs the handler for the fate that the later results give its id. -/
theorem failed_submission_runs (settings : Settings) (history : List (Instant × Operation))
    (peers : σ) :
    let outcome := ((new settings).performAll (labelled history)).run peers
    ∀ position now s fault, history[position]? = some (now, .submit s) →
      outcome.value.1[position]? = some (.submitted (.error fault)) →
      ((∀ id, fault ≠ .notSent id) →
        ∀ handler, outcome.events.countP (Event.isRunOf handler position) = 0) ∧
      ∀ id, fault = .notSent id →
        ∀ handler, outcome.events.countP (Event.isRunOf handler position) =
          if (outcome.value.1.drop (position + 1)).findSome? (·.fateOf? id) =
              some (.ofRun handler) ∧ s.inquiry.has handler
          then 1 else 0 := by
  intro outcome position now s fault hoperation hresult
  have hruns := (accounted_performAll settings history peers).runs position
  have hadmission : admissionAt? settings (labelled history) outcome.value.1 position =
      (Result.submitted (.error fault)).admitted?.map fun id =>
        ({ s with inquiry.tag := position } : Submission).opening settings id now := by
    simp [admissionAt?, labelled, List.getElem?_mapIdx, hoperation, hresult, Operation.labelled,
      admission?]
  constructor
  · intro hfault handler
    have hnone : (Result.submitted (.error fault)).admitted? = none := by
      cases fault with
      | notSent id => exact absurd rfl (hfault id)
      | _ => rfl
    rw [hruns, record?, hadmission, hnone]
    rfl
  · intro id hfault handler
    rw [hruns, record?, hadmission, hfault]
    cases handler <;> rfl

def mute : Peers Recorder Script :=
  ⟨{ Recorder.new with failing := ⟨true, false, false⟩ }, ⟨[some 1]⟩⟩

theorem failed_submission_runs_mute :
    let history : List (Instant × Operation) :=
      [(.start, .submit (oneKey 0)), (⟨.ofSeconds 1⟩, .retire)]
    let outcome := ((new (.atMost 1)).performAll (labelled history)).run mute
    outcome.value.1[0]? = some (.submitted (.error (.notSent 1))) ∧
      outcome.events.countP (Event.isRunOf .response 0) = 0 ∧
      outcome.events.countP (Event.isRunOf .expiry 0) = 1 := by
  intro history outcome
  have hruns := (failed_submission_runs (.atMost 1) history mute 0 .start (oneKey 0) (.notSent 1)
    rfl rfl).2 1 rfl
  exact ⟨rfl, hruns .response, hruns .expiry⟩

def Silent (handler : Inquiry.Handler) : Prop :=
  ∀ (σ : Type) [Channel σ] [IdSource σ] (settings : Settings)
    (history : List (Instant × Operation)) (peers : σ) (position : Nat) (fault : RequestFault),
    let outcome := ((new settings).performAll (labelled history)).run peers
    outcome.value.1[position]? = some (.submitted (.error fault)) →
    outcome.events.countP (Event.isRunOf handler position) = 0

theorem failed_submission_not_silent : ¬ Silent .response ∧ ¬ Silent .expiry := by
  constructor
  · intro hsilent
    have hnone := hsilent (Peers Recorder Script) (.atMost 1)
      [(.start, .submit (oneKey 0)),
        (.start, .receive "v1/devices/me/attributes/response/1" (.object []))]
      mute 0 (.notSent 1) rfl
    exact absurd hnone (by decide)
  · intro hsilent
    have hnone := hsilent (Peers Recorder Script) (.atMost 1)
      [(.start, .submit (oneKey 0)), (⟨.ofSeconds 1⟩, .retire)] mute 0 (.notSent 1) rfl
    exact absurd hnone (by decide)

/-! ### How long such a request stays -/

/-- What becomes of a request that could not be sent and that nobody answers or drops. It has
expired once due requests were retired at its deadline or later, and it is pending until then: for
ever if it has no timeout, neither of its own nor from the settings, or if its deadline would be no
instant. -/
theorem unsent_request_stays_until_deadline (settings : Settings)
    (earlier later : List (Instant × Operation)) (opened : Instant) (s : Submission) (peers : σ)
    (id : RequestId) :
    let history := earlier ++ (opened, .submit s) :: later
    let outcome := ((new settings).performAll (labelled history)).run peers
    let deadline? := (s.inquiry.timeout.or settings.timeout).bind opened.add?
    let fate := (record? settings (labelled history) outcome.value.1 earlier.length).map (·.fate?)
    outcome.value.1[earlier.length]? = some (.submitted (.error (.notSent id))) →
    (∀ entry ∈ later, ¬ entry.2.Closes id) →
    outcome.value.2.outstanding.requests = pending settings (labelled history) outcome.value.1 ∧
    (∀ deadline, deadline? = some deadline → ∀ now ∈ ticks later, deadline ≤ now →
      fate = some (some .expired)) ∧
    ((∀ deadline, deadline? = some deadline → ∀ now ∈ ticks later, ¬ deadline ≤ now) →
      fate = some none ∧ id ∈ outcome.value.2.waitingIds) := by
  intro history outcome deadline? fate hresult hopen
  have haccounted : Accounted settings (labelled history) outcome :=
    accounted_performAll settings history peers
  have hpending : outcome.value.2.outstanding.requests =
      pending settings (labelled history) outcome.value.1 := by
    rw [haccounted.waiting, outstanding_waitingFor]
  have hoperation : history[earlier.length]? = some (opened, .submit s) := by simp [history]
  obtain ⟨fate?, hrecord⟩ := exists_record_of_admitted settings hoperation hresult rfl
  have hfate : fate? = _ :=
    fate?_of_undisturbed settings earlier later (opened, .submit s) peers hrecord hopen
  have hmap : fate = some fate? := by simp only [fate, hrecord, Option.map_some]
  refine ⟨hpending, fun deadline hdeadline now hnow hle => ?_, fun hearly => ?_⟩
  · rw [hmap, hfate, if_pos]
    exact any_isDue_opening_iff.mpr ⟨deadline, hdeadline, now, hnow, hle⟩
  · rw [if_neg] at hfate
    · refine ⟨by rw [hmap, hfate], ?_⟩
      rw [waitingIds, Outstanding.ids, hpending]
      exact List.mem_map.mpr ⟨_, mem_pending_of_record? hrecord hfate, rfl⟩
    · intro hdue
      obtain ⟨deadline, hdeadline, now, hnow, hle⟩ := any_isDue_opening_iff.mp hdue
      exact hearly deadline hdeadline now hnow hle

theorem unsent_request_stays_until_deadline_mute :
    let early := ((new (.atMost 1)).performAll (labelled
      [(.start, .submit (oneKey 0)), (⟨.ofMillis 999⟩, .retire)])).run mute
    let history : List (Instant × Operation) :=
      [(.start, .submit (oneKey 0)), (⟨.ofSeconds 1⟩, .retire)]
    let outcome := ((new (.atMost 1)).performAll (labelled history)).run mute
    early.value.1[0]? = some (.submitted (.error (.notSent 1))) ∧ 1 ∈ early.value.2.waitingIds ∧
      (record? (.atMost 1) (labelled history) outcome.value.1 0).map (·.fate?) =
        some (some .expired) := by
  intro early history outcome
  have hdeadline : (oneKey 0).inquiry.timeout.bind Instant.start.add? = some ⟨.ofSeconds 1⟩ := rfl
  obtain ⟨-, -, hwaiting⟩ := unsent_request_stays_until_deadline (.atMost 1) []
    [(⟨.ofMillis 999⟩, .retire)] .start (oneKey 0) mute 1 rfl (by simp [Operation.Closes])
  obtain ⟨-, hexpired, -⟩ := unsent_request_stays_until_deadline (.atMost 1) []
    [(⟨.ofSeconds 1⟩, .retire)] .start (oneKey 0) mute 1 rfl (by simp [Operation.Closes])
  refine ⟨rfl, (hwaiting fun deadline hsome now hnow => ?_).2,
    hexpired _ hdeadline ⟨.ofSeconds 1⟩ (by simp [ticks, Operation.tick?]) (by decide)⟩
  obtain rfl : deadline = ⟨.ofSeconds 1⟩ := by simpa using hsome.symm.trans hdeadline
  obtain rfl : now = ⟨.ofMillis 999⟩ := by simpa [ticks, Operation.tick?] using hnow
  decide

/-- That every request that could not be sent has an instant from which on due requests cannot be
retired without it, unless it is answered or dropped first. -/
def ReclaimsUnsent : Prop :=
  ∀ (σ : Type) [Channel σ] [IdSource σ] (settings : Settings)
    (earlier : List (Instant × Operation)) (opened : Instant) (s : Submission) (peers : σ)
    (id : RequestId),
    (((new settings).performAll (labelled (earlier ++ [(opened, .submit s)]))).run
      peers).value.1[earlier.length]? = some (.submitted (.error (.notSent id))) →
    ∃ deadline : Instant, ∀ between now, (∀ entry ∈ between, ¬ entry.2.Closes id) →
      deadline ≤ now →
      let history := earlier ++ (opened, .submit s) :: between ++ [(now, .retire)]
      let outcome := ((new settings).performAll (labelled history)).run peers
      (record? settings (labelled history) outcome.value.1 earlier.length).map (·.fate?) =
        some (some .expired)

def patient : Submission :=
  .ofScope .client ⟨0, ["model"], none, true, none⟩

theorem not_reclaimsUnsent : ¬ ReclaimsUnsent := by
  intro hreclaims
  obtain ⟨deadline, hdeadline⟩ := hreclaims (Peers Recorder Script)
    { Settings.atMost 1 with timeout := none } [] .start patient mute 1 rfl
  have hle : deadline ≤ deadline := (Duration.le_iff_totalNanos_le _ _).mpr (Nat.le_refl _)
  have hexpired := hdeadline [] deadline (by simp) hle
  exact absurd hexpired (by rintro ⟨⟩)

end Inquirer

end AttributeExchange
