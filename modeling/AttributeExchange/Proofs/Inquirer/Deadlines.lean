import AttributeExchange.Proofs.Inquirer.Undisturbed
import AttributeExchange.Proofs.Time

/-!
# Deadlines

A request is due from a number of nanoseconds on that is fixed when it is opened: the instant of its
submission and its timeout. Retirements before that number leave it alone, the first one from there
on takes it out, and what one retirement does to the requests that are waited for follows from which
of them are due.
-/

namespace AttributeExchange

/-- The nanosecond from which on the request of a submission is due: its own timeout after it was
opened, or else the one of the settings, unless there is neither or the sum is no instant. -/
def Submission.dueFrom? (s : Submission) (settings : Settings) (opened : Instant) : Option Nat :=
  (s.inquiry.timeout.or settings.timeout).bind fun timeout =>
    if opened.nanos + timeout.totalNanos < Instant.nanosLimit then
      some (opened.nanos + timeout.totalNanos)
    else none

namespace Inquirer

theorem map_deadline_opening (s : Submission) (settings : Settings) (id : RequestId)
    (opened : Instant) :
    (s.opening settings id opened).timer.deadline.map Instant.nanos =
      s.dueFrom? settings opened := by
  change ((s.inquiry.timeout.or settings.timeout).bind opened.add?).map Instant.nanos = _
  rw [Option.map_bind, Submission.dueFrom?]
  congr 1
  funext timeout
  exact opened.add?_map_nanos timeout

theorem isDue_opening (s : Submission) (settings : Settings) (id : RequestId)
    (opened now : Instant) :
    (s.opening settings id opened).isDue now =
      (s.dueFrom? settings opened).any (· ≤ now.nanos) := by
  rw [← map_deadline_opening s settings id opened]
  exact (s.opening settings id opened).timer.isDue_eq_any_nanos now

/-! ## Retirements in a run -/

section Move

variable {settings : Settings} {requests after : List OpenRequest} {now : Instant}
  {operation : Operation} {result : Result} {deeds : List Event}

theorem Operation.eq_retire_of_tick? {tick : Instant} (h : operation.tick? now = some tick) :
    operation = .retire := by
  cases operation with
  | retire => rfl
  | submit => cases h
  | receive => cases h
  | cancelAll => cases h
  | reconnect => cases h

theorem Move.tick?_of_expired (hmove : Move settings requests now operation result deeds after)
    {id : RequestId} (hexpired : result.fateOf? id = some .expired) :
    operation.tick? now = some now := by
  cases hmove with
  | refused => cases hexpired
  | notSubscribed => cases hexpired
  | noId => cases hexpired
  | alreadyWaiting => cases hexpired
  | opened => cases hexpired
  | unknown => cases hexpired
  | @answered _ _ request =>
      by_cases hid : request.id = id <;> simp [Result.fateOf?, hid] at hexpired
  | idle => rfl
  | retired => rfl
  | cancelled => cases hexpired

end Move

section Run

variable {σ : Type} [Channel σ] [IdSource σ]

theorem mem_pending_and_tag_iff {settings : Settings} {history : List (Instant × Operation)}
    {results : List Result} {position : Nat} {request : OpenRequest} :
    request ∈ pending settings (labelled history) results ∧ request.inquiry.tag = position ↔
      record? settings (labelled history) results position = some ⟨request, none⟩ := by
  have hfilter : request ∈ pending settings (labelled history) results ∧
      request.inquiry.tag = position ↔
        request ∈ ((record? settings (labelled history) results position).bind
          Record.pending?).toList := by
    rw [← filter_tag_pending, List.mem_filter, decide_eq_true_iff]
  rw [hfilter, Option.mem_toList]
  constructor
  · intro hbind
    obtain ⟨⟨opened, fate?⟩, hrecord, hpending⟩ := Option.bind_eq_some_iff.mp hbind
    rw [hrecord]
    cases fate? with
    | none =>
        obtain rfl : opened = request := Option.some.inj hpending
        rfl
    | some fate => cases hpending
  · intro hrecord
    rw [hrecord]
    rfl

theorem mem_requests_and_tag_iff (settings : Settings) (history : List (Instant × Operation))
    (peers : σ) {position : Nat} {request : OpenRequest} :
    let outcome := ((new settings).performAll (labelled history)).run peers
    request ∈ outcome.value.2.outstanding.requests ∧ request.inquiry.tag = position ↔
      record? settings (labelled history) outcome.value.1 position = some ⟨request, none⟩ := by
  intro outcome
  have haccounted : Accounted settings (labelled history) outcome :=
    accounted_performAll settings history peers
  rw [haccounted.waiting, outstanding_waitingFor]
  exact mem_pending_and_tag_iff

theorem record?_concat_retire (settings : Settings) (history : List (Instant × Operation))
    (now : Instant) (peers : σ) {position : Nat} {request : OpenRequest} :
    let outcome := ((new settings).performAll (labelled history)).run peers
    let whole := ((new settings).performAll (labelled (history ++ [(now, .retire)]))).run peers
    record? settings (labelled history) outcome.value.1 position = some ⟨request, none⟩ →
    record? settings (labelled (history ++ [(now, .retire)])) whole.value.1 position =
      some ⟨request, if request.isDue now then some .expired else none⟩ := by
  intro outcome whole hrecord
  have haccounted : Accounted settings (labelled history) outcome :=
    accounted_performAll settings history peers
  have hposition : position < (labelled history).length := by
    by_contra hlast
    rw [record?_eq_none (by omega)] at hrecord
    cases hrecord
  obtain ⟨result, _, _, hresults, hmove⟩ :=
    exists_move_concat settings history now .retire peers
  have hfate : result.fateOf? request.id = if request.isDue now then some .expired else none :=
    hmove.fateOf?_of_not_closes haccounted.orderly (mem_pending_of_record? hrecord rfl) id
  rw [show whole.value.1 = _ from hresults, labelled_concat,
    record?_append haccounted.length hposition, hrecord]
  simp [Record.after, hfate]

/-- A request that expired did so in a retirement that found it pending and due. -/
theorem exists_retire_of_expired (settings : Settings) (history : List (Instant × Operation))
    (peers : σ) {position : Nat} {request : OpenRequest} :
    let run (history : List (Instant × Operation)) :=
      ((new settings).performAll (labelled history)).run peers
    record? settings (labelled history) (run history).value.1 position =
      some ⟨request, some .expired⟩ →
    ∃ earlier now later, history = earlier ++ (now, .retire) :: later ∧
      record? settings (labelled earlier) (run earlier).value.1 position = some ⟨request, none⟩ ∧
      request.isDue now = true := by
  intro run
  -- From the end: the last operation is the one, or one before it was.
  induction history using List.reverseRecOn with
  | nil =>
      intro hrecord
      cases hrecord
  | append_singleton history last ih =>
      intro hrecord
      obtain ⟨now, operation⟩ := last
      rcases exists_move_of_record?_concat settings history now operation peers hrecord with
        ⟨-, hnew⟩ | ⟨⟨opened, fate?⟩, result, _, _, hbefore, hafter, hmove⟩
      · cases hnew
      obtain rfl : request = opened := congrArg Record.request hafter
      have hfate : fate?.or (result.fateOf? request.id) = some .expired := by
        simpa [Record.after] using (congrArg Record.fate? hafter).symm
      cases fate? with
      | some fate =>
          obtain rfl : fate = .expired := Option.some.inj hfate
          obtain ⟨earlier, tick, later, rfl, hpending, hdue⟩ := ih hbefore
          exact ⟨earlier, tick, later ++ [(now, operation)], by simp, hpending, hdue⟩
      | none =>
          have htick := hmove.tick?_of_expired hfate
          rw [Operation.tick?_labelled] at htick
          obtain rfl := Operation.eq_retire_of_tick? htick
          have hexpired : result.fateOf? request.id =
              if request.isDue now then some .expired else none :=
            hmove.fateOf?_of_not_closes (accounted_performAll settings history peers).orderly
              (mem_pending_of_record? hbefore rfl) id
          refine ⟨history, now, [], rfl, hbefore, ?_⟩
          by_contra hnot
          rw [if_neg hnot] at hexpired
          cases hexpired.symm.trans hfate

/-! ## One retirement -/

omit [IdSource σ] in
theorem run_retire_of_idle {q : Inquirer} {now : Instant}
    (hdue : q.outstanding.requests.filter (·.isDue now) = []) (peers : σ) :
    (q.retire now).run peers = ⟨([], q), peers, []⟩ := by
  simp [retire, Outstanding.takeDue, hdue]

/-- What a retirement at an instant comes to: the ids of what was due, what is left, and the expiry
handlers in order before the release of the filter. -/
structure RetiredAt (settings : Settings) (requests : List OpenRequest) (now : Instant)
    (outcome : Outcome σ (List RequestId × Inquirer)) : Prop where
  ids : outcome.value.1 = (requests.filter (·.isDue now)).map (·.id)
  inquirer : outcome.value.2 = waitingFor settings (requests.filter (!·.isDue now))
  deeds : ∃ lapsed accepted, Lapsing (requests.filter (·.isDue now)) lapsed ∧
    Event.deeds outcome.events = lapsed ++
      if requests.filter (·.isDue now) ≠ [] ∧ requests.filter (!·.isDue now) = [] then
        [.called (.unsubscribe Topic.responseFilter) accepted]
      else []

omit [IdSource σ] in
theorem retiredAt_retire (settings : Settings) (requests : List OpenRequest) (now : Instant)
    (peers : σ) :
    RetiredAt settings requests now (((waitingFor settings requests).retire now).run peers) := by
  by_cases hdue : requests.filter (·.isDue now) = []
  · have hleft : requests.filter (!·.isDue now) = requests := by
      refine List.filter_eq_self.mpr fun request hmem => ?_
      simpa using List.filter_eq_nil_iff.mp hdue request hmem
    rw [run_retire_of_idle hdue]
    exact ⟨by simp [hdue], by rw [hleft], [], true, hdue ▸ .nil, by simp [hdue, Event.deeds]⟩
  · have hrun := congrArg (·.run peers) (deeds_retire (σ := σ) settings requests now)
    simp only [if_neg hdue, Exchange.run_deeds, Exchange.run_bind, Exchange.run_pure,
      List.append_nil, Outcome.mk.injEq, Prod.ext_iff] at hrun
    obtain ⟨⟨hids, hinquirer⟩, -, hdeeds⟩ := hrun
    obtain ⟨accepted, hrelease⟩ := exists_run_release (requests.filter (!·.isDue now))
      ((lapseEach (requests.filter (·.isDue now))).run peers).peers
    refine ⟨hids, hinquirer, _, accepted, lapsing_lapseEach _ peers, ?_⟩
    rw [hdeeds, hrelease, releaseDeeds]
    simp [hdue]

omit [Channel σ] [IdSource σ] in
theorem RetiredAt.runs {settings : Settings} {requests : List OpenRequest} {now : Instant}
    {outcome : Outcome σ (List RequestId × Inquirer)}
    (h : RetiredAt settings requests now outcome) :
    Event.runs outcome.events = lapses (requests.filter (·.isDue now)) := by
  obtain ⟨lapsed, accepted, hlapsed, hdeeds⟩ := h.deeds
  rw [← Event.runs_deeds, hdeeds, Event.runs_append, hlapsed.runs_eq]
  split
  · exact List.append_nil _
  · exact List.append_nil _

/-- What becomes of the request of a submission over a whole run. -/
theorem fate_from_deadline_on (settings : Settings) (peers : σ)
    (history : List (Instant × Operation)) (position : Nat) (opened : Instant) (s : Submission)
    (id : RequestId) :
    let run (history : List (Instant × Operation)) :=
      ((new settings).performAll (labelled history)).run peers
    let fate (history : List (Instant × Operation)) :=
      (record? settings (labelled history) (run history).value.1 position).map (·.fate?)
    let isDue (now : Instant) := (s.dueFrom? settings opened).any (· ≤ now.nanos)
    history[position]? = some (opened, .submit s) →
    (run history).value.1[position]?.bind Result.admitted? = some id →
    (fate history = some none ↔
      ∃ request ∈ (run history).value.2.outstanding.requests, request.inquiry.tag = position) ∧
    (∀ request ∈ (run history).value.2.outstanding.requests, request.inquiry.tag = position →
      request.id = id ∧
        request.timer.deadline.map Instant.nanos = s.dueFrom? settings opened) ∧
    (fate history = some none → ∀ now, fate (history ++ [(now, .retire)]) =
      some (if isDue now then some .expired else none)) ∧
    (fate history = some (some .expired) → ∃ earlier now later,
      history = earlier ++ (now, .retire) :: later ∧ fate earlier = some none ∧
        isDue now = true) := by
  intro run fate isDue hoperation hadmitted
  obtain ⟨result, hresult, hid⟩ := Option.bind_eq_some_iff.mp hadmitted
  obtain ⟨fate?, hrecord⟩ := exists_record_of_admitted settings hoperation hresult hid
  have hdue (now : Instant) :
      (({ s with inquiry.tag := position } : Submission).opening settings id opened).isDue now =
        isDue now :=
    isDue_opening { s with inquiry.tag := position } settings id opened now
  -- What is waited for under the label is the request of the submission.
  have hopen {request : OpenRequest}
      (hmem : request ∈ (run history).value.2.outstanding.requests)
      (htag : request.inquiry.tag = position) :
      ({ s with inquiry.tag := position } : Submission).opening settings id opened = request ∧
        fate? = none := by
    have hother := (mem_requests_and_tag_iff settings history peers).mp ⟨hmem, htag⟩
    cases hrecord.symm.trans hother
    exact ⟨rfl, rfl⟩
  have hfate : fate history = some fate? := by simp only [fate, hrecord, Option.map_some]
  rw [hfate]
  refine ⟨⟨fun hnone => ?_, ?_⟩, fun request hmem htag => ?_, fun hnone now => ?_,
    fun hexpired => ?_⟩
  · obtain rfl := Option.some.inj hnone
    exact ⟨_, (mem_requests_and_tag_iff settings history peers).mpr hrecord⟩
  · rintro ⟨request, hmem, htag⟩
    rw [(hopen hmem htag).2]
  · obtain ⟨rfl, -⟩ := hopen hmem htag
    exact ⟨rfl, map_deadline_opening { s with inquiry.tag := position } settings id opened⟩
  · obtain rfl := Option.some.inj hnone
    rw [← hdue]
    exact congrArg (Option.map Record.fate?)
      (record?_concat_retire settings history now peers hrecord)
  · obtain rfl := Option.some.inj hexpired
    obtain ⟨earlier, now, later, hhistory, hpending, hpast⟩ :=
      exists_retire_of_expired settings history peers hrecord
    refine ⟨earlier, now, later, hhistory, ?_, (hdue now).symm.trans hpast⟩
    exact congrArg (Option.map Record.fate?) hpending

omit [IdSource σ] in
theorem retire_of_reachable {settings : Settings} {q : Inquirer} (h : Reachable settings q)
    (now : Instant) (peers : σ) :
    let outcome := (q.retire now).run peers
    let due := q.outstanding.requests.filter fun request =>
      (request.timer.deadline.map Instant.nanos).any (· ≤ now.nanos)
    let rest := q.outstanding.requests.filter fun request =>
      !(request.timer.deadline.map Instant.nanos).any (· ≤ now.nanos)
    outcome.value.1 = due.map (·.id) ∧ outcome.value.2.outstanding.requests = rest ∧
      Event.runs outcome.events = lapses due ∧
      (∃ lapsed accepted, Lapsing due lapsed ∧ Event.deeds outcome.events =
        lapsed ++
          if due ≠ [] ∧ rest = [] then [.called (.unsubscribe Topic.responseFilter) accepted]
          else []) ∧
      (due = [] → outcome = ⟨([], q), peers, []⟩) := by
  have hsame (request : OpenRequest) :
      (request.timer.deadline.map Instant.nanos).any (· ≤ now.nanos) = request.isDue now :=
    (request.timer.isDue_eq_any_nanos now).symm
  simp only [hsame]
  rw [h.eq_waitingFor]
  have hretired := retiredAt_retire settings q.outstanding.requests now peers
  exact ⟨hretired.ids, congrArg (·.outstanding.requests) hretired.inquirer, hretired.runs,
    hretired.deeds, fun hdue => run_retire_of_idle hdue peers⟩

/-- Deadlines over a whole run. While the request of a submission is pending, its deadline is the
instant of the submission and its timeout, to the nanosecond, whatever else has happened; every
prefix of a run is one, so it never changes. A retirement makes it expire if that deadline has come
and leaves it pending otherwise, and only such a retirement makes it expire. One retirement of any
reachable inquirer takes out the requests that are due, in order, runs their expiry handlers in that
order and no response handler, keeps the others as they are, and gives the filter up if it took
something out and nothing is left; when nothing is due it does nothing at all. -/
theorem retired_from_deadline_on (settings : Settings) (peers : σ) :
    (∀ (history : List (Instant × Operation)) (position : Nat) (opened : Instant) (s : Submission)
        (id : RequestId),
      let run (history : List (Instant × Operation)) :=
        ((new settings).performAll (labelled history)).run peers
      let fate (history : List (Instant × Operation)) :=
        (record? settings (labelled history) (run history).value.1 position).map (·.fate?)
      let isDue (now : Instant) := (s.dueFrom? settings opened).any (· ≤ now.nanos)
      history[position]? = some (opened, .submit s) →
      (run history).value.1[position]?.bind Result.admitted? = some id →
      (fate history = some none ↔
        ∃ request ∈ (run history).value.2.outstanding.requests, request.inquiry.tag = position) ∧
      (∀ request ∈ (run history).value.2.outstanding.requests, request.inquiry.tag = position →
        request.id = id ∧
          request.timer.deadline.map Instant.nanos = s.dueFrom? settings opened) ∧
      (fate history = some none → ∀ now, fate (history ++ [(now, .retire)]) =
        some (if isDue now then some .expired else none)) ∧
      (fate history = some (some .expired) → ∃ earlier now later,
        history = earlier ++ (now, .retire) :: later ∧ fate earlier = some none ∧
          isDue now = true)) ∧
    ∀ q, Reachable settings q → ∀ now,
      let outcome := (q.retire now).run peers
      let due := q.outstanding.requests.filter fun request =>
        (request.timer.deadline.map Instant.nanos).any (· ≤ now.nanos)
      let rest := q.outstanding.requests.filter fun request =>
        !(request.timer.deadline.map Instant.nanos).any (· ≤ now.nanos)
      outcome.value.1 = due.map (·.id) ∧ outcome.value.2.outstanding.requests = rest ∧
        Event.runs outcome.events = lapses due ∧
        (∃ lapsed accepted, Lapsing due lapsed ∧ Event.deeds outcome.events =
          lapsed ++
            if due ≠ [] ∧ rest = [] then [.called (.unsubscribe Topic.responseFilter) accepted]
            else []) ∧
        (due = [] → outcome = ⟨([], q), peers, []⟩) := by
  refine ⟨fun history position opened s id =>
    fate_from_deadline_on settings peers history position opened s id, fun q hreachable now => ?_⟩
  exact retire_of_reachable hreachable now peers

/-- A request that is opened at once and due after a second. -/
theorem retired_from_deadline_on_second :
    let peers : Peers Recorder Script := ⟨.new, ⟨[some 7]⟩⟩
    let history : List (Instant × Operation) := [(.start, .submit (oneKey 0))]
    let fate (history : List (Instant × Operation)) :=
      (record? (.atMost 1) (labelled history)
        (((new (.atMost 1)).performAll (labelled history)).run peers).value.1 0).map (·.fate?)
    let outcome := (full.retire ⟨.ofSeconds 1⟩).run peers
    (oneKey 0).dueFrom? (.atMost 1) .start = some 1000000000 ∧
      fate (history ++ [(⟨.ofMillis 999⟩, .retire)]) = some none ∧
      fate (history ++ [(⟨.ofSeconds 1⟩, .retire)]) = some (some .expired) ∧
      outcome.value.1 = [7] ∧ outcome.value.2.outstanding.requests = [] ∧
      (full.retire ⟨.ofMillis 999⟩).run peers = ⟨([], full), peers, []⟩ := by
  intro peers history fate outcome
  have hfull : Reachable (.atMost 1) full :=
    Reachable.new.perform (⟨.new, ⟨[some 7]⟩⟩ : Peers Recorder Script) .start (.submit (oneKey 0))
  obtain ⟨hrun, hretire⟩ := retired_from_deadline_on (.atMost 1) peers
  obtain ⟨-, -, hafter, -⟩ := hrun history 0 .start (oneKey 0) 7 rfl rfl
  have hdue : (oneKey 0).dueFrom? (.atMost 1) .start = some 1000000000 := by decide
  obtain ⟨hids, hrest, -, -, -⟩ := hretire full hfull ⟨.ofSeconds 1⟩
  obtain ⟨-, -, -, -, hidle⟩ := hretire full hfull ⟨.ofMillis 999⟩
  exact ⟨hdue, hafter rfl ⟨.ofMillis 999⟩, hafter rfl ⟨.ofSeconds 1⟩, hids, hrest, hidle rfl⟩

end Run

end Inquirer

end AttributeExchange
