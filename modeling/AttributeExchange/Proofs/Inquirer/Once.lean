import AttributeExchange.Proofs.Inquirer.Move
import AttributeExchange.Proofs.Inquirer.Records
import AttributeExchange.Proofs.Pending.Ledger

/-!
# Every admitted submission is settled once

The run of an inquirer agrees with the records of its history: what it waits for are the requests
of the pending submissions in order, and the handlers of a submission have run as its fate says. One
move closes those requests that its result names and runs the handlers of no other, which carries
the agreement from each operation to the next.
-/

namespace AttributeExchange.Inquirer

/-! ## What a move closes -/

section Orderly

variable {requests : List OpenRequest}

theorem Orderly.eq_of_id_eq (h : Orderly requests) {request other : OpenRequest}
    (hrequest : request ∈ requests) (hother : other ∈ requests) (hid : request.id = other.id) :
    request = other :=
  List.inj_on_of_nodup_map h.ids hrequest hother hid

theorem Orderly.filter_fulfilled (h : Orderly requests) {request : OpenRequest}
    (hrequest : request ∈ requests) :
    requests.filter (fun other =>
        (Result.received (.answered request.id)).fateOf? other.id = some .fulfilled) =
      [request] := by
  rw [← OpenRequest.filter_id_eq_singleton h.ids hrequest]
  refine List.filter_congr fun other _ => ?_
  by_cases hid : request.id = other.id
  · simp [Result.fateOf?, hid]
  · simp [Result.fateOf?, hid, Ne.symm hid]

theorem Orderly.filter_expired (h : Orderly requests) (p : OpenRequest → Bool) :
    requests.filter (fun request =>
        (Result.retired ((requests.filter p).map (·.id))).fateOf? request.id = some .expired) =
      requests.filter p := by
  refine List.filter_congr fun request hrequest => ?_
  simp only [Result.fateOf?, OpenRequest.mem_ids_filter h.ids p hrequest]
  cases p request <;> rfl

end Orderly

section Move

variable {settings : Settings} {requests after : List OpenRequest} {now : Instant}
  {operation : Operation} {result : Result} {deeds : List Event}

theorem admitted?_of_fault? {s : Submission} {count : Nat} {fault : RequestFault}
    (hfault : s.fault? settings count = some fault) :
    (Result.submitted (.error fault)).admitted? = none := by
  have hearly : fault.isEarly = true := Submission.isEarly_of_fault? hfault
  cases fault with
  | notSent id => exact absurd hearly Bool.false_ne_true
  | _ => rfl

/-- A move takes out exactly the requests that its result names and appends the one it admits. -/
theorem Move.after_eq (hmove : Move settings requests now operation result deeds after)
    (h : Orderly requests) :
    after = requests.filter (fun request => (result.fateOf? request.id).isNone) ++
      (admission? settings now result operation).toList := by
  cases hmove with
  | refused hfault =>
      simp [admission?, admitted?_of_fault? hfault, Result.fateOf?]
  | notSubscribed => simp [admission?, Result.admitted?, Result.fateOf?]
  | noId => simp [admission?, Result.admitted?, Result.fateOf?]
  | alreadyWaiting => simp [admission?, Result.admitted?, Result.fateOf?]
  | opened hfault hid accepted =>
      cases accepted <;> simp [admission?, Result.admitted?, Result.fateOf?]
  | unknown => simp [admission?, Result.fateOf?]
  | @answered topic document request haddressee =>
      simp only [admission?, Result.fateOf?, Option.toList_none, List.append_nil,
        OpenRequest.eraseP_id h.ids]
      refine List.filter_congr fun other _ => ?_
      by_cases hid : request.id = other.id
      · simp [hid]
      · simp [hid, Ne.symm hid]
  | idle => simp [admission?, Result.fateOf?]
  | retired =>
      simp only [admission?, Result.fateOf?, Option.toList_none, List.append_nil]
      refine List.filter_congr fun other hother => ?_
      simp only [OpenRequest.mem_ids_filter h.ids _ hother]
      cases other.isDue now <;> rfl
  | cancelled hall =>
      rcases hall with rfl | rfl <;> simp [admission?, Result.fateOf?]

@[simp] theorem countP_isRunOf_releaseDeeds (handler : Inquiry.Handler) (tag : Nat)
    (accepted : Bool) :
    (releaseDeeds requests accepted).countP (Event.isRunOf handler tag) = 0 := by
  by_cases hrequests : requests = [] <;> simp [releaseDeeds, hrequests, Event.isRunOf]

@[simp] theorem countP_isRunOf_forwardDeeds (handler : Inquiry.Handler) (tag : Nat)
    (inquiry : Inquiry) (value : Json) (accepted : Bool) :
    (forwardDeeds inquiry value accepted).countP (Event.isRunOf handler tag) = 0 := by
  cases hforward : inquiry.forwardTo <;> simp [forwardDeeds, hforward, Event.isRunOf]

/-- A move runs the handlers of exactly those requests that its result gives the fate for it. -/
theorem Move.countP_isRunOf (hmove : Move settings requests now operation result deeds after)
    (h : Orderly requests) (handler : Inquiry.Handler) (tag : Nat) :
    deeds.countP (Event.isRunOf handler tag) =
      (requests.filter (fun request => result.fateOf? request.id = some (.ofRun handler))).countP
        fun request => request.inquiry.has handler && request.inquiry.tag = tag := by
  cases hmove with
  | refused => simp [Result.fateOf?]
  | notSubscribed => simp [Result.fateOf?, Event.isRunOf]
  | noId => simp [Result.fateOf?, Event.isRunOf]
  | alreadyWaiting => simp [Result.fateOf?, Event.isRunOf]
  | opened => simp [Result.fateOf?, Event.isRunOf]
  | unknown => simp [Result.fateOf?]
  | @answered topic document request haddressee =>
      have hmem : request ∈ requests := by
        obtain ⟨id, -, hfind⟩ := Option.bind_eq_some_iff.mp haddressee
        exact List.mem_of_find?_eq_some hfind
      cases handler with
      | response =>
          rw [Fate.ofRun, h.filter_fulfilled hmem]
          simp [Event.isRunOf, Inquiry.has, List.countP_cons]
      | expiry => simp [Result.fateOf?, Event.isRunOf, Fate.ofRun]
  | idle => simp [Result.fateOf?]
  | retired _ hlapsed =>
      cases handler with
      | response =>
          have hlapses : ∀ event ∈ lapses (requests.filter (·.isDue now)),
              ¬ Event.isRunOf .response tag event = true := by
            intro event hevent
            obtain ⟨request, -, rfl⟩ := List.mem_map.mp hevent
            simp [Event.isRunOf]
          rw [List.countP_append, ← Event.countP_isRunOf_runs, hlapsed.runs_eq,
            List.countP_eq_zero.mpr hlapses, countP_isRunOf_releaseDeeds]
          simp [Result.fateOf?, Fate.ofRun]
      | expiry =>
          rw [Fate.ofRun, h.filter_expired, List.countP_append, countP_isRunOf_releaseDeeds,
            ← Event.countP_isRunOf_runs, hlapsed.runs_eq, lapses, List.countP_map,
            List.countP_filter]
          refine List.countP_congr fun request _ => ?_
          simp [Event.isRunOf, Inquiry.has, and_comm]
  | cancelled => cases handler <;> simp [Result.fateOf?, Event.isRunOf, Fate.ofRun]

end Move

/-! ## Histories -/

variable {σ : Type} [Channel σ] [IdSource σ]

theorem run_performAll_cons (q : Inquirer) (now : Instant) (operation : Operation)
    (history : List (Instant × Operation)) (peers : σ) :
    (q.performAll ((now, operation) :: history)).run peers =
      let first := (q.perform now operation).run peers
      let rest := (first.value.2.performAll history).run first.peers
      ⟨(first.value.1 :: rest.value.1, rest.value.2), rest.peers, first.events ++ rest.events⟩ := by
  simp [performAll]

theorem run_performAll_append (q : Inquirer) (history later : List (Instant × Operation))
    (peers : σ) :
    (q.performAll (history ++ later)).run peers =
      let first := (q.performAll history).run peers
      let second := (first.value.2.performAll later).run first.peers
      ⟨(first.value.1 ++ second.value.1, second.value.2), second.peers,
        first.events ++ second.events⟩ := by
  induction history generalizing q peers with
  | nil => simp [performAll]
  | cons entry history ih =>
      obtain ⟨now, operation⟩ := entry
      simp [performAll, ih]

/-- That a run agrees with the records of its history. -/
structure Accounted (settings : Settings) (history : List (Instant × Operation))
    (outcome : Outcome σ (List Result × Inquirer)) : Prop where
  length : outcome.value.1.length = history.length
  orderly : Orderly (pending settings history outcome.value.1)
  waiting : outcome.value.2 = waitingFor settings (pending settings history outcome.value.1)
  runs : ∀ position handler,
    outcome.events.countP (Event.isRunOf handler position) =
      (record? settings history outcome.value.1 position).elim 0 (·.runs handler)

omit [Channel σ] [IdSource σ] in
theorem Accounted.concat {settings : Settings} {history : List (Instant × Operation)}
    {outcome : Outcome σ (List Result × Inquirer)} {now : Instant} {operation : Operation}
    {step : Outcome σ (Result × Inquirer)}
    (h : Accounted settings (labelled history) outcome)
    (hstep : Ends settings (pending settings (labelled history) outcome.value.1) now
      (operation.labelled history.length) ⟨step.value, step.peers, Event.deeds step.events⟩) :
    Accounted settings (labelled (history ++ [(now, operation)]))
      ⟨(outcome.value.1 ++ [step.value.1], step.value.2), step.peers,
        outcome.events ++ step.events⟩ := by
  obtain ⟨after, hvalue, hmove⟩ := hstep
  have hlength : outcome.value.1.length = (labelled history).length := h.length
  have hpending : pending settings (labelled (history ++ [(now, operation)]))
      (outcome.value.1 ++ [step.value.1]) = after := by
    rw [labelled_concat, pending_concat hlength]
    exact (hmove.after_eq h.orderly).symm
  refine ⟨?_, ?_, ?_, fun position handler => ?_⟩
  · simpa using hlength
  · rw [hpending]
    exact hmove.orderly h.orderly
  · rw [hpending]
    exact hvalue
  · rw [List.countP_append, h.runs position handler, runs_record?_concat hlength,
      ← hmove.countP_isRunOf h.orderly, Event.countP_isRunOf_deeds]

/-- Every run from the beginning agrees with its records. -/
theorem accounted_performAll (settings : Settings) (history : List (Instant × Operation))
    (peers : σ) :
    Accounted settings (labelled history)
      (((new settings).performAll (labelled history)).run peers) := by
  -- From the end: each operation meets the inquirer that those before it left.
  induction history using List.reverseRecOn with
  | nil =>
      refine ⟨rfl, .nil, new_eq_waitingFor settings, fun position handler => ?_⟩
      rw [record?_eq_none (Nat.zero_le _)]
      rfl
  | append_singleton history entry ih =>
      obtain ⟨now, operation⟩ := entry
      have hstep := ends_perform settings ih.orderly now (operation.labelled history.length)
        (((new settings).performAll (labelled history)).run peers).peers
      rw [← ih.waiting, Exchange.run_deeds] at hstep
      have hconcat := ih.concat hstep
      rw [labelled_concat] at hconcat ⊢
      rw [run_performAll_append]
      simpa [performAll] using hconcat

/-- Every admitted submission is settled at most once and in one way. At any point of any run,
whatever the channel and the source of ids answer, the inquirer waits for exactly the requests of
the pending submissions, in the order of submission. The response handler of a submission has run
once if it was fulfilled, its expiry handler once if it expired and brought one, and no other
handler has run; nothing has run for a submission that was not admitted. What is not pending stays
as it is and runs no handler again. -/
theorem submission_settled_once (settings : Settings) (history later : List (Instant × Operation))
    (peers : σ) :
    let outcome := ((new settings).performAll (labelled history)).run peers
    let whole := ((new settings).performAll (labelled (history ++ later))).run peers
    outcome.value.1.length = history.length ∧
    outcome.value.2.outstanding.requests =
      pending settings (labelled history) outcome.value.1 ∧
    (∀ position handler, outcome.events.countP (Event.isRunOf handler position) =
      (record? settings (labelled history) outcome.value.1 position).elim 0 (·.runs handler)) ∧
    ∀ position < history.length,
      (record? settings (labelled history) outcome.value.1 position).bind Record.pending? = none →
      record? settings (labelled (history ++ later)) whole.value.1 position =
        record? settings (labelled history) outcome.value.1 position ∧
      ∀ handler, whole.events.countP (Event.isRunOf handler position) =
        outcome.events.countP (Event.isRunOf handler position) := by
  intro outcome whole
  have haccounted : Accounted settings (labelled history) outcome :=
    accounted_performAll settings history peers
  have hwhole : Accounted settings (labelled (history ++ later)) whole :=
    accounted_performAll settings (history ++ later) peers
  refine ⟨by simpa using haccounted.length, ?_, haccounted.runs, ?_⟩
  · rw [haccounted.waiting, outstanding_waitingFor]
  · intro position hposition hclosed
    obtain ⟨rest, hrest⟩ : ∃ rest, labelled (history ++ later) = labelled history ++ rest :=
      labelled_append
    have hrecord : record? settings (labelled (history ++ later)) whole.value.1 position =
        record? settings (labelled history) outcome.value.1 position := by
      obtain ⟨more, hmore⟩ : ∃ more, whole.value.1 = outcome.value.1 ++ more :=
        ⟨_, by simp only [whole, hrest, run_performAll_append]; rfl⟩
      rw [hmore, hrest]
      exact record?_append_of_closed haccounted.length (by simpa using hposition) hclosed
    refine ⟨hrecord, fun handler => ?_⟩
    rw [hwhole.runs, haccounted.runs, hrecord]

/-- Two requests under one id: the first expires, the second is cancelled. -/
example :
    let later : Instant := ⟨.ofSeconds 1⟩
    let history : List (Instant × Operation) :=
      [(.start, .submit (oneKey 0)), (later, .retire), (later, .submit (oneKey 0)),
        (later, .reconnect)]
    let outcome := ((new (.atMost 1)).performAll (labelled history)).run
      (⟨.new, ⟨[some 7, some 7]⟩⟩ : Peers Recorder Script)
    let records := (List.range 4).map (record? (.atMost 1) (labelled history) outcome.value.1)
    records.map (·.map (·.fate?)) = [some (some .expired), none, some (some .cancelled), none] :=
  rfl

end AttributeExchange.Inquirer
