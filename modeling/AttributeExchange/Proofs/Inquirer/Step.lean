import AttributeExchange.Proofs.Inquirer.Once

/-!
# Steps of a run

A run told operation by operation: the inquirer before and after each, its result and its events.
Which calls an operation makes is read off its step, for every call has one occasion: a submission
that passes its checks subscribes the filter, one that is admitted sends, and the filter is given up
when nothing is left to wait for.
-/

namespace AttributeExchange

/-- Whether an operation is a submission that passes every check made before the channel is
touched, room for one more request among them. -/
def Inquirer.Operation.passes (settings : Settings) (waiting : Nat) : Operation → Bool
  | .submit s => (s.fault? settings waiting).isNone
  | .receive _ _ | .retire | .cancelAll | .reconnect => false

def Event.subscribed (events : List Event) : Bool :=
  decide (.called (.subscribe Topic.responseFilter) true ∈ events)

theorem Event.subscribed_deeds (events : List Event) :
    subscribed (deeds events) = subscribed events := by
  simp [subscribed, deeds, isNotice]

inductive Call.Kind where
  | send
  | subscribe
  | unsubscribe
  deriving DecidableEq, Repr

@[simp] def Call.kind : Call → Kind
  | .send _ _ => .send
  | .subscribe _ => .subscribe
  | .unsubscribe _ => .unsubscribe

namespace Event

@[simp] def isCallOf (kind : Call.Kind) : Event → Bool
  | .called call _ => call.kind = kind
  | .forwarded _ _ | .drew _ | .answered _ _ | .lapsed _ | .asked _ _ | .noted _ => false

theorem countP_isCallOf_deeds (kind : Call.Kind) (events : List Event) :
    (deeds events).countP (isCallOf kind) = events.countP (isCallOf kind) := by
  rw [deeds, List.countP_filter]
  apply List.countP_congr
  intro event _
  cases event <;> simp [isCallOf, isNotice]

end Event

namespace Inquirer

namespace Operation

@[simp] def dropsAll : Operation → Bool
  | .cancelAll | .reconnect => true
  | .submit _ | .receive _ _ | .retire => false

/-- Whether an operation is an answer or a retirement that closed the last of the requests. -/
@[simp] def drains (before after : List OpenRequest) : Operation → Bool
  | .receive _ _ | .retire => !before.isEmpty && after.isEmpty
  | .submit _ | .cancelAll | .reconnect => false

/-- Whether an operation is a submission that subscribed the filter and was not admitted, while
nothing was waited for. -/
@[simp] def subscribesInVain (before : List OpenRequest) (result : Result)
    (events : List Event) : Operation → Bool
  | .submit _ => Event.subscribed events && result.admitted?.isNone && before.isEmpty
  | .receive _ _ | .retire | .cancelAll | .reconnect => false

/-- Whether an operation has an occasion to give the response filter up: the last request was
closed, all were dropped, or the filter was subscribed in vain. -/
@[simp] def releases (before after : List OpenRequest) (result : Result) (events : List Event)
    (operation : Operation) : Bool :=
  operation.drains before after || operation.dropsAll ||
    operation.subscribesInVain before result events

theorem releases_deeds (before after : List OpenRequest) (result : Result) (events : List Event)
    (operation : Operation) :
    operation.releases before after result (Event.deeds events) =
      operation.releases before after result events := by
  cases operation <;> simp [Event.subscribed_deeds]

end Operation

section Move

variable {settings : Settings} {requests after : List OpenRequest} {now : Instant}
  {operation : Operation} {result : Result} {deeds : List Event}

theorem Lapsing.countP_isCallOf {lapsed : List Event} (h : Lapsing requests lapsed)
    (kind : Call.Kind) : lapsed.countP (Event.isCallOf kind) = 0 := by
  rw [List.countP_eq_zero]
  intro event hevent
  obtain ⟨request, -, rfl | ⟨topic, document, accepted, rfl⟩⟩ := h.of_mem hevent
  · exact Bool.false_ne_true
  · exact Bool.false_ne_true

@[simp] theorem countP_isCallOf_forwardDeeds (kind : Call.Kind) (inquiry : Inquiry) (value : Json)
    (accepted : Bool) :
    (forwardDeeds inquiry value accepted).countP (Event.isCallOf kind) = 0 := by
  rw [forwardDeeds, List.countP_map]
  exact List.countP_eq_zero.mpr fun _ _ => Bool.false_ne_true

@[simp] theorem countP_isCallOf_releaseDeeds (kind : Call.Kind) (requests : List OpenRequest)
    (accepted : Bool) :
    (releaseDeeds requests accepted).countP (Event.isCallOf kind) =
      if requests = [] ∧ kind = .unsubscribe then 1 else 0 := by
  by_cases hrequests : requests = [] <;> cases kind <;>
    simp [releaseDeeds, hrequests, Event.isCallOf, Call.kind]

theorem Move.countP_subscribe (hmove : Move settings requests now operation result deeds after) :
    deeds.countP (Event.isCallOf .subscribe) =
      (operation.passes settings requests.length).toNat := by
  cases hmove with
  | refused hfault => simp [Operation.passes, hfault]
  | notSubscribed hfault => simp [Operation.passes, hfault]
  | noId hfault => simp [Operation.passes, hfault]
  | alreadyWaiting hfault => simp [Operation.passes, hfault]
  | opened hfault => simp [Operation.passes, hfault]
  | unknown => rfl
  | answered => simp [Operation.passes]
  | idle => rfl
  | retired _ hlapsed => simp [Operation.passes, hlapsed.countP_isCallOf]
  | cancelled hall => rcases hall with rfl | rfl <;> rfl

theorem Move.countP_send (hmove : Move settings requests now operation result deeds after) :
    deeds.countP (Event.isCallOf .send) = result.admitted?.isSome.toNat := by
  cases hmove with
  | refused hfault => simp [admitted?_of_fault? hfault]
  | notSubscribed => rfl
  | noId => simp [Result.admitted?]
  | alreadyWaiting => rfl
  | opened _ _ accepted => cases accepted <;> rfl
  | unknown => rfl
  | answered => simp [Result.admitted?]
  | idle => rfl
  | retired _ hlapsed => simp [Result.admitted?, hlapsed.countP_isCallOf]
  | cancelled => rfl

theorem isEmpty_eq_false_of_addressee? {topic : String} {request : OpenRequest}
    (h : addressee? requests topic = some request) : requests.isEmpty = false := by
  obtain ⟨id, -, hfind⟩ := Option.bind_eq_some_iff.mp h
  exact List.isEmpty_eq_false_iff.mpr (List.ne_nil_of_mem (List.mem_of_find?_eq_some hfind))

theorem isEmpty_eq_false_of_filter {p : OpenRequest → Bool} (h : requests.filter p ≠ []) :
    requests.isEmpty = false := by
  refine List.isEmpty_eq_false_iff.mpr ?_
  rintro rfl
  exact h rfl

/-- The filter is given up once in a move that has an occasion for it, and in no other. -/
theorem Move.countP_unsubscribe (hmove : Move settings requests now operation result deeds after) :
    deeds.countP (Event.isCallOf .unsubscribe) =
      (operation.releases requests after result deeds).toNat := by
  cases hmove with
  | refused => rfl
  | notSubscribed => rfl
  | noId =>
      -- The filter goes again only if it was subscribed for this submission alone.
      by_cases hrequests : requests = []
      · simp [hrequests, Event.subscribed, Result.admitted?]
      · have hempty : requests.isEmpty = false := List.isEmpty_eq_false_iff.mpr hrequests
        simp [hrequests, hempty]
  | alreadyWaiting _ hid =>
      have hempty : requests.isEmpty = false := by
        refine List.isEmpty_eq_false_iff.mpr ?_
        rintro rfl
        cases hid
      simp [hempty]
  | opened _ _ accepted => cases accepted <;> rfl
  | unknown => simp
  | @answered _ _ request haddressee =>
      have hempty : requests.isEmpty = false := isEmpty_eq_false_of_addressee? haddressee
      cases hafter : requests.eraseP (·.id = request.id) <;> simp [hempty]
  | idle => simp
  | retired hdue hlapsed =>
      have hempty : requests.isEmpty = false := isEmpty_eq_false_of_filter hdue
      cases hafter : requests.filter (!·.isDue now) <;> simp [hempty, hlapsed.countP_isCallOf]
  | cancelled hall => rcases hall with rfl | rfl <;> rfl

theorem Move.countP_unsubscribe_of_waiting
    (hmove : Move settings requests now operation result deeds after) (hafter : after ≠ []) :
    deeds.countP (Event.isCallOf .unsubscribe) = 0 := by
  cases hmove with
  | refused => rfl
  | notSubscribed => rfl
  | noId => simp [hafter]
  | alreadyWaiting => rfl
  | opened => rfl
  | unknown => rfl
  | answered => simp [hafter]
  | idle => rfl
  | retired _ hlapsed => simp [hafter, hlapsed.countP_isCallOf]
  | cancelled => exact absurd rfl hafter

theorem Move.eq_nil_of_releases (hmove : Move settings requests now operation result deeds after)
    (hreleases : operation.releases requests after result deeds = true) : after = [] := by
  by_contra hafter
  have hnone := hmove.countP_unsubscribe_of_waiting hafter
  rw [hmove.countP_unsubscribe, hreleases] at hnone
  cases hnone

/-- A move that closes no request, though it could have, makes no call. -/
theorem Move.calls_eq_nil (hmove : Move settings requests now operation result deeds after)
    (hresult : result = .received .unknown ∨ result = .retired []) : Event.calls deeds = [] := by
  cases hmove with
  | refused => rfl
  | notSubscribed => rcases hresult with hresult | hresult <;> cases hresult
  | noId => rcases hresult with hresult | hresult <;> cases hresult
  | alreadyWaiting => rcases hresult with hresult | hresult <;> cases hresult
  | opened => rcases hresult with hresult | hresult <;> cases hresult
  | unknown => rfl
  | answered => rcases hresult with hresult | hresult <;> cases hresult
  | idle => rfl
  | retired hdue =>
      rcases hresult with hresult | hresult
      · cases hresult
      · exact absurd (List.map_eq_nil_iff.mp (Result.retired.inj hresult)) hdue
  | cancelled => rcases hresult with hresult | hresult <;> cases hresult

end Move

/-! ## Steps -/

structure Step where
  before : Inquirer
  operation : Operation
  result : Result
  events : List Event
  after : Inquirer

namespace Step

def passes (step : Step) : Bool :=
  step.operation.passes step.before.settings step.before.waitingCount

def admits (step : Step) : Bool :=
  step.result.admitted?.isSome

def drains (step : Step) : Bool :=
  step.operation.drains step.before.outstanding.requests step.after.outstanding.requests

def dropsAll (step : Step) : Bool :=
  step.operation.dropsAll

def subscribesInVain (step : Step) : Bool :=
  step.operation.subscribesInVain step.before.outstanding.requests step.result step.events

def releases (step : Step) : Bool :=
  step.operation.releases step.before.outstanding.requests step.after.outstanding.requests
    step.result step.events

theorem toNat_releases (step : Step) :
    step.releases.toNat =
      step.drains.toNat + step.dropsAll.toNat + step.subscribesInVain.toNat := by
  unfold releases drains dropsAll subscribesInVain
  -- No operation has two of the occasions.
  cases step.operation <;> simp

end Step

variable {σ : Type} [Channel σ] [IdSource σ]

def step (q : Inquirer) (now : Instant) (operation : Operation) : Exchange σ Step := fun peers =>
  let outcome := (q.perform now operation).run peers
  ⟨⟨q, operation, outcome.value.1, outcome.events, outcome.value.2⟩, outcome.peers,
    outcome.events⟩

def steps (q : Inquirer) : List (Instant × Operation) → Exchange σ (List Step)
  | [] => return []
  | (now, operation) :: history => do
    let step ← q.step now operation
    let steps ← step.after.steps history
    return step :: steps

theorem run_step (q : Inquirer) (now : Instant) (operation : Operation) (peers : σ) :
    (q.step now operation).run peers =
      let outcome := (q.perform now operation).run peers
      ⟨⟨q, operation, outcome.value.1, outcome.events, outcome.value.2⟩, outcome.peers,
        outcome.events⟩ := rfl

theorem run_steps_cons (q : Inquirer) (now : Instant) (operation : Operation)
    (history : List (Instant × Operation)) (peers : σ) :
    let first := (q.perform now operation).run peers
    let rest := (first.value.2.steps history).run first.peers
    (q.steps ((now, operation) :: history)).run peers =
      ⟨⟨q, operation, first.value.1, first.events, first.value.2⟩ :: rest.value, rest.peers,
        first.events ++ rest.events⟩ := by
  simp [steps, run_step]

/-- The steps of a run are what the run does. -/
theorem performAll_of_steps (q : Inquirer) (history : List (Instant × Operation)) (peers : σ) :
    let outcome := (q.performAll history).run peers
    let steps := ((q.steps history).run peers).value
    steps.map (·.operation) = history.map Prod.snd ∧ steps.map (·.result) = outcome.value.1 ∧
      steps.flatMap (·.events) = outcome.events := by
  induction history generalizing q peers with
  | nil => exact ⟨rfl, rfl, rfl⟩
  | cons entry history ih =>
      obtain ⟨now, operation⟩ := entry
      obtain ⟨hoperations, hresults, hevents⟩ :=
        ih ((q.perform now operation).run peers).value.2 ((q.perform now operation).run peers).peers
      intro outcome steps
      simp [outcome, steps, performAll, run_steps_cons, hoperations, hresults, hevents]

end Inquirer

end AttributeExchange
