import AttributeExchange.Proofs.Inquirer.Step
import AttributeExchange.Proofs.Inquirer.Subscribed

/-!
# Inquirers beside each other

Several inquirers over one recording channel share the one response filter, but each counts it as
subscribed for itself. An inquirer whose last request goes gives the filter up for all of them, and
the next submission of any of them gets it back. So what an inquirer waits for can be lost between
a release of another and the next submission that passes its checks, and at no other time.
-/

namespace AttributeExchange

namespace Inquirer

/-! ## What one step does to the filter -/

section Move

variable {settings : Settings} {requests after : List OpenRequest} {now : Instant}
  {operation : Operation} {result : Result} {deeds : List Event} {held : Bool}

theorem Move.waiting_of_not_passes (hmove : Move settings requests now operation result deeds after)
    (hpasses : operation.passes settings requests.length = false) (hafter : after ≠ []) :
    requests ≠ [] := by
  rintro rfl
  cases hmove with
  | refused => exact hafter rfl
  | notSubscribed => exact hafter rfl
  | noId => exact hafter rfl
  | alreadyWaiting => exact hafter rfl
  | opened hfault =>
      rw [Operation.passes, show _ = none from hfault] at hpasses
      cases hpasses
  | unknown => exact hafter rfl
  | answered => exact hafter rfl
  | idle => exact hafter rfl
  | retired => exact hafter rfl
  | cancelled => exact hafter rfl

theorem heldAfterAll_release_of_accepted {accepted : Bool}
    (haccepted : ∀ call, .called call false ∉ releaseDeeds after accepted) :
    Event.heldAfterAll Topic.responseFilter held (releaseDeeds after accepted) =
      (held && !after.isEmpty) := by
  rw [heldAfterAll_releaseDeeds]
  by_cases hafter : after = []
  · cases accepted with
    | false =>
        refine absurd ?_ (haccepted (.unsubscribe Topic.responseFilter))
        simp [releaseDeeds, hafter]
    | true => simp [hafter]
  · simp [hafter]

/-- After a release the filter is not held, and after any other submission that passed its checks it
is, if the channel refused nothing. -/
theorem Move.heldAfterAll_eq (hmove : Move settings requests now operation result deeds after)
    (haccepted : ∀ call, .called call false ∉ deeds) :
    Event.heldAfterAll Topic.responseFilter held deeds =
      if operation.releases requests after result deeds then false
      else if operation.passes settings requests.length then true else held := by
  cases hmove with
  | refused hfault => simp [Operation.releases, Operation.passes, hfault, Event.subscribed]
  | notSubscribed => exact absurd (List.mem_singleton_self _) (haccepted _)
  | noId hfault accepted =>
      have hrelease (call : Call) (hmem : .called call false ∈ releaseDeeds requests accepted) :=
        haccepted call (List.mem_cons_of_mem _ (List.mem_cons_of_mem _ hmem))
      cases hrequests : requests.isEmpty <;>
        simp [Operation.releases, Operation.passes, hfault, hrequests, Result.admitted?,
          Event.subscribed, Event.heldAfter, Call.heldAfter,
          heldAfterAll_release_of_accepted hrelease]
  | alreadyWaiting hfault hid =>
      have hrequests : requests ≠ [] := List.ne_nil_of_mem (List.mem_map.mp hid).choose_spec.1
      simp [Operation.releases, Operation.passes, hfault, hrequests, Event.heldAfter,
        Call.heldAfter]
  | @opened s id hfault hid accepted =>
      cases accepted with
      | false =>
          exact absurd (by simp) (haccepted (.send (Topic.request id) (s.document settings)))
      | true =>
          simp [Operation.releases, Operation.passes, hfault, Result.admitted?, Event.heldAfter,
            Call.heldAfter]
  | unknown => simp [Operation.releases, Operation.passes]
  | @answered topic document request haddressee passed accepted =>
      have hrelease (call : Call) (hmem : .called call false ∈
          releaseDeeds (requests.eraseP (·.id = request.id)) accepted) :=
        haccepted call (List.mem_cons_of_mem _ (List.mem_append_right _ hmem))
      have hrequests := isEmpty_eq_false_of_addressee? haddressee
      cases hafter : (requests.eraseP (·.id = request.id)).isEmpty <;>
        simp [Operation.releases, Operation.passes, hrequests, hafter, Event.heldAfter,
          heldAfterAll_forwardDeeds, heldAfterAll_release_of_accepted hrelease]
  | idle => simp [Operation.releases, Operation.passes]
  | retired hdue hlapsed accepted =>
      have hrelease (call : Call) (hmem : .called call false ∈
          releaseDeeds (requests.filter (!·.isDue now)) accepted) :=
        haccepted call (List.mem_append_right _ hmem)
      have hrequests := isEmpty_eq_false_of_filter hdue
      cases hafter : (requests.filter (!·.isDue now)).isEmpty <;>
        simp [Operation.releases, Operation.passes, hrequests, hafter, hlapsed.heldAfterAll_eq,
          heldAfterAll_release_of_accepted hrelease]
  | cancelled hall accepted =>
      cases accepted with
      | false => exact absurd (List.mem_singleton_self _) (haccepted _)
      | true =>
          rcases hall with rfl | rfl <;>
            simp [Operation.releases, Event.heldAfter, Call.heldAfter]

end Move

variable {ι : Type} [IdSource ι]

/-- What a step of an inquirer in order leaves of a channel that refuses nothing, and of what the
inquirer waits for. -/
structure Step.Steers (step : Step) (before after : Recorder) : Prop where
  failing : after.failing = .none
  inOrder : ∃ settings requests, Orderly requests ∧ step.after = waitingFor settings requests
  held : after.holds Topic.responseFilter =
    if step.releases then false
    else if step.passes then true else before.holds Topic.responseFilter
  idle : step.releases = true → step.after.outstanding.requests = []
  waiting : step.passes = false → step.after.outstanding.requests ≠ [] →
    step.before.outstanding.requests ≠ []

theorem steers_step (settings : Settings) {requests : List OpenRequest} (h : Orderly requests)
    (now : Instant) (operation : Operation) (peers : Peers Recorder ι)
    (hnone : peers.channel.failing = .none) :
    let outcome := ((waitingFor settings requests).step now operation).run peers
    outcome.value.Steers peers.channel outcome.peers.channel := by
  intro outcome
  obtain ⟨after, hinorder, hafter, hmove⟩ := exists_move_perform settings h now operation peers
  have hcomposed := composed_perform (σ := Peers Recorder ι) (waitingFor settings requests) now
    operation
  obtain ⟨hfailing, hcalls⟩ := hcomposed.accepted peers hnone
  have hwaiting : outcome.value.after.outstanding.requests = after :=
    congrArg (·.outstanding.requests) hafter
  have hreleases : outcome.value.releases =
      operation.releases requests after outcome.value.result (Event.deeds outcome.events) := by
    rw [Step.releases, hwaiting, Operation.releases_deeds]
    rfl
  constructor
  · exact hfailing
  · exact ⟨settings, after, hinorder, hafter⟩
  · have hdeeds : ∀ call, .called call false ∉ Event.deeds outcome.events :=
      fun call hmem => hcalls call (List.mem_filter.mp hmem).1
    rw [hreleases]
    calc
      outcome.peers.channel.holds Topic.responseFilter
        = Event.heldAfterAll Topic.responseFilter (peers.channel.holds Topic.responseFilter)
            outcome.events := hcomposed.tracks peers
      _ = Event.heldAfterAll Topic.responseFilter (peers.channel.holds Topic.responseFilter)
            (Event.deeds outcome.events) := (Event.heldAfterAll_deeds _ _ _).symm
      _ = _ := hmove.heldAfterAll_eq hdeeds
  · intro hreleased
    rw [hreleases] at hreleased
    rw [hwaiting]
    exact hmove.eq_nil_of_releases hreleased
  · intro hpasses hkept
    rw [hwaiting] at hkept
    exact hmove.waiting_of_not_passes hpasses hkept

/-! ## Several inquirers -/

/-- Operations of several inquirers, each by the inquirer at its index, and their steps. Nothing
happens where there is no inquirer. -/
def stepAll {σ : Type} [Channel σ] [IdSource σ] (inquirers : List Inquirer) :
    List (Nat × Instant × Operation) → Exchange σ (List (Nat × Step) × List Inquirer)
  | [] => return ([], inquirers)
  | (index, now, operation) :: history => do
    let (step?, inquirers) ← Exchange.atIndex index
      (fun q => (fun step => (step, step.after)) <$> q.step now operation) inquirers
    let (steps, inquirers) ← stepAll inquirers history
    return ((step?.map (index, ·)).toList ++ steps, inquirers)

/-- That the filter was last given up by an inquirer other than the one at the index, and no
submission has passed its checks since. -/
def LostTo (index : Nat) (steps : List (Nat × Step)) : Prop :=
  ∃ earlier other step later, steps = earlier ++ (other, step) :: later ∧ other ≠ index ∧
    step.releases = true ∧ ∀ entry ∈ later, entry.2.passes = false

section LostTo

variable {index other : Nat} {steps : List (Nat × Step)} {step : Step}

theorem lostTo_concat_of_releases (hother : other ≠ index) (hreleases : step.releases = true) :
    LostTo index (steps ++ [(other, step)]) :=
  ⟨steps, other, step, [], rfl, hother, hreleases, by simp⟩

/-- The last step decides if it releases the filter or gets it back. -/
theorem lostTo_concat_iff (hreleases : step.releases = false) :
    LostTo index (steps ++ [(other, step)]) ↔ step.passes = false ∧ LostTo index steps := by
  constructor
  · rintro ⟨earlier, releaser, release, later, hsteps, hne, hreleased, hlater⟩
    -- The release is not the last step, so that one comes later.
    rcases List.eq_nil_or_concat' later with rfl | ⟨between, last, rfl⟩
    · obtain ⟨-, hlast⟩ := List.append_inj' hsteps rfl
      obtain ⟨-, rfl⟩ := Prod.mk.inj (List.singleton_inj.mp hlast)
      rw [hreleases] at hreleased
      cases hreleased
    · rw [← List.cons_append, ← List.append_assoc] at hsteps
      obtain ⟨hbefore, hlast⟩ := List.append_inj' hsteps rfl
      obtain rfl := List.singleton_inj.mp hlast
      refine ⟨hlater _ (List.mem_append_right _ (List.mem_singleton_self _)), ?_⟩
      exact ⟨earlier, releaser, release, between, hbefore, hne, hreleased,
        fun entry hentry => hlater entry (List.mem_append_left _ hentry)⟩
  · rintro ⟨hpasses, earlier, releaser, release, later, rfl, hne, hreleased, hlater⟩
    refine ⟨earlier, releaser, release, later ++ [(other, step)], by simp, hne, hreleased, ?_⟩
    intro entry hentry
    rcases List.mem_append.mp hentry with hentry | hentry
    · exact hlater entry hentry
    · rw [List.mem_singleton.mp hentry]
      exact hpasses

end LostTo

/-- That the steps so far tell what became of the filter that the inquirers share. -/
structure Shared (steps : List (Nat × Step)) (inquirers : List Inquirer)
    (peers : Peers Recorder ι) : Prop where
  failing : peers.channel.failing = .none
  inOrder : ∀ q ∈ inquirers, ∃ settings requests, Orderly requests ∧
    q = waitingFor settings requests
  lost : ∀ index q, inquirers[index]? = some q → q.outstanding.requests ≠ [] →
    (peers.channel.holds Topic.responseFilter = false ↔ LostTo index steps)

omit [IdSource ι] in
theorem shared_new (settings : List Settings) {peers : Peers Recorder ι}
    (hnone : peers.channel.failing = .none) : Shared [] (settings.map Inquirer.new) peers := by
  constructor
  · exact hnone
  · intro q hq
    obtain ⟨settings, -, rfl⟩ := List.mem_map.mp hq
    exact ⟨settings, [], .nil, new_eq_waitingFor settings⟩
  · intro index q hq hwaiting
    obtain ⟨settings, -, rfl⟩ := List.mem_map.mp (List.mem_of_getElem? hq)
    exact absurd rfl hwaiting

theorem Shared.step {steps : List (Nat × Step)} {inquirers : List Inquirer}
    {peers : Peers Recorder ι} (h : Shared steps inquirers peers) {other : Nat} {q : Inquirer}
    (hq : inquirers[other]? = some q) (now : Instant) (operation : Operation) :
    let outcome := (q.step now operation).run peers
    Shared (steps ++ [(other, outcome.value)]) (inquirers.set other outcome.value.after)
      outcome.peers := by
  intro outcome
  obtain ⟨settings, requests, horderly, rfl⟩ := h.inOrder q (List.mem_of_getElem? hq)
  have hsteers : outcome.value.Steers peers.channel outcome.peers.channel :=
    steers_step settings horderly now operation peers h.failing
  constructor
  · exact hsteers.failing
  · intro member hmem
    rcases List.mem_or_eq_of_mem_set hmem with hmem | rfl
    · exact h.inOrder member hmem
    · exact hsteers.inOrder
  · intro index member hmember hwaiting
    -- What waits at the changed place is the inquirer that took the step.
    have hself (hsame : other = index) : member = outcome.value.after := by
      subst hsame
      rw [List.getElem?_set_self (List.getElem?_eq_some_iff.mp hq).1] at hmember
      exact (Option.some.inj hmember).symm
    rw [hsteers.held]
    -- A release leaves its inquirer idle, so it is another's; otherwise the step before counts on.
    cases hreleases : outcome.value.releases with
    | true =>
        have hother : other ≠ index := by
          intro hsame
          rw [hself hsame] at hwaiting
          exact hwaiting (hsteers.idle hreleases)
        rw [if_pos rfl]
        exact iff_of_true rfl (lostTo_concat_of_releases hother hreleases)
    | false =>
        rw [if_neg Bool.false_ne_true, lostTo_concat_iff hreleases]
        cases hpasses : outcome.value.passes with
        | true => simp
        | false =>
            obtain ⟨before, hbefore, hkept⟩ : ∃ before, inquirers[index]? = some before ∧
                before.outstanding.requests ≠ [] := by
              by_cases hsame : other = index
              · rw [hself hsame] at hwaiting
                exact ⟨_, hsame ▸ hq, hsteers.waiting hpasses hwaiting⟩
              · rw [List.getElem?_set_ne hsame] at hmember
                exact ⟨member, hmember, hwaiting⟩
            simpa using h.lost index before hbefore hkept

theorem run_stepAll_cons (inquirers : List Inquirer) (index : Nat) (now : Instant)
    (operation : Operation) (history : List (Nat × Instant × Operation))
    {peers : Peers Recorder ι} {q : Inquirer} (hq : inquirers[index]? = some q) :
    let first := (q.step now operation).run peers
    let rest := (stepAll (inquirers.set index first.value.after) history).run first.peers
    (stepAll inquirers ((index, now, operation) :: history)).run peers =
      ⟨((index, first.value) :: rest.value.1, rest.value.2), rest.peers,
        first.events ++ rest.events⟩ := by
  simp [stepAll, Exchange.atIndex, hq]

theorem run_stepAll_cons_of_none (inquirers : List Inquirer) {index : Nat} (now : Instant)
    (operation : Operation) (history : List (Nat × Instant × Operation))
    {peers : Peers Recorder ι} (hq : inquirers[index]? = none) :
    (stepAll inquirers ((index, now, operation) :: history)).run peers =
      (stepAll inquirers history).run peers := by
  simp [stepAll, Exchange.atIndex, hq]

theorem Shared.stepAll {steps : List (Nat × Step)} {inquirers : List Inquirer}
    {peers : Peers Recorder ι} (h : Shared steps inquirers peers)
    (history : List (Nat × Instant × Operation)) :
    let outcome := (Inquirer.stepAll inquirers history).run peers
    Shared (steps ++ outcome.value.1) outcome.value.2 outcome.peers := by
  induction history generalizing steps inquirers peers with
  | nil => simpa [Inquirer.stepAll] using h
  | cons entry history ih =>
      obtain ⟨index, now, operation⟩ := entry
      cases hq : inquirers[index]? with
      | none =>
          rw [run_stepAll_cons_of_none inquirers now operation history hq]
          exact ih h
      | some q =>
          rw [run_stepAll_cons inquirers index now operation history hq]
          simpa using ih (h.step hq now operation)

/-- Inquirers beside each other on a channel that refuses nothing, in any interleaving of their
operations and with any source of ids. While one of them waits for something, the filter that it
counts as subscribed is missing exactly if it was last given up by another one, which had nothing
left to wait for, and no submission of any of them has passed its checks since. -/
theorem lost_iff_released_by_neighbour (settings : List Settings)
    (history : List (Nat × Instant × Operation)) (peers : Peers Recorder ι)
    (hnone : peers.channel.failing = .none) :
    let outcome := (stepAll (settings.map Inquirer.new) history).run peers
    ∀ index q, outcome.value.2[index]? = some q → q.outstanding.requests ≠ [] →
      (outcome.peers.channel.holds Topic.responseFilter = false ↔
        LostTo index outcome.value.1) := by
  intro outcome
  have hshared : Shared outcome.value.1 outcome.value.2 outcome.peers :=
    (shared_new settings hnone).stepAll history
  exact hshared.lost

def oneAnswered : List (Nat × Instant × Operation) :=
  [(0, .start, .submit (oneKey 0)), (1, .start, .submit (oneKey 1)),
    (1, .start, .receive "v1/devices/me/attributes/response/2" (.object []))]

def besideEachOther (history : List (Nat × Instant × Operation)) :
    Outcome (Peers Recorder Script) (List (Nat × Step) × List Inquirer) :=
  (stepAll ([Settings.atMost 1, Settings.atMost 1].map Inquirer.new) history).run
    ⟨.new, ⟨[some 1, some 2, some 3]⟩⟩

/-- The answer to the second inquirer loses the first one its filter, and a further submission of
the second gets it back. -/
theorem lost_iff_released_by_neighbour_first :
    let lost := besideEachOther oneAnswered
    let back := besideEachOther (oneAnswered ++ [(1, .start, .submit (oneKey 2))])
    lost.value.2.map (·.waitingIds) = [[1], []] ∧ LostTo 0 lost.value.1 ∧
      back.value.2.map (·.waitingIds) = [[1], [3]] ∧ ¬ LostTo 0 back.value.1 := by
  have hlost := (lost_iff_released_by_neighbour [.atMost 1, .atMost 1] oneAnswered
    (⟨.new, ⟨[some 1, some 2, some 3]⟩⟩ : Peers Recorder Script) rfl) 0 _ rfl
    (List.cons_ne_nil _ _)
  have hback := (lost_iff_released_by_neighbour [.atMost 1, .atMost 1]
    (oneAnswered ++ [(1, .start, .submit (oneKey 2))])
    (⟨.new, ⟨[some 1, some 2, some 3]⟩⟩ : Peers Recorder Script) rfl) 0 _ rfl
    (List.cons_ne_nil _ _)
  refine ⟨rfl, hlost.mp rfl, rfl, fun hstill => ?_⟩
  cases hback.mpr hstill

/-- That the filter is subscribed whenever some inquirer waits for something, as long as nothing is
refused and no inquirer drops all of its requests. -/
def KeepsFilter : Prop :=
  ∀ (ι : Type) [IdSource ι] (settings : List Settings) (history : List (Nat × Instant × Operation))
    (peers : Peers Recorder ι),
    peers.channel = .new → (∀ entry ∈ history, entry.2.2.dropsAll = false) →
    let outcome := (stepAll (settings.map Inquirer.new) history).run peers
    (∃ q ∈ outcome.value.2, q.outstanding.requests ≠ []) →
    outcome.peers.channel.holds Topic.responseFilter = true

theorem not_keepsFilter : ¬ KeepsFilter := by
  intro hkeeps
  have hheld := hkeeps Script [.atMost 1, .atMost 1] oneAnswered ⟨.new, ⟨[some 1, some 2]⟩⟩ rfl
    (by decide) ⟨_, List.mem_cons_self, List.cons_ne_nil _ _⟩
  exact absurd hheld (by decide)

end Inquirer

end AttributeExchange
