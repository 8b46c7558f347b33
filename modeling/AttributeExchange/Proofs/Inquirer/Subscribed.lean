import AttributeExchange.Proofs.Exchange.Traces
import AttributeExchange.Proofs.Inquirer.Composed
import AttributeExchange.Proofs.Inquirer.Move

/-!
# When the response filter is subscribed

An inquirer counts its filter as subscribed exactly while it waits for something, so one that waits
for nothing is as good as new. A recording channel whose response filter nobody else uses follows
in one direction only: it holds the filter while something is waited for, and it may go on holding
it if it refused to give it up.
-/

namespace AttributeExchange

open Inquirer

/-- What happens around an inquirer that is the only one to use the response filter: operations of
its own, and between them what others do to the channel and the ids. -/
inductive Incident where
  | operate (now : Instant) (operation : Operation)
  | fail (send subscribe unsubscribe : Option Bool)
  | call (call : Call)
    (hsubscribe : call ≠ .subscribe Topic.responseFilter)
    (hunsubscribe : call ≠ .unsubscribe Topic.responseFilter)
  | draw
  | forgetCalls

namespace Incident

variable {ι : Type} [IdSource ι]

def happen (q : Inquirer) : Incident → Exchange (Peers Recorder ι) Inquirer
  | .operate now operation => do
    let (_, q) ← q.perform now operation
    return q
  | .fail send subscribe unsubscribe => fun peers =>
    ⟨q, { peers with
      channel.failing := peers.channel.failing.change send subscribe unsubscribe }, []⟩
  | .call c _ _ => fun peers => ⟨q, { peers with channel := peers.channel.perform c }, []⟩
  | .draw => fun peers => ⟨q, { peers with ids := (IdSource.next peers.ids).2 }, []⟩
  | .forgetCalls => fun peers => ⟨q, { peers with channel := peers.channel.forgetCalls }, []⟩

def happenAll (q : Inquirer) : List Incident → Exchange (Peers Recorder ι) Inquirer
  | [] => return q
  | incident :: incidents => do
    let q ← incident.happen q
    happenAll q incidents

end Incident

namespace Inquirer

/-! ## What the deeds of a move do to a filter -/

variable {filter : String}

theorem Lapsing.heldAfterAll_eq {requests : List OpenRequest} {lapsed : List Event}
    (h : Lapsing requests lapsed) (held : Bool) :
    Event.heldAfterAll filter held lapsed = held := by
  induction h with
  | nil => rfl
  | @cons request requests deeds accepted _ ih =>
      rw [Event.heldAfterAll_append]
      cases hexpiry : request.inquiry.expiry <;> cases accepted <;>
        simpa [lapseDeeds, hexpiry, Event.heldAfter, Call.heldAfter] using ih

theorem heldAfterAll_forwardDeeds (held : Bool) (inquiry : Inquiry) (value : Json)
    (accepted : Bool) :
    Event.heldAfterAll filter held (forwardDeeds inquiry value accepted) = held := by
  cases hforward : inquiry.forwardTo <;> cases accepted <;>
    simp [forwardDeeds, hforward, Event.heldAfter, Call.heldAfter]

theorem heldAfterAll_releaseDeeds (held : Bool) (requests : List OpenRequest) (accepted : Bool) :
    Event.heldAfterAll Topic.responseFilter held (releaseDeeds requests accepted) =
      if requests = [] then held && !accepted else held := by
  by_cases hrequests : requests = [] <;> cases accepted <;>
    simp [releaseDeeds, hrequests, Event.heldAfter, Call.heldAfter]

section Move

variable {settings : Settings} {requests after : List OpenRequest} {now : Instant}
  {operation : Operation} {result : Result} {deeds : List Event} {held : Bool}

/-- While something is waited for the filter stays subscribed. -/
theorem Move.held_of_waiting (hmove : Move settings requests now operation result deeds after)
    (hheld : requests ≠ [] → held = true) (hafter : after ≠ []) :
    Event.heldAfterAll Topic.responseFilter held deeds = true := by
  cases hmove with
  | refused => exact hheld hafter
  | notSubscribed => exact hheld hafter
  | noId hfault accepted =>
      simp [Event.heldAfter, Call.heldAfter, heldAfterAll_releaseDeeds, hafter]
  | alreadyWaiting => simp [Event.heldAfter, Call.heldAfter]
  | opened hfault hid accepted =>
      cases accepted <;> simp [Event.heldAfter, Call.heldAfter]
  | unknown => exact hheld hafter
  | @answered topic document request haddressee passed accepted =>
      have hrequests : requests ≠ [] := by
        rintro rfl
        exact hafter rfl
      simp [Event.heldAfter, heldAfterAll_forwardDeeds, heldAfterAll_releaseDeeds, hafter,
        hheld hrequests]
  | idle => exact hheld hafter
  | retired hdue hlapsed accepted =>
      have hrequests : requests ≠ [] := by
        rintro rfl
        exact hafter rfl
      simp [hlapsed.heldAfterAll_eq, heldAfterAll_releaseDeeds, hafter, hheld hrequests]
  | cancelled => exact absurd rfl hafter

theorem waiting_of_held_release {accepted : Bool}
    (hgiven : ∀ filter, .called (.unsubscribe filter) false ∉ releaseDeeds after accepted)
    (hheld : Event.heldAfterAll Topic.responseFilter held (releaseDeeds after accepted) = true) :
    after ≠ [] := by
  rintro rfl
  cases accepted with
  | false => exact hgiven Topic.responseFilter (by simp [releaseDeeds])
  | true => simp [heldAfterAll_releaseDeeds] at hheld

/-- A channel that never refuses to give the filter up does not hold it for nothing. -/
theorem Move.waiting_of_held (hmove : Move settings requests now operation result deeds after)
    (hwaiting : held = true → requests ≠ [])
    (hgiven : ∀ filter, .called (.unsubscribe filter) false ∉ deeds)
    (hheld : Event.heldAfterAll Topic.responseFilter held deeds = true) : after ≠ [] := by
  cases hmove with
  | refused => exact hwaiting hheld
  | notSubscribed => exact hwaiting hheld
  | noId hfault accepted =>
      refine waiting_of_held_release (fun filter hmem => hgiven filter ?_) hheld
      exact List.mem_cons_of_mem _ (List.mem_cons_of_mem _ hmem)
  | alreadyWaiting hfault hid => exact fun hnil => by simp [hnil] at hid
  | opened => simp
  | unknown => exact hwaiting hheld
  | @answered topic document request haddressee passed accepted =>
      rw [Event.heldAfterAll_cons, Event.heldAfterAll_append] at hheld
      refine waiting_of_held_release (fun filter hmem => hgiven filter ?_) hheld
      exact List.mem_cons_of_mem _ (List.mem_append_right _ hmem)
  | idle => exact hwaiting hheld
  | retired hdue _ accepted =>
      rw [Event.heldAfterAll_append] at hheld
      refine waiting_of_held_release (fun filter hmem => hgiven filter ?_) hheld
      exact List.mem_append_right _ hmem
  | cancelled hall accepted =>
      cases accepted with
      | false => exact absurd (List.mem_singleton_self _) (hgiven Topic.responseFilter)
      | true => simp [Event.heldAfter, Call.heldAfter] at hheld

end Move

end Inquirer

namespace Incident

variable {ι : Type} [IdSource ι]

/-- That an inquirer waits for these requests, beside a channel that holds its filter at least as
long as it does. -/
structure Served (settings : Settings) (requests : List OpenRequest) (q : Inquirer)
    (peers : Peers Recorder ι) : Prop where
  orderly : Orderly requests
  waiting : q = waitingFor settings requests
  held : requests ≠ [] → peers.channel.holds Topic.responseFilter = true

/-- How a step ends that began with these requests waited for: the channel still serves the
inquirer, and it does not come to hold the filter for nothing unless it refused to give it up. -/
def KeepsServing (settings : Settings) (requests : List OpenRequest) (peers : Peers Recorder ι)
    (outcome : Outcome (Peers Recorder ι) Inquirer) : Prop :=
  ∃ after, Served settings after outcome.value outcome.peers ∧
    ((peers.channel.holds Topic.responseFilter = true → requests ≠ []) →
      (∀ filter, .called (.unsubscribe filter) false ∉ outcome.events) →
      outcome.peers.channel.holds Topic.responseFilter = true → after ≠ [])

variable {settings : Settings} {requests : List OpenRequest} {q : Inquirer}
  {peers : Peers Recorder ι}

theorem Served.operate (h : Served settings requests q peers) (now : Instant)
    (operation : Operation) :
    KeepsServing settings requests peers (((operate now operation).happen q).run peers) := by
  obtain ⟨horderly, rfl, hheld⟩ := h
  have hevents : (((operate now operation).happen (waitingFor settings requests)).run
      peers).events = (((waitingFor settings requests).perform now operation).run
        peers).events := by
    simp [happen]
  obtain ⟨after, hinorder, hvalue, hmove⟩ :=
    exists_move_perform settings horderly now operation peers
  have htracks : (((waitingFor settings requests).perform now operation).run
      peers).peers.channel.holds Topic.responseFilter = _ :=
    (composed_perform _ now operation).tracks peers
  rw [← Event.heldAfterAll_deeds] at htracks
  refine ⟨after, ⟨hinorder, hvalue, fun hafter => ?_⟩, ?_⟩
  · exact htracks.trans (hmove.held_of_waiting hheld hafter)
  · intro hwaiting hgiven hholds
    rw [hevents] at hgiven
    refine hmove.waiting_of_held hwaiting (fun filter hmem => ?_) (htracks.symm.trans hholds)
    exact hgiven filter (List.mem_of_mem_filter hmem)

theorem Served.happen (h : Served settings requests q peers) (incident : Incident) :
    KeepsServing settings requests peers ((incident.happen q).run peers) := by
  cases incident with
  | operate now operation => exact h.operate now operation
  | fail send subscribe unsubscribe =>
      exact ⟨requests, ⟨h.orderly, h.waiting, h.held⟩, fun hwaiting _ => hwaiting⟩
  | call c hsubscribe hunsubscribe =>
      have hholds : (peers.channel.perform c).holds Topic.responseFilter =
          peers.channel.holds Topic.responseFilter :=
        peers.channel.holds_perform_of_ne hsubscribe hunsubscribe
      refine ⟨requests, ⟨h.orderly, h.waiting, fun hrequests => ?_⟩, fun hwaiting _ hheld => ?_⟩
      · exact hholds.trans (h.held hrequests)
      · exact hwaiting (hholds.symm.trans hheld)
  | draw => exact ⟨requests, ⟨h.orderly, h.waiting, h.held⟩, fun hwaiting _ => hwaiting⟩
  | forgetCalls => exact ⟨requests, ⟨h.orderly, h.waiting, h.held⟩, fun hwaiting _ => hwaiting⟩

/-- The channel keeps serving the inquirer through a run of incidents. -/
theorem Served.happenAll (h : Served settings requests q peers) (incidents : List Incident) :
    KeepsServing settings requests peers ((happenAll q incidents).run peers) := by
  induction incidents generalizing requests q peers with
  | nil => exact ⟨requests, h, fun hwaiting _ => hwaiting⟩
  | cons incident incidents ih =>
      obtain ⟨between, hbetween, hfirst⟩ := h.happen incident
      obtain ⟨after, hafter, hrest⟩ := ih hbetween
      rw [Incident.happenAll, Exchange.run_bind]
      refine ⟨after, hafter, fun hwaiting hgiven => ?_⟩
      refine hrest (hfirst hwaiting fun filter hmem => ?_) fun filter hmem => ?_
      · exact hgiven filter (List.mem_append_left _ hmem)
      · exact hgiven filter (List.mem_append_right _ hmem)

end Incident

namespace Inquirer

/-- The subscription follows the requests. Whatever answers it got, an inquirer counts its filter
as subscribed exactly while it waits for something, and one that waits for nothing is as good as
new. A recording channel whose response filter is used by nobody else holds it while something is
waited for, and exactly then if it never refused to give it up. -/
theorem subscription_follows_requests (settings : Settings) :
    (∀ q, Reachable settings q →
      (q.subscription.held = true ↔ q.outstanding.requests ≠ []) ∧
      (q.outstanding.requests = [] → q = new settings)) ∧
    ∀ (ι : Type) [IdSource ι] (peers : Peers Recorder ι) (incidents : List Incident),
      peers.channel.holds Topic.responseFilter = false →
      let outcome := (Incident.happenAll (new settings) incidents).run peers
      (outcome.value.outstanding.requests ≠ [] →
        outcome.peers.channel.holds Topic.responseFilter = true) ∧
      ((∀ filter, .called (.unsubscribe filter) false ∉ outcome.events) →
        (outcome.peers.channel.holds Topic.responseFilter = true ↔
          outcome.value.outstanding.requests ≠ [])) := by
  constructor
  · intro q hreachable
    obtain ⟨requests, -, rfl⟩ := hreachable.exists_waitingFor
    refine ⟨by simp [waitingFor], fun hrequests => ?_⟩
    rw [show requests = [] from hrequests, new_eq_waitingFor]
  · intro ι _ peers incidents hfree
    have hserved : Incident.Served settings [] (new settings) peers :=
      ⟨.nil, new_eq_waitingFor settings, fun hne => absurd rfl hne⟩
    obtain ⟨after, ⟨-, hvalue, hheld⟩, hwaiting⟩ := hserved.happenAll incidents
    have hrequests : ((Incident.happenAll (new settings) incidents).run
        peers).value.outstanding.requests = after := by
      rw [hvalue, outstanding_waitingFor]
    intro outcome
    rw [show outcome.value.outstanding.requests = after from hrequests]
    refine ⟨hheld, fun hgiven => ⟨hwaiting (fun hholds => ?_) hgiven, hheld⟩⟩
    rw [hfree] at hholds
    exact absurd hholds Bool.false_ne_true

def unsent : List Incident :=
  [.fail (some true) none none, .operate .start (.submit (oneKey 0))]

theorem subscription_follows_requests_unsent :
    let peers : Peers Recorder Script := ⟨.new, ⟨[some 7]⟩⟩
    let outcome := (Incident.happenAll (new (.atMost 1)) unsent).run peers
    full.subscription.held = true ∧
      peers.channel.holds Topic.responseFilter = false ∧
      (∀ filter, .called (.unsubscribe filter) false ∉ outcome.events) ∧
      outcome.value.outstanding.requests ≠ [] ∧
      outcome.peers.channel.holds Topic.responseFilter = true := by
  have hfull : Reachable (.atMost 1) full :=
    Reachable.new.perform (⟨.new, ⟨[some 7]⟩⟩ : Peers Recorder Script) .start (.submit (oneKey 0))
  obtain ⟨hreachable, hchannel⟩ := subscription_follows_requests (.atMost 1)
  intro peers outcome
  have hgiven : ∀ filter, .called (.unsubscribe filter) false ∉ outcome.events := by
    intro filter hmem
    have hcalls : Event.calls outcome.events = [.subscribe Topic.responseFilter,
        .send (Topic.request 7) ((oneKey 0).document (.atMost 1))] := rfl
    have hcall : .unsubscribe filter ∈ Event.calls outcome.events :=
      List.mem_filterMap.mpr ⟨_, hmem, rfl⟩
    rw [hcalls] at hcall
    simp at hcall
  have hrequests : outcome.value.outstanding.requests ≠ [] := List.cons_ne_nil _ _
  refine ⟨(hreachable full hfull).1.mpr (List.cons_ne_nil _ _), rfl, hgiven, hrequests, ?_⟩
  exact ((hchannel Script peers unsent rfl).2 hgiven).mpr hrequests

/-- A channel that refuses to give the filter up goes on holding it. -/
example :
    let incidents := unsent ++ [.fail none none (some true), .operate .start .cancelAll]
    let outcome := (Incident.happenAll (new (.atMost 1)) incidents).run
      (⟨.new, ⟨[some 7]⟩⟩ : Peers Recorder Script)
    outcome.value.outstanding.requests = [] ∧
      outcome.peers.channel.holds Topic.responseFilter = true :=
  ⟨rfl, rfl⟩

end Inquirer

end AttributeExchange
