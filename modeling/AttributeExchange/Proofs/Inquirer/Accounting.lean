import AttributeExchange.Proofs.Inquirer.Move
import AttributeExchange.Proofs.Inquirer.Step

/-!
# Accounting for the calls of a run

Over a whole run the calls of each kind are as many as the operations that have an occasion for
them, whatever the channel and the source of ids answer. In particular the filter is given up once
for every time that the last request goes, and never twice.
-/

namespace AttributeExchange.Inquirer

/-- That the calls of a step are those that it has an occasion for. -/
structure Step.Tallied (step : Step) : Prop where
  subscribes : step.events.countP (Event.isCallOf .subscribe) = step.passes.toNat
  sends : step.events.countP (Event.isCallOf .send) = step.admits.toNat
  unsubscribes : step.events.countP (Event.isCallOf .unsubscribe) = step.releases.toNat
  keeps : step.after.outstanding.requests ≠ [] →
    step.events.countP (Event.isCallOf .unsubscribe) = 0
  silent : step.result = .received .unknown ∨ step.result = .retired [] →
    Event.calls step.events = []

variable {σ : Type} [Channel σ] [IdSource σ]

theorem tallied_step (settings : Settings) {requests : List OpenRequest} (h : Orderly requests)
    (now : Instant) (operation : Operation) (peers : σ) :
    (((waitingFor settings requests).step now operation).run peers).value.Tallied := by
  obtain ⟨after, -, hafter, hmove⟩ := exists_move_perform settings h now operation peers
  have hwaiting := congrArg (·.outstanding.requests) hafter
  have hcount (kind : Call.Kind) := Event.countP_isCallOf_deeds kind
    (((waitingFor settings requests).perform now operation).run peers).events
  rw [run_step]
  constructor
  · rw [← hcount, hmove.countP_subscribe]
    rfl
  · rw [← hcount, hmove.countP_send]
    rfl
  · rw [← hcount, hmove.countP_unsubscribe, Operation.releases_deeds, Step.releases, hwaiting]
    rfl
  · intro hkept
    rw [hwaiting] at hkept
    rw [← hcount]
    exact hmove.countP_unsubscribe_of_waiting hkept
  · intro hresult
    rw [← Event.calls_deeds]
    exact hmove.calls_eq_nil hresult

theorem tallied_steps (settings : Settings) {requests : List OpenRequest} (h : Orderly requests)
    (history : List (Instant × Operation)) (peers : σ) :
    ∀ step ∈ (((waitingFor settings requests).steps history).run peers).value, step.Tallied := by
  induction history generalizing requests peers with
  | nil =>
      intro step hstep
      cases hstep
  | cons entry history ih =>
      obtain ⟨now, operation⟩ := entry
      have hfirst := tallied_step settings h now operation peers
      obtain ⟨after, horderly, hafter⟩ := exists_orderly_perform settings h now operation peers
      intro step hstep
      rw [run_steps_cons, hafter] at hstep
      rcases List.mem_cons.mp hstep with rfl | hstep
      · rw [← hafter]
        exact hfirst
      · exact ih horderly _ step hstep

/-! ## Totals -/

theorem countP_cons_eq_add_toNat (occasion : Step → Bool) (step : Step) (steps : List Step) :
    (step :: steps).countP occasion = steps.countP occasion + (occasion step).toNat := by
  rw [List.countP_cons]
  cases occasion step <;> rfl

theorem countP_flatMap_events (p : Event → Bool) (occasion : Step → Bool) {steps : List Step}
    (h : ∀ step ∈ steps, step.events.countP p = (occasion step).toNat) :
    (steps.flatMap (·.events)).countP p = steps.countP occasion := by
  induction steps with
  | nil => rfl
  | cons step steps ih =>
      have hfirst := h step List.mem_cons_self
      have hrest := ih fun other hother => h other (List.mem_cons_of_mem _ hother)
      rw [List.flatMap_cons, List.countP_append, hfirst, hrest, countP_cons_eq_add_toNat]
      omega

theorem countP_releases (steps : List Step) :
    steps.countP Step.releases =
      steps.countP Step.drains + steps.countP Step.dropsAll +
        steps.countP Step.subscribesInVain := by
  induction steps with
  | nil => rfl
  | cons step steps ih =>
      simp only [countP_cons_eq_add_toNat, step.toNat_releases]
      omega

/-- The calls of a run, told by its steps. The filter is given up as often as an answer or a
retirement closes the last request, all requests are dropped, or a submission subscribes it in vain
while nothing is waited for. It is subscribed as often as a submission passes its checks and finds
room, and there are as many publications as admitted submissions. No operation gives the filter up
twice, none does that leaves something to wait for, and an answer to nobody and a retirement of
nothing make no call at all. -/
theorem calls_of_run (settings : Settings) (history : List (Instant × Operation)) (peers : σ) :
    let outcome := ((new settings).performAll history).run peers
    let steps := (((new settings).steps history).run peers).value
    (steps.map (·.operation) = history.map Prod.snd ∧
      steps.map (·.result) = outcome.value.1 ∧ steps.flatMap (·.events) = outcome.events) ∧
    outcome.events.countP (Event.isCallOf .unsubscribe) =
      steps.countP Step.drains + steps.countP Step.dropsAll +
        steps.countP Step.subscribesInVain ∧
    outcome.events.countP (Event.isCallOf .subscribe) = steps.countP Step.passes ∧
    outcome.events.countP (Event.isCallOf .send) = steps.countP Step.admits ∧
    ∀ step ∈ steps,
      step.events.countP (Event.isCallOf .unsubscribe) ≤ 1 ∧
      (step.after.outstanding.requests ≠ [] →
        step.events.countP (Event.isCallOf .unsubscribe) = 0) ∧
      (step.result = .received .unknown ∨ step.result = .retired [] →
        Event.calls step.events = []) := by
  intro outcome steps
  have hsame := performAll_of_steps (new settings) history peers
  have hevents : steps.flatMap (·.events) = outcome.events := hsame.2.2
  have htallied : ∀ step ∈ steps, step.Tallied := tallied_steps settings .nil history peers
  refine ⟨hsame, ?_, ?_, ?_, fun step hstep => ?_⟩
  · calc
      outcome.events.countP (Event.isCallOf .unsubscribe)
        = steps.countP Step.releases := by
          rw [← hevents]
          exact countP_flatMap_events _ _ fun step hstep => (htallied step hstep).unsubscribes
      _ = steps.countP Step.drains + steps.countP Step.dropsAll +
            steps.countP Step.subscribesInVain := countP_releases steps
  · rw [← hevents]
    exact countP_flatMap_events _ _ fun step hstep => (htallied step hstep).subscribes
  · rw [← hevents]
    exact countP_flatMap_events _ _ fun step hstep => (htallied step hstep).sends
  · have hstep := htallied step hstep
    refine ⟨?_, hstep.keeps, hstep.silent⟩
    rw [hstep.unsubscribes]
    exact Bool.toNat_le _

def threeReleases : List (Instant × Operation) :=
  [(.start, .submit (oneKey 0)), (.start, .submit (oneKey 1)), (⟨.ofSeconds 1⟩, .retire),
    (⟨.ofSeconds 1⟩, .cancelAll)]

theorem calls_of_run_threeReleases :
    let peers : Peers Recorder Script := ⟨.new, ⟨[none, some 7]⟩⟩
    let outcome := ((new (.atMost 1)).performAll threeReleases).run peers
    let steps := (((new (.atMost 1)).steps threeReleases).run peers).value
    outcome.events.countP (Event.isCallOf .unsubscribe) = 3 ∧
      outcome.events.countP (Event.isCallOf .subscribe) = 2 ∧
      outcome.events.countP (Event.isCallOf .send) = 1 ∧
      ∀ step ∈ steps, step.events.countP (Event.isCallOf .unsubscribe) ≤ 1 := by
  -- Evaluated before the run has a name, which evaluation would not look behind.
  have hcounts :
      let steps := (((new (.atMost 1)).steps threeReleases).run
        (⟨.new, ⟨[none, some 7]⟩⟩ : Peers Recorder Script)).value
      steps.countP Step.drains = 1 ∧ steps.countP Step.dropsAll = 1 ∧
        steps.countP Step.subscribesInVain = 1 ∧ steps.countP Step.passes = 2 ∧
        steps.countP Step.admits = 1 :=
    ⟨rfl, rfl, rfl, rfl, rfl⟩
  obtain ⟨hdrains, hdropsAll, hvain, hpasses, hadmits⟩ := hcounts
  obtain ⟨-, hunsubscribes, hsubscribes, hsends, hsteps⟩ :=
    calls_of_run (.atMost 1) threeReleases (⟨.new, ⟨[none, some 7]⟩⟩ : Peers Recorder Script)
  rw [hdrains, hdropsAll, hvain] at hunsubscribes
  rw [hpasses] at hsubscribes
  rw [hadmits] at hsends
  exact ⟨hunsubscribes, hsubscribes, hsends, fun step hstep => (hsteps step hstep).1⟩

end AttributeExchange.Inquirer
