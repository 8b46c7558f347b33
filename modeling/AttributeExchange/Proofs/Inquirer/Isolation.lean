import AttributeExchange.Proofs.Exchange.Composed
import AttributeExchange.Proofs.Inquirer.Bounded
import AttributeExchange.Proofs.Inquirer.Composed
import AttributeExchange.Proofs.Inquirer.Move
import AttributeExchange.Proofs.Inquirer.Ticks

/-!
# Inquirers that share their collaborators

Inquirers on one channel and one source of ids learn of each other only what they are answered. What
one of them does among the others is what it does alone, at the same instants, on a channel of its
own with the same switches and with a script of the ids that it was given.
-/

namespace AttributeExchange.Inquirer

/-- An operation in a run of several inquirers: whose it was, how the switches of the channel were
set, the instant, and what came of it. -/
structure Part where
  index : Nat
  failing : Switches
  now : Instant
  step : Step

/-- Rounds of several inquirers that share their collaborators, each by the inquirer at its index.
Nothing comes of a round where there is no inquirer. -/
def takeTurns {ι : Type} [IdSource ι] (inquirers : List Inquirer) (peers : Peers Recorder ι) :
    List (Nat × Round (Peers Recorder ι)) → List Part × List Inquirer
  | [] => ([], inquirers)
  | (index, round) :: turns =>
    let peers := round.change peers
    match inquirers[index]? with
    | none => takeTurns inquirers peers turns
    | some q =>
      let outcome := (q.step round.now round.operation).run peers
      let (parts, inquirers) :=
        takeTurns (inquirers.set index outcome.value.after) outcome.peers turns
      (⟨index, peers.channel.failing, round.now, outcome.value⟩ :: parts, inquirers)

def partsOf (index : Nat) (parts : List Part) : List Part :=
  parts.filter (·.index = index)

def eventsOf (parts : List Part) : List Event :=
  parts.flatMap (·.step.events)

/-- The round in which an inquirer does by itself what it did in a part. -/
def Part.again (part : Part) : Round (Peers Recorder Script) :=
  ⟨fun peers => { peers with channel.failing := part.failing }, part.now, part.step.operation⟩

def stepRounds {σ : Type} [Channel σ] [IdSource σ] (q : Inquirer) :
    List (Round σ) → Exchange σ (List Step × Inquirer)
  | [] => return ([], q)
  | round :: rounds => do
    Exchange.disturb round.change
    let step ← q.step round.now round.operation
    let (steps, q) ← step.after.stepRounds rounds
    return (step :: steps, q)

/-! ## One inquirer by itself -/

section Alone

variable {ι : Type} [IdSource ι]

theorem replays_step (q : Inquirer) (now : Instant) (operation : Operation) :
    Exchange.Replays (q.step now operation : Exchange (Peers Recorder ι) Step)
      (q.step now operation) := by
  intro peers channel rest hfailing
  have hreplays : Exchange.Replays (q.perform now operation : Exchange (Peers Recorder ι) _)
      (q.perform now operation) := (matched_perform q now operation).replays
  obtain ⟨hvalue, hevents, hcalls, hsame, hids⟩ := hreplays peers channel rest hfailing
  rw [run_step, run_step]
  refine ⟨?_, hevents, hcalls, hsame, hids⟩
  simp only [hvalue, hevents]

theorem run_stepRounds_cons {σ : Type} [Channel σ] [IdSource σ] (q : Inquirer) (round : Round σ)
    (rounds : List (Round σ)) (peers : σ) :
    let first := (q.step round.now round.operation).run (round.change peers)
    let rest := (first.value.after.stepRounds rounds).run first.peers
    (q.stepRounds (round :: rounds)).run peers =
      ⟨(first.value :: rest.value.1, rest.value.2), rest.peers, first.events ++ rest.events⟩ := by
  simp [stepRounds]

end Alone

/-! ## Whose handlers run -/

theorem Move.of_mem_runs {settings : Settings} {requests after : List OpenRequest} {now : Instant}
    {operation : Operation} {result : Result} {deeds : List Event}
    (hmove : Move settings requests now operation result deeds after) {event : Event}
    (hevent : event ∈ Event.runs deeds) :
    ∃ request ∈ requests, event = .lapsed request.inquiry.tag ∨
      ∃ document, event = .answered request.inquiry.tag (request.wanted document) := by
  cases hmove with
  | noId hfault accepted =>
      have hruns : event ∈ Event.runs (releaseDeeds requests accepted) := hevent
      rw [runs_releaseDeeds] at hruns
      cases hruns
  | @answered topic document request haddressee passed accepted =>
      obtain ⟨id, -, hfind⟩ := Option.bind_eq_some_iff.mp haddressee
      rw [Event.runs_cons_answered, Event.runs_append, runs_forwardDeeds,
        runs_releaseDeeds] at hevent
      have hrequest : request ∈ requests := List.mem_of_find?_eq_some hfind
      exact ⟨request, hrequest, .inr ⟨document, List.mem_singleton.mp hevent⟩⟩
  | retired hdue hlapsed accepted =>
      rw [Event.runs_append, runs_releaseDeeds, hlapsed.runs_eq, List.append_nil] at hevent
      obtain ⟨request, hrequest, rfl⟩ := List.mem_map.mp hevent
      have hmem : request ∈ requests :=
        List.mem_of_mem_filter (List.mem_of_mem_filter hrequest)
      exact ⟨request, hmem, .inl rfl⟩
  | refused | notSubscribed | alreadyWaiting | opened | unknown | idle | cancelled =>
      cases hevent

/-- That every handler in a step is run for a request which that inquirer waited for. -/
def Step.RunsOwn (step : Step) : Prop :=
  ∀ event ∈ Event.runs step.events, ∃ request ∈ step.before.outstanding.requests,
    event = .lapsed request.inquiry.tag ∨
      ∃ document, event = .answered request.inquiry.tag (request.wanted document)

theorem Reachable.runsOwn_step {σ : Type} [Channel σ] [IdSource σ] {settings : Settings}
    {q : Inquirer} (h : Reachable settings q) (now : Instant) (operation : Operation)
    (peers : σ) : ((q.step now operation).run peers).value.RunsOwn := by
  obtain ⟨requests, horderly, rfl⟩ := h.exists_waitingFor
  obtain ⟨after, -, -, hmove⟩ := exists_move_perform settings horderly now operation peers
  intro event hevent
  rw [run_step, ← Event.runs_deeds] at hevent
  exact hmove.of_mem_runs hevent

/-! ## Turns -/

section Turns

variable {ι : Type} [IdSource ι] {inquirers : List Inquirer} {peers : Peers Recorder ι}
  {index other : Nat} {q : Inquirer} {round : Round (Peers Recorder ι)}
  {turns : List (Nat × Round (Peers Recorder ι))}

theorem takeTurns_cons (hq : inquirers[other]? = some q) :
    let outcome := (q.step round.now round.operation).run (round.change peers)
    let rest := takeTurns (inquirers.set other outcome.value.after) outcome.peers turns
    takeTurns inquirers peers ((other, round) :: turns) =
      (⟨other, (round.change peers).channel.failing, round.now, outcome.value⟩ :: rest.1,
        rest.2) := by
  simp [takeTurns, hq]

theorem takeTurns_cons_of_none (hq : inquirers[other]? = none) :
    takeTurns inquirers peers ((other, round) :: turns) =
      takeTurns inquirers (round.change peers) turns := by
  simp [takeTurns, hq]

theorem partsOf_cons (index : Nat) (part : Part) (parts : List Part) :
    partsOf index (part :: parts) =
      if part.index = index then part :: partsOf index parts else partsOf index parts := by
  simp [partsOf, List.filter_cons]

/-- That a run by itself does all that the parts tell, after earlier calls, and leaves this
inquirer. -/
structure SameAlone (parts : List Part) (after? : Option Inquirer) (earlier : List Call)
    (alone : Outcome (Peers Recorder Script) (List Step × Inquirer)) : Prop where
  steps : alone.value.1 = parts.map (·.step)
  after : after? = some alone.value.2
  calls : alone.peers.channel.calls = earlier ++ Event.calls (eventsOf parts)
  ids : alone.peers.ids = ⟨[]⟩

theorem SameAlone.cons (index : Nat) (q : Inquirer) (round : Round (Peers Recorder ι))
    (peers : Peers Recorder ι) {parts : List Part} {after? : Option Inquirer}
    (hrest : ∀ channel : Recorder, SameAlone parts after? channel.calls
      (((q.step round.now round.operation).run peers).value.after.stepRounds
        (parts.map Part.again) |>.run ⟨channel, ⟨Event.drawn (eventsOf parts)⟩⟩))
    (channel : Recorder) :
    let part : Part := ⟨index, peers.channel.failing, round.now,
      ((q.step round.now round.operation).run peers).value⟩
    SameAlone (part :: parts) after? channel.calls
      ((q.stepRounds ((part :: parts).map Part.again)).run
        ⟨channel, ⟨Event.drawn (eventsOf (part :: parts))⟩⟩) := by
  intro part
  have hevents : eventsOf (part :: parts) =
      ((q.step round.now round.operation).run peers).events ++ eventsOf parts := rfl
  have hround : part.again =
      ⟨fun peers => { peers with channel.failing := part.failing }, round.now, round.operation⟩ :=
    rfl
  -- The script holds the ids of this step and then those of the later ones.
  have hfirst := replays_step q round.now round.operation peers
    { channel with failing := peers.channel.failing } (Event.drawn (eventsOf parts)) rfl
  rw [List.map_cons, run_stepRounds_cons, hevents, hround, Event.drawn_append]
  dsimp only
  generalize (q.step round.now round.operation : Exchange (Peers Recorder Script) Step).run _ =
    first at hfirst ⊢
  obtain ⟨value, ⟨after, script⟩, events⟩ := first
  obtain ⟨rfl, rfl, hcalls, -, rfl⟩ := hfirst
  have hlater := hrest after
  constructor
  · exact congrArg (_ :: ·) hlater.steps
  · exact hlater.after
  · calc
      _ = after.calls ++ Event.calls (eventsOf parts) := hlater.calls
      _ = _ := by rw [hcalls, hevents, Event.calls_append, List.append_assoc]
  · exact hlater.ids

/-- Every operation of an inquirer is a part, in the order of the turns. -/
theorem map_takeTurns (inquirers : List Inquirer) (peers : Peers Recorder ι)
    (turns : List (Nat × Round (Peers Recorder ι))) :
    (takeTurns inquirers peers turns).1.map
        (fun part => (part.index, part.now, part.step.operation)) =
      (turns.filter (·.1 < inquirers.length)).map
        fun turn => (turn.1, turn.2.now, turn.2.operation) := by
  induction turns generalizing inquirers peers with
  | nil => rfl
  | cons turn turns ih =>
      obtain ⟨other, round⟩ := turn
      cases hother : inquirers[other]? with
      | none =>
          have habsent : ¬ other < inquirers.length := by
            simpa using List.getElem?_eq_none_iff.mp hother
          rw [takeTurns_cons_of_none hother, ih, List.filter_cons_of_neg (by simpa using habsent)]
      | some acting =>
          have hpresent : other < inquirers.length := (List.getElem?_eq_some_iff.mp hother).1
          rw [takeTurns_cons hother, List.filter_cons_of_pos (by simpa using hpresent)]
          dsimp only
          rw [List.map_cons, List.map_cons, ih, List.length_set]
          rfl

/-- What one inquirer does among the others it also does alone. -/
theorem sameAlone_takeTurns (hq : inquirers[index]? = some q) (peers : Peers Recorder ι)
    (turns : List (Nat × Round (Peers Recorder ι))) (channel : Recorder) :
    let shared := takeTurns inquirers peers turns
    let parts := partsOf index shared.1
    SameAlone parts shared.2[index]? channel.calls
      ((q.stepRounds (parts.map Part.again)).run ⟨channel, ⟨Event.drawn (eventsOf parts)⟩⟩) := by
  induction turns generalizing inquirers q peers channel with
  | nil => exact ⟨rfl, hq, (List.append_nil _).symm, rfl⟩
  | cons turn turns ih =>
      obtain ⟨other, round⟩ := turn
      cases hother : inquirers[other]? with
      | none =>
          rw [takeTurns_cons_of_none hother]
          exact ih hq (round.change peers) channel
      | some acting =>
          rw [takeTurns_cons hother]
          dsimp only
          rw [partsOf_cons]
          generalize houtcome : (acting.step round.now round.operation).run (round.change peers) =
            outcome
          generalize hparts : takeTurns (inquirers.set other outcome.value.after) outcome.peers
            turns = rest
          by_cases hsame : other = index
          · subst hsame
            obtain rfl : q = acting := Option.some.inj (hq.symm.trans hother)
            have hplace : (inquirers.set other outcome.value.after)[other]? =
                some outcome.value.after :=
              List.getElem?_set_self (List.getElem?_eq_some_iff.mp hq).1
            rw [if_pos rfl]
            subst houtcome hparts
            exact SameAlone.cons other q round (round.change peers)
              (fun channel => ih hplace _ channel) channel
          · have hplace : (inquirers.set other outcome.value.after)[index]? = some q := by
              rw [List.getElem?_set_ne hsame, hq]
            have hrest := ih hplace outcome.peers channel
            rw [hparts] at hrest
            rw [if_neg hsame]
            exact hrest

theorem runsOwn_takeTurns (h : ∀ q ∈ inquirers, ∃ settings, Reachable settings q)
    (peers : Peers Recorder ι) (turns : List (Nat × Round (Peers Recorder ι))) :
    ∀ part ∈ (takeTurns inquirers peers turns).1, part.step.RunsOwn := by
  induction turns generalizing inquirers peers with
  | nil => simp [takeTurns]
  | cons turn turns ih =>
      obtain ⟨other, round⟩ := turn
      cases hother : inquirers[other]? with
      | none =>
          rw [takeTurns_cons_of_none hother]
          exact ih h (round.change peers)
      | some acting =>
          obtain ⟨settings, hreachable⟩ := h acting (List.mem_of_getElem? hother)
          have hkept : ∀ q ∈ inquirers.set other ((acting.step round.now round.operation).run
              (round.change peers)).value.after, ∃ settings, Reachable settings q := by
            intro q hq
            rcases List.mem_or_eq_of_mem_set hq with hq | rfl
            · exact h q hq
            · exact ⟨settings, hreachable.perform (round.change peers) round.now round.operation⟩
          rw [takeTurns_cons hother]
          intro part hpart
          rcases List.mem_cons.mp hpart with rfl | hpart
          · exact hreachable.runsOwn_step round.now round.operation (round.change peers)
          · exact ih hkept _ part hpart

/-- A turn of one inquirer leaves every other one as it was. -/
theorem getElem?_takeTurns_concat (hother : other ≠ index) (inquirers : List Inquirer)
    (peers : Peers Recorder ι) (turns : List (Nat × Round (Peers Recorder ι)))
    (round : Round (Peers Recorder ι)) :
    (takeTurns inquirers peers (turns ++ [(other, round)])).2[index]? =
      (takeTurns inquirers peers turns).2[index]? := by
  induction turns generalizing inquirers peers with
  | nil =>
      cases hacting : inquirers[other]? with
      | none =>
          rw [List.nil_append, takeTurns_cons_of_none hacting]
          rfl
      | some acting =>
          rw [List.nil_append, takeTurns_cons hacting]
          exact List.getElem?_set_ne hother
  | cons turn turns ih =>
      obtain ⟨first, earlier⟩ := turn
      cases hacting : inquirers[first]? with
      | none =>
          rw [List.cons_append, takeTurns_cons_of_none hacting, takeTurns_cons_of_none hacting]
          exact ih inquirers _
      | some acting =>
          rw [List.cons_append, takeTurns_cons hacting, takeTurns_cons hacting]
          exact ih _ _

/-- Inquirers on one recording channel with one source of ids, in any interleaving of their
operations, whatever else happens to the channel and the source between them. Each does what it does
alone, on a channel of its own with the same switches and with a script of the ids it drew: the same
results and events, the same calls, and the same requests and subscription before and after every
operation. No operation runs a handler of another inquirer or changes its requests. -/
theorem turns_kept_apart (settings : List Settings) (peers : Peers Recorder ι)
    (turns : List (Nat × Round (Peers Recorder ι))) :
    let shared := takeTurns (settings.map Inquirer.new) peers turns
    shared.1.map (fun part => (part.index, part.now, part.step.operation)) =
      (turns.filter (·.1 < settings.length)).map
        (fun turn => (turn.1, turn.2.now, turn.2.operation)) ∧
    (∀ index own, settings[index]? = some own →
      let parts := partsOf index shared.1
      SameAlone parts shared.2[index]? []
        (((new own).stepRounds (parts.map Part.again)).run
          ⟨.new, ⟨Event.drawn (eventsOf parts)⟩⟩)) ∧
    (∀ part ∈ shared.1, part.step.RunsOwn) ∧
    ∀ index other round, other ≠ index →
      (takeTurns (settings.map Inquirer.new) peers (turns ++ [(other, round)])).2[index]? =
        shared.2[index]? := by
  intro shared
  refine ⟨?_, ?_, ?_, ?_⟩
  · rw [map_takeTurns, List.length_map]
  · intro index own hown
    have hq : (settings.map Inquirer.new)[index]? = some (new own) := by
      rw [List.getElem?_map, hown, Option.map_some]
    exact sameAlone_takeTurns hq peers turns .new
  · refine runsOwn_takeTurns ?_ peers turns
    intro q hq
    obtain ⟨own, -, rfl⟩ := List.mem_map.mp hq
    exact ⟨own, .new⟩
  · intro index other round hother
    exact getElem?_takeTurns_concat hother _ peers turns round

/-- Two inquirers wait under the same id, one of them for a request that could not be sent. -/
def sameIdTwice : List (Nat × Round (Peers Recorder Script)) :=
  [(0, ⟨id, .start, .submit (oneKey 0)⟩), (1, ⟨id, .start, .submit (oneKey 1)⟩),
    (1, ⟨fun peers => { peers with channel.failing.send := true }, .start, .submit (oneKey 2)⟩),
    (1, ⟨fun peers => { peers with channel.failing.send := false }, ⟨.ofSeconds 1⟩,
      .receive "v1/devices/me/attributes/response/7" (.object [])⟩)]

/-- The second inquirer is refused an id before it gets that of the first one, whose request neither
the answer nor a later retirement of the second one touches. -/
theorem turns_kept_apart_same_id :
    let peers : Peers Recorder Script := ⟨.new, ⟨[some 7, none, some 7]⟩⟩
    let inquirers := [Settings.atMost 1, .atMost 1].map Inquirer.new
    let shared := takeTurns inquirers peers sameIdTwice
    let parts := partsOf 1 shared.1
    let alone := ((new (.atMost 1)).stepRounds (parts.map Part.again)).run
      (⟨.new, ⟨[none, some 7]⟩⟩ : Peers Recorder Script)
    Event.drawn (eventsOf parts) = [none, some 7] ∧ SameAlone parts shared.2[1]? [] alone ∧
      parts.map (·.step.after.waitingIds) = [[], [7], []] ∧
      Event.runs (eventsOf shared.1) = [.answered 2 (.object [])] ∧
      shared.2[0]?.map waitingIds = some [7] ∧
      (takeTurns inquirers peers (sameIdTwice ++ [(1, ⟨id, ⟨.ofSeconds 1⟩, .retire⟩)])).2[0]? =
        shared.2[0]? := by
  obtain ⟨-, halone, -, hframe⟩ := turns_kept_apart [.atMost 1, .atMost 1]
    (⟨.new, ⟨[some 7, none, some 7]⟩⟩ : Peers Recorder Script) sameIdTwice
  exact ⟨rfl, halone 1 (.atMost 1) rfl, rfl, rfl, rfl,
    hframe 0 1 ⟨id, ⟨.ofSeconds 1⟩, .retire⟩ (by decide)⟩

end Turns

end AttributeExchange.Inquirer
