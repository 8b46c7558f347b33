import AttributeExchange.Exchange.Basic
import AttributeExchange.Exchange.Peers

/-!
# Composed steps

Steps that deal with their collaborators by calling the channel and drawing ids, and in no other
way. What holds of the primitives and is kept when two steps are taken one after the other holds of
every such step. The same goes for two steps that are put together alike, each with collaborators of
its own.
-/

namespace AttributeExchange

/-- Whether an event is recorded without dealing with a collaborator. -/
def Event.isRecord : Event → Bool
  | .answered _ _ | .lapsed _ | .asked _ _ | .noted _ => true
  | .called _ _ | .forwarded _ _ | .drew _ => false

namespace Exchange

variable {σ τ : Type} [Channel σ] [IdSource σ] [Channel τ] [IdSource τ]

/-- A step that is put together from calls, draws and records. -/
inductive Composed : {α : Type} → Exchange σ α → Prop where
  | pure {α : Type} (a : α) : Composed (Pure.pure a)
  | bind {α β : Type} {step : Exchange σ α} {next : α → Exchange σ β} (hstep : Composed step)
      (hnext : ∀ a, Composed (next a)) : Composed (step >>= next)
  | call (c : Call) : Composed (Exchange.call c)
  | forward (c : Call) : Composed (Exchange.forward c)
  | draw : Composed Exchange.draw
  | emit (event : Event) (h : event.isRecord = true) : Composed (Exchange.emit event)
  | noteTimes (count : Nat) (notice : Notice) : Composed (Exchange.noteTimes count notice)

/-- Two steps that are put together alike, so that they part only where they are answered
differently. -/
inductive Matched : {α : Type} → Exchange σ α → Exchange τ α → Prop where
  | pure {α : Type} (a : α) : Matched (Pure.pure a) (Pure.pure a)
  | bind {α β : Type} {step : Exchange σ α} {other : Exchange τ α} {next : α → Exchange σ β}
      {later : α → Exchange τ β} (hstep : Matched step other)
      (hnext : ∀ a, Matched (next a) (later a)) : Matched (step >>= next) (other >>= later)
  | call (c : Call) : Matched (Exchange.call c) (Exchange.call c)
  | forward (c : Call) : Matched (Exchange.forward c) (Exchange.forward c)
  | draw : Matched Exchange.draw Exchange.draw
  | emit (event : Event) (h : event.isRecord = true) :
      Matched (Exchange.emit event) (Exchange.emit event)
  | noteTimes (count : Nat) (notice : Notice) :
      Matched (Exchange.noteTimes count notice) (Exchange.noteTimes count notice)

theorem Matched.composed {α : Type} {step : Exchange σ α} {other : Exchange τ α}
    (h : Matched step other) : Composed step := by
  induction h with
  | pure a => exact .pure a
  | bind _ _ hstep hnext => exact hstep.bind hnext
  | call c => exact .call c
  | forward c => exact .forward c
  | draw => exact .draw
  | emit event hrecord => exact .emit event hrecord
  | noteTimes count notice => exact .noteTimes count notice

theorem Matched.note (notice : Notice) :
    Matched (Exchange.note notice : Exchange σ Unit) (Exchange.note notice : Exchange τ Unit) :=
  .emit _ rfl

theorem Matched.ite {α : Type} {c : Prop} [Decidable c] {step step' : Exchange σ α}
    {other other' : Exchange τ α} (hthen : c → Matched step other)
    (helse : ¬ c → Matched step' other') :
    Matched (if c then step else step') (if c then other else other') := by
  split
  · exact hthen ‹c›
  · exact helse ‹¬ c›

theorem Matched.map {α β : Type} {step : Exchange σ α} {other : Exchange τ α}
    (h : Matched step other) (f : α → β) : Matched (f <$> step) (f <$> other) := by
  rw [← bind_pure_comp, ← bind_pure_comp]
  exact h.bind fun a => .pure (f a)

theorem Matched.atIndex {α β : Type} {step : β → Exchange σ (α × β)}
    {other : β → Exchange τ (α × β)} (h : ∀ b, Matched (step b) (other b)) (index : Nat)
    (values : List β) :
    Matched (Exchange.atIndex index step values) (Exchange.atIndex index other values) := by
  unfold Exchange.atIndex
  cases values[index]? with
  | none => exact .pure _
  | some value => exact (h value).bind fun _ => .pure _

/-! ## Collaborators that answer alike -/

/-- That related collaborators give the same answers and are related after them. -/
structure AnswersAlike (R : σ → τ → Prop) : Prop where
  perform : ∀ (c : Call) (peers : σ) (others : τ), R peers others →
    (Channel.perform c peers).1 = (Channel.perform c others).1 ∧
      R (Channel.perform c peers).2 (Channel.perform c others).2
  next : ∀ (peers : σ) (others : τ), R peers others →
    (IdSource.next peers).1 = (IdSource.next others).1 ∧
      R (IdSource.next peers).2 (IdSource.next others).2

/-- That two outcomes differ in the collaborators only, which stay related. -/
structure SameUpTo {α : Type} (R : σ → τ → Prop) (outcome : Outcome σ α) (other : Outcome τ α) :
    Prop where
  value : outcome.value = other.value
  peers : R outcome.peers other.peers
  events : outcome.events = other.events

theorem Matched.sameUpTo {R : σ → τ → Prop} (hR : AnswersAlike R) {α : Type}
    {step : Exchange σ α} {other : Exchange τ α} (h : Matched step other) {peers : σ} {others : τ}
    (hpeers : R peers others) : SameUpTo R (step.run peers) (other.run others) := by
  induction h generalizing peers others with
  | pure a => exact ⟨rfl, hpeers, rfl⟩
  | @bind _ _ step _ _ _ _ _ hstep hnext =>
      have hfirst := hstep hpeers
      have hsecond := hnext (step.run peers).value hfirst.peers
      rw [run_bind, run_bind, ← hfirst.value, ← hfirst.events]
      exact ⟨hsecond.value, hsecond.peers, congrArg (_ ++ ·) hsecond.events⟩
  | call c =>
      obtain ⟨haccepted, hafter⟩ := hR.perform c peers others hpeers
      exact ⟨haccepted, hafter, congrArg (fun accepted => [Event.called c accepted]) haccepted⟩
  | forward c =>
      obtain ⟨haccepted, hafter⟩ := hR.perform c peers others hpeers
      exact ⟨haccepted, hafter, congrArg (fun accepted => [Event.forwarded c accepted]) haccepted⟩
  | draw =>
      obtain ⟨hid, hafter⟩ := hR.next peers others hpeers
      exact ⟨hid, hafter, congrArg (fun id => [Event.drew id]) hid⟩
  | emit event _ => exact ⟨rfl, hpeers, rfl⟩
  | noteTimes count notice => exact ⟨rfl, hpeers, rfl⟩

end Exchange

/-!
## Replayed steps

A recording channel answers by its switches and nothing else. So a step on a channel and a source of
ids that others use as well is repeated by the same step on a channel of its own, if that has the
same switches and its ids come from a script of those that were drawn.
-/

namespace Event

def drawn (events : List Event) : List (Option RequestId) :=
  events.filterMap fun
    | .drew id => some id
    | .called _ _ | .forwarded _ _ | .answered _ _ | .lapsed _ | .asked _ _ | .noted _ => none

theorem drawn_append (events later : List Event) :
    drawn (events ++ later) = drawn events ++ drawn later :=
  List.filterMap_append

theorem drawn_of_isRecord {event : Event} (h : event.isRecord = true) : drawn [event] = [] := by
  cases event <;> simp_all [isRecord, drawn]

theorem calls_of_isRecord {event : Event} (h : event.isRecord = true) : calls [event] = [] := by
  cases event <;> simp_all [isRecord, calls, call?]

end Event

theorem Recorder.accepts_of_failing_eq {channel other : Recorder}
    (h : channel.failing = other.failing) (call : Call) :
    channel.accepts call = other.accepts call := by
  cases call <;> simp [accepts, h]

namespace Exchange

variable {ι α β : Type}

/-- That one outcome repeats another, on a channel and a script that nobody else uses: the same
result and the same events, every call recorded after the earlier ones, the switches as they are on
the other channel, and the rest of the script left over. -/
structure Repeats (outcome : Outcome (Peers Recorder ι) α) (earlier : List Call)
    (rest : List (Option RequestId)) (replay : Outcome (Peers Recorder Script) α) : Prop where
  value : replay.value = outcome.value
  events : replay.events = outcome.events
  calls : replay.peers.channel.calls = earlier ++ Event.calls outcome.events
  failing : replay.peers.channel.failing = outcome.peers.channel.failing
  ids : replay.peers.ids = ⟨rest⟩

/-- That a step is repeated by another one from every channel with the same switches. -/
def Replays (step : Exchange (Peers Recorder ι) α) (other : Exchange (Peers Recorder Script) α) :
    Prop :=
  ∀ (peers : Peers Recorder ι) (channel : Recorder) (rest : List (Option RequestId)),
    channel.failing = peers.channel.failing →
    Repeats (step.run peers) channel.calls rest
      (other.run ⟨channel, ⟨Event.drawn (step.run peers).events ++ rest⟩⟩)

theorem replays_pure (a : α) :
    Replays (pure a : Exchange (Peers Recorder ι) α) (pure a) :=
  fun _ _ _ hfailing => ⟨rfl, rfl, (List.append_nil _).symm, hfailing, rfl⟩

theorem Replays.bind {step : Exchange (Peers Recorder ι) α}
    {other : Exchange (Peers Recorder Script) α} {next : α → Exchange (Peers Recorder ι) β}
    {later : α → Exchange (Peers Recorder Script) β} (hstep : Replays step other)
    (hnext : ∀ a, Replays (next a) (later a)) : Replays (step >>= next) (other >>= later) := by
  intro peers channel rest hfailing
  -- The first step leaves the ids of the second one in the script.
  have hfirst := hstep peers channel
    (Event.drawn ((next (step.run peers).value).run (step.run peers).peers).events ++ rest)
    hfailing
  rw [run_bind, run_bind, Event.drawn_append, List.append_assoc]
  generalize other.run _ = replay at hfirst
  generalize step.run peers = outcome at hfirst
  obtain ⟨value, ⟨after, script⟩, events⟩ := replay
  obtain ⟨rfl, rfl, hcalls, hsame, rfl⟩ := hfirst
  have hsecond := hnext outcome.value outcome.peers after rest hsame
  constructor
  · exact hsecond.value
  · exact congrArg (outcome.events ++ ·) hsecond.events
  · rw [hsecond.calls, Event.calls_append, ← List.append_assoc]
    exact congrArg (· ++ _) hcalls
  · exact hsecond.failing
  · exact hsecond.ids

theorem replays_call (c : Call) :
    Replays (call c : Exchange (Peers Recorder ι) Bool) (call c) := by
  intro peers channel rest hfailing
  have haccepts := Recorder.accepts_of_failing_eq hfailing c
  exact ⟨haccepts, congrArg (fun accepted => [Event.called c accepted]) haccepts, rfl, hfailing,
    rfl⟩

theorem replays_forward (c : Call) :
    Replays (forward c : Exchange (Peers Recorder ι) Bool) (forward c) := by
  intro peers channel rest hfailing
  have haccepts := Recorder.accepts_of_failing_eq hfailing c
  exact ⟨haccepts, congrArg (fun accepted => [Event.forwarded c accepted]) haccepts, rfl, hfailing,
    rfl⟩

theorem replays_draw [IdSource ι] :
    Replays (draw : Exchange (Peers Recorder ι) _) draw :=
  fun _ _ _ hfailing => ⟨rfl, rfl, (List.append_nil _).symm, hfailing, rfl⟩

theorem replays_emit {event : Event} (h : event.isRecord = true) :
    Replays (emit event : Exchange (Peers Recorder ι) Unit) (emit event) := by
  intro peers channel rest hfailing
  rw [run_emit, run_emit, Event.drawn_of_isRecord h]
  refine ⟨rfl, rfl, ?_, hfailing, rfl⟩
  rw [Event.calls_of_isRecord h, List.append_nil]

theorem replays_noteTimes (count : Nat) (notice : Notice) :
    Replays (noteTimes count notice : Exchange (Peers Recorder ι) Unit)
      (noteTimes count notice) := by
  intro peers channel rest hfailing
  have hdrawn : Event.drawn (List.replicate count (.noted notice)) = [] := by
    simp [Event.drawn]
  have hcalls : Event.calls (List.replicate count (.noted notice)) = [] := by
    simp [Event.calls, Event.call?]
  rw [run_noteTimes, run_noteTimes, hdrawn]
  refine ⟨rfl, rfl, ?_, hfailing, rfl⟩
  rw [hcalls, List.append_nil]

theorem Matched.replays [IdSource ι] {step : Exchange (Peers Recorder ι) α}
    {other : Exchange (Peers Recorder Script) α} (h : Matched step other) :
    Replays step other := by
  induction h with
  | pure a => exact replays_pure a
  | bind _ _ hstep hnext => exact hstep.bind hnext
  | call c => exact replays_call c
  | forward c => exact replays_forward c
  | draw => exact replays_draw
  | emit event hrecord => exact replays_emit hrecord
  | noteTimes count notice => exact replays_noteTimes count notice

end Exchange

end AttributeExchange
