import AttributeExchange.Exchange.Peers
import AttributeExchange.Proofs.Exchange.Composed
import AttributeExchange.Proofs.Exchange.Deeds

/-!
# Traces

What the events of a step tell of its collaborators: which filters a recording channel holds, and
how far a counter has moved.
-/

namespace AttributeExchange

/-!
## Filters held by the recording channel

A recording channel changes only by the calls that are made of it, so whether it holds a filter can
be read off the calls that a step reports with their answers.
-/

/-- Whether a filter is held after an accepted call, from whether it was held before. -/
def Call.heldAfter (filter : String) (held : Bool) : Call → Bool
  | .send _ _ => held
  | .subscribe other => held || decide (other = filter)
  | .unsubscribe other => held && decide (other ≠ filter)

def Event.heldAfter (filter : String) (held : Bool) : Event → Bool
  | .called call accepted | .forwarded call accepted =>
    if accepted then call.heldAfter filter held else held
  | .drew _ | .answered _ _ | .lapsed _ | .asked _ _ | .noted _ => held

def Event.heldAfterAll (filter : String) (held : Bool) (events : List Event) : Bool :=
  events.foldl (Event.heldAfter filter) held

namespace Event

@[simp] theorem heldAfterAll_nil (filter : String) (held : Bool) :
    heldAfterAll filter held [] = held := rfl

@[simp] theorem heldAfterAll_cons (filter : String) (held : Bool) (event : Event)
    (events : List Event) :
    heldAfterAll filter held (event :: events) =
      heldAfterAll filter (event.heldAfter filter held) events := rfl

@[simp] theorem heldAfterAll_append (filter : String) (held : Bool) (events later : List Event) :
    heldAfterAll filter held (events ++ later) =
      heldAfterAll filter (heldAfterAll filter held events) later :=
  List.foldl_append

theorem heldAfter_of_isRecord {filter : String} {event : Event} (h : event.isRecord = true)
    (held : Bool) : event.heldAfter filter held = held := by
  cases event <;> simp_all [isRecord, heldAfter]

theorem heldAfterAll_deeds (filter : String) (held : Bool) (events : List Event) :
    heldAfterAll filter held (deeds events) = heldAfterAll filter held events := by
  induction events generalizing held with
  | nil => rfl
  | cons event events ih =>
      cases event with
      | noted notice => exact ih held
      | called call accepted => exact ih _
      | forwarded call accepted => exact ih _
      | drew id => exact ih held
      | answered tag value => exact ih held
      | lapsed tag => exact ih held
      | asked position task => exact ih held

end Event

namespace Recorder

theorem contains_subscriptionsAfter (channel : Recorder) (call : Call) (filter : String) :
    (channel.subscriptionsAfter call).contains filter =
      call.heldAfter filter (channel.holds filter) := by
  cases call with
  | send topic payload => rfl
  | subscribe other =>
      by_cases hsame : other = filter
      · simp [subscriptionsAfter, Call.heldAfter, hsame]
      · have hother : filter ≠ other := Ne.symm hsame
        simp [subscriptionsAfter, Call.heldAfter, holds, hsame, hother]
  | unsubscribe other =>
      by_cases hsame : other = filter
      · simp [subscriptionsAfter, Call.heldAfter, hsame]
      · have hother : filter ≠ other := Ne.symm hsame
        simp [subscriptionsAfter, Call.heldAfter, holds, hsame, hother]

/-- A call changes what the recording channel holds exactly if it is accepted. -/
theorem holds_perform (channel : Recorder) (call : Call) (filter : String) :
    (channel.perform call).holds filter =
      if channel.accepts call then call.heldAfter filter (channel.holds filter)
      else channel.holds filter := by
  cases haccepts : channel.accepts call with
  | false => simp [perform, haccepts, holds]
  | true => simpa [perform, haccepts, holds] using channel.contains_subscriptionsAfter call filter

theorem holds_perform_of_ne (channel : Recorder) {call : Call} {filter : String}
    (hsubscribe : call ≠ .subscribe filter) (hunsubscribe : call ≠ .unsubscribe filter) :
    (channel.perform call).holds filter = channel.holds filter := by
  rw [holds_perform]
  cases call with
  | send topic payload => simp [Call.heldAfter]
  | subscribe other =>
      have hother : other ≠ filter := fun heq => hsubscribe (heq ▸ rfl)
      simp [Call.heldAfter, hother]
  | unsubscribe other =>
      have hother : other ≠ filter := fun heq => hunsubscribe (heq ▸ rfl)
      simp [Call.heldAfter, hother]

theorem accepts_of_failing {channel : Recorder} (hnone : channel.failing = .none) (call : Call) :
    channel.accepts call = true := by
  cases call <;> simp [accepts, hnone, Switches.none]

end Recorder

namespace Exchange

variable {ι α β : Type}

/-- The calls that a step reports tell what it changes about a filter. -/
def Tracks (filter : String) (step : Exchange (Peers Recorder ι) α) : Prop :=
  ∀ peers, (step.run peers).peers.channel.holds filter =
    Event.heldAfterAll filter (peers.channel.holds filter) (step.run peers).events

variable {filter : String}

theorem tracks_pure (a : α) : Tracks filter (pure a : Exchange (Peers Recorder ι) α) :=
  fun _ => rfl

theorem Tracks.bind {step : Exchange (Peers Recorder ι) α}
    {next : α → Exchange (Peers Recorder ι) β} (hstep : Tracks filter step)
    (hnext : ∀ a, Tracks filter (next a)) : Tracks filter (step >>= next) := by
  intro peers
  simp only [run_bind, Event.heldAfterAll_append]
  rw [hnext, hstep]

theorem tracks_call (c : Call) : Tracks filter (call c : Exchange (Peers Recorder ι) Bool) :=
  fun peers => peers.channel.holds_perform c filter

theorem tracks_forward (c : Call) :
    Tracks filter (forward c : Exchange (Peers Recorder ι) Bool) :=
  fun peers => peers.channel.holds_perform c filter

theorem tracks_draw [IdSource ι] : Tracks filter (draw : Exchange (Peers Recorder ι) _) :=
  fun _ => rfl

/-- Composed steps report every call that they make. -/
theorem Composed.tracks [IdSource ι] {step : Exchange (Peers Recorder ι) α} (h : Composed step) :
    Tracks filter step := by
  induction h with
  | pure a => exact tracks_pure a
  | bind _ _ hstep hnext => exact hstep.bind hnext
  | call c => exact tracks_call c
  | forward c => exact tracks_forward c
  | draw => exact tracks_draw
  | emit event hrecord =>
      intro peers
      exact (Event.heldAfter_of_isRecord hrecord _).symm
  | noteTimes count notice =>
      intro peers
      induction count with
      | zero => rfl
      | succ count ih => exact ih

/-! ### A channel that refuses nothing -/

/-- That no call of a step is refused by a channel that refuses nothing, which it goes on to do. -/
def Accepted (step : Exchange (Peers Recorder ι) α) : Prop :=
  ∀ peers, peers.channel.failing = .none →
    (step.run peers).peers.channel.failing = .none ∧
      ∀ call, .called call false ∉ (step.run peers).events

theorem Accepted.bind {step : Exchange (Peers Recorder ι) α}
    {next : α → Exchange (Peers Recorder ι) β} (hstep : Accepted step)
    (hnext : ∀ a, Accepted (next a)) : Accepted (step >>= next) := by
  intro peers hnone
  obtain ⟨hfirst, hcalls⟩ := hstep peers hnone
  obtain ⟨hsecond, hlater⟩ := hnext (step.run peers).value _ hfirst
  refine ⟨hsecond, fun call hmem => ?_⟩
  rcases List.mem_append.mp hmem with hmem | hmem
  · exact hcalls call hmem
  · exact hlater call hmem

theorem accepted_call (c : Call) : Accepted (call c : Exchange (Peers Recorder ι) Bool) := by
  intro peers hnone
  refine ⟨hnone, fun other hmem => ?_⟩
  have haccepted : (Channel.perform c peers).1 = true := Recorder.accepts_of_failing hnone c
  rw [run_call, haccepted] at hmem
  cases List.mem_singleton.mp hmem

theorem Composed.accepted [IdSource ι] {step : Exchange (Peers Recorder ι) α} (h : Composed step) :
    Accepted step := by
  induction h with
  | pure a => exact fun _ hnone => ⟨hnone, fun _ => List.not_mem_nil⟩
  | bind _ _ hstep hnext => exact hstep.bind hnext
  | call c => exact accepted_call c
  | forward c => exact fun _ hnone => ⟨hnone, fun _ hmem => nomatch List.mem_singleton.mp hmem⟩
  | draw => exact fun _ hnone => ⟨hnone, fun _ hmem => nomatch List.mem_singleton.mp hmem⟩
  | emit event hrecord =>
      refine fun _ hnone => ⟨hnone, fun call hmem => ?_⟩
      cases List.mem_singleton.mp hmem
      cases hrecord
  | noteTimes count notice =>
      refine fun _ hnone => ⟨hnone, fun call hmem => ?_⟩
      cases List.eq_of_mem_replicate hmem

end Exchange

/-!
## Readings of a counter

A counter that steps draw their ids from moves on by one with every id, so how far it is can be read
off the ids that a step reports.
-/

namespace Event

/-- What a counter reads after an event, from what it read before; `none` if a counter would not
have given that id. -/
def readingAfter? (reading : RequestId) : Event → Option RequestId
  | .drew id => if id = some (reading + 1) then some (reading + 1) else none
  | .called _ _ | .forwarded _ _ | .answered _ _ | .lapsed _ | .asked _ _ | .noted _ =>
    some reading

def readingAfterAll? (reading : RequestId) (events : List Event) : Option RequestId :=
  events.foldlM readingAfter? reading

@[simp] theorem readingAfterAll?_nil (reading : RequestId) :
    readingAfterAll? reading [] = some reading := rfl

@[simp] theorem readingAfterAll?_cons (reading : RequestId) (event : Event)
    (events : List Event) :
    readingAfterAll? reading (event :: events) =
      (event.readingAfter? reading).bind (readingAfterAll? · events) :=
  List.foldlM_cons

@[simp] theorem readingAfterAll?_append (reading : RequestId) (events later : List Event) :
    readingAfterAll? reading (events ++ later) =
      (readingAfterAll? reading events).bind (readingAfterAll? · later) :=
  List.foldlM_append

@[simp] theorem readingAfter?_called (reading : RequestId) (call : Call) (accepted : Bool) :
    (called call accepted).readingAfter? reading = some reading := rfl

theorem readingAfter?_drew_eq_some {reading next : RequestId} {id : Option RequestId} :
    (drew id).readingAfter? reading = some next ↔ id = some next ∧ next = reading + 1 := by
  simp only [readingAfter?, Option.ite_none_right_eq_some, Option.some.injEq]
  constructor
  · rintro ⟨rfl, rfl⟩
    exact ⟨rfl, rfl⟩
  · rintro ⟨rfl, rfl⟩
    exact ⟨rfl, rfl⟩

theorem readingAfterAll?_of_undrawn {events : List Event}
    (h : ∀ id, drew id ∉ events) (reading : RequestId) :
    readingAfterAll? reading events = some reading := by
  induction events with
  | nil => rfl
  | cons event events ih =>
      have hsame : event.readingAfter? reading = some reading := by
        cases event with
        | drew id => exact absurd (List.mem_cons_self) (h id)
        | _ => rfl
      rw [readingAfterAll?_cons, hsame, Option.bind_some]
      exact ih fun id hid => h id (List.mem_cons_of_mem _ hid)

theorem readingAfter?_of_isRecord {event : Event} (h : event.isRecord = true)
    (reading : RequestId) : event.readingAfter? reading = some reading := by
  cases event <;> simp_all [isRecord, readingAfter?]

theorem readingAfterAll?_deeds (reading : RequestId) (events : List Event) :
    readingAfterAll? reading (deeds events) = readingAfterAll? reading events := by
  induction events generalizing reading with
  | nil => rfl
  | cons event events ih =>
      cases hnotice : event.isNotice with
      | true =>
          have hdeeds : deeds (event :: events) = deeds events := by simp [deeds, hnotice]
          have hsame : event.readingAfter? reading = some reading := by
            cases event <;> simp_all [isNotice, readingAfter?]
          rw [hdeeds, ih, readingAfterAll?_cons, hsame, Option.bind_some]
      | false =>
          have hdeeds : deeds (event :: events) = event :: deeds events := by
            simp [deeds, hnotice]
          simp only [hdeeds, readingAfterAll?_cons, ih]

end Event

namespace Exchange

variable {τ α β : Type}

/-- The ids that a step reports tell how far it moves the counter. -/
def Counts (step : Exchange (Peers τ SharedCounter) α) : Prop :=
  ∀ peers, Event.readingAfterAll? peers.ids.counter.current (step.run peers).events =
    some (step.run peers).peers.ids.counter.current

theorem Counts.bind {step : Exchange (Peers τ SharedCounter) α}
    {next : α → Exchange (Peers τ SharedCounter) β} (hstep : Counts step)
    (hnext : ∀ a, Counts (next a)) : Counts (step >>= next) := by
  intro peers
  simp only [run_bind, Event.readingAfterAll?_append]
  rw [hstep peers, Option.bind_some]
  exact hnext _ _

theorem counts_draw : Counts (draw : Exchange (Peers τ SharedCounter) _) := by
  intro peers
  have hnext : (IdSource.next peers).1 = some (peers.ids.counter.current + 1) := rfl
  simp only [run_draw, hnext, Event.readingAfterAll?_cons, Event.readingAfter?, if_true]
  rfl

/-- Composed steps report every id that they draw. -/
theorem Composed.counts [Channel τ] {step : Exchange (Peers τ SharedCounter) α}
    (h : Composed step) : Counts step := by
  induction h with
  | pure a => exact fun _ => rfl
  | bind _ _ hstep hnext => exact hstep.bind hnext
  | call c => exact fun _ => rfl
  | forward c => exact fun _ => rfl
  | draw => exact counts_draw
  | emit event hrecord =>
      intro peers
      simp [Event.readingAfter?_of_isRecord hrecord]
  | noteTimes count notice =>
      intro peers
      induction count with
      | zero => rfl
      | succ count ih => exact ih

end Exchange

end AttributeExchange
