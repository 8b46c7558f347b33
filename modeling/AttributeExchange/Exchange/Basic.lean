import AttributeExchange.Json.Basic
import AttributeExchange.Message
import AttributeExchange.Time

/-!
# The exchange

Steps that deal with a channel and a source of ids, and the events that tell what they did.
-/

namespace AttributeExchange

/-!
## Events

Everything that a step of the exchange does beyond its result, in the order in which it happens:
calls of the channel, ids drawn, handlers run, and notices.
-/

inductive Call where
  | send (topic : String) (payload : Json)
  | subscribe (filter : String)
  | unsubscribe (filter : String)
  deriving DecidableEq, Repr

inductive Notice where
  | registered
  | noKeys
  | membersMissing
  | keySkipped
  /-- A submission that its own checks refused, or an answer that its request cannot take. -/
  | rejected (fault : RequestFault)
  /-- A submission that was refused for want of room or of an id. -/
  | refused (fault : RequestFault)
  | notSubscribed (filter : String)
  | notUnsubscribed (filter : String)
  | notSent (topic : String)
  | sent (id : RequestId) (topic : String)
  /-- An answer on a response topic without a readable id. -/
  | unreadableId (topic : String)
  | unknownId (id : RequestId)
  | timedOut (id : RequestId) (handled : Bool)
  | cancelled (count : Nat)
  | unclaimed (topic : String)
  | undecodable (topic : String)
  deriving DecidableEq, Repr

/-- Whether a notice is for diagnosis only, so that a quiet inquirer leaves it out. -/
def Notice.isDiagnostic : Notice → Bool
  | .noKeys | .membersMissing | .keySkipped | .rejected _ | .unreadableId _ | .unknownId _ => true
  | _ => false

inductive HandlerTask where
  | takeBytes (topic : String) (payload : List UInt8)
  | takeDocument (topic : String) (document : Json)
  | start
  | poll (now : Instant)
  | disconnect
  | reconnect
  deriving DecidableEq, Repr

inductive Event where
  /-- An inquirer called the channel, which accepted or refused. -/
  | called (call : Call) (accepted : Bool)
  /-- A response or expiry handler called the channel. -/
  | forwarded (call : Call) (accepted : Bool)
  | drew (id : Option RequestId)
  | answered (tag : Nat) (value : Json)
  | lapsed (tag : Nat)
  /-- The handler of another component at this position was asked. -/
  | asked (position : Nat) (task : HandlerTask)
  | noted (notice : Notice)
  deriving DecidableEq, Repr

namespace Event

def call? : Event → Option Call
  | .called call _ | .forwarded call _ => some call
  | .drew _ | .answered _ _ | .lapsed _ | .asked _ _ | .noted _ => none

def calls (events : List Event) : List Call :=
  events.filterMap call?

theorem calls_append (events later : List Event) :
    calls (events ++ later) = calls events ++ calls later :=
  List.filterMap_append

/-- Every event with the number of calls that were made before it, `made` of them before all. -/
def numbered (made : Nat) : List Event → List (Nat × Event)
  | [] => []
  | event :: events => (made, event) :: numbered (made + (calls [event]).length) events

end Event

/-!
## Steps of the exchange

A step works with collaborators that it does not know: a channel that accepts or refuses calls, and
a source of ids. They are a state `σ` with two operations, so that a statement over every `σ` is one
about every way in which they may answer. A step returns its result, the collaborators as it left
them, and what happened.
-/

/-- A connection to a publish/subscribe broker. It tells at once whether it accepted a call. -/
class Channel (σ : Type) where
  perform : Call → σ → Bool × σ

/-- Where request ids come from; `none` when there is no id to be had. -/
class IdSource (σ : Type) where
  next : σ → Option RequestId × σ

/-- What a step leaves behind; events are oldest first. -/
structure Outcome (σ α : Type) where
  value : α
  peers : σ
  events : List Event

/-- A step that works with the collaborators `σ`. -/
def Exchange (σ α : Type) : Type :=
  σ → Outcome σ α

namespace Exchange

variable {σ α β : Type}

def run (step : Exchange σ α) (peers : σ) : Outcome σ α :=
  step peers

instance : Monad (Exchange σ) where
  pure a := fun peers => ⟨a, peers, []⟩
  bind step next := fun peers =>
    let first := step peers
    let second := next first.value first.peers
    ⟨second.value, second.peers, first.events ++ second.events⟩

@[simp] theorem run_pure (a : α) (peers : σ) :
    (pure a : Exchange σ α).run peers = ⟨a, peers, []⟩ := rfl

@[simp] theorem run_bind (step : Exchange σ α) (next : α → Exchange σ β) (peers : σ) :
    (step >>= next).run peers =
      ⟨((next (step.run peers).value).run (step.run peers).peers).value,
        ((next (step.run peers).value).run (step.run peers).peers).peers,
        (step.run peers).events ++
          ((next (step.run peers).value).run (step.run peers).peers).events⟩ := rfl

@[ext] theorem ext {step other : Exchange σ α} (h : ∀ peers, step.run peers = other.run peers) :
    step = other :=
  funext h

@[simp] theorem run_map (f : α → β) (step : Exchange σ α) (peers : σ) :
    (f <$> step).run peers =
      ⟨f (step.run peers).value, (step.run peers).peers, (step.run peers).events⟩ := by
  change Outcome.mk _ _ ((step.run peers).events ++ []) = _
  rw [List.append_nil]
  rfl

@[simp] theorem run_ite (c : Prop) [Decidable c] (step other : Exchange σ α) (peers : σ) :
    (if c then step else other).run peers = if c then step.run peers else other.run peers := by
  split <;> rfl

instance : LawfulMonad (Exchange σ) :=
  LawfulMonad.mk' (Exchange σ)
    (fun step => by ext peers; simp [run_map])
    (fun _ _ => by ext; simp)
    (fun _ _ _ => by ext; simp)

def emit (event : Event) : Exchange σ Unit := fun peers =>
  ⟨(), peers, [event]⟩

def note (notice : Notice) : Exchange σ Unit :=
  emit (.noted notice)

def noteTimes (count : Nat) (notice : Notice) : Exchange σ Unit := fun peers =>
  ⟨(), peers, List.replicate count (.noted notice)⟩

/-- Calls the channel on behalf of an inquirer. -/
def call [Channel σ] (c : Call) : Exchange σ Bool := fun peers =>
  let (accepted, peers) := Channel.perform c peers
  ⟨accepted, peers, [.called c accepted]⟩

/-- Calls the channel on behalf of a handler of an inquiry. -/
def forward [Channel σ] (c : Call) : Exchange σ Bool := fun peers =>
  let (accepted, peers) := Channel.perform c peers
  ⟨accepted, peers, [.forwarded c accepted]⟩

def draw [IdSource σ] : Exchange σ (Option RequestId) := fun peers =>
  let (id, peers) := IdSource.next peers
  ⟨id, peers, [.drew id]⟩

/-- Lets one value of a list take a step; nothing happens if there is none at that place. -/
def atIndex (index : Nat) (step : β → Exchange σ (α × β)) (values : List β) :
    Exchange σ (Option α × List β) :=
  match values[index]? with
  | none => return (none, values)
  | some value => do
    let (result, value) ← step value
    return (some result, values.set index value)

@[simp] theorem run_emit (event : Event) (peers : σ) :
    (emit event).run peers = ⟨(), peers, [event]⟩ := rfl

@[simp] theorem run_note (notice : Notice) (peers : σ) :
    (note notice).run peers = ⟨(), peers, [.noted notice]⟩ := rfl

@[simp] theorem run_noteTimes (count : Nat) (notice : Notice) (peers : σ) :
    (noteTimes count notice).run peers =
      ⟨(), peers, List.replicate count (.noted notice)⟩ := rfl

@[simp] theorem run_call [Channel σ] (c : Call) (peers : σ) :
    (call c).run peers =
      ⟨(Channel.perform c peers).1, (Channel.perform c peers).2,
        [.called c (Channel.perform c peers).1]⟩ := rfl

@[simp] theorem run_forward [Channel σ] (c : Call) (peers : σ) :
    (forward c).run peers =
      ⟨(Channel.perform c peers).1, (Channel.perform c peers).2,
        [.forwarded c (Channel.perform c peers).1]⟩ := rfl

@[simp] theorem run_draw [IdSource σ] (peers : σ) :
    (draw : Exchange σ _).run peers =
      ⟨(IdSource.next peers).1, (IdSource.next peers).2, [.drew (IdSource.next peers).1]⟩ := rfl

end Exchange

/-!
## Subscriptions

The one filter that an inquirer keeps subscribed while it waits for answers. It is subscribed anew
for every submission, since the channel does not mind. Giving it up always succeeds on this side,
even if the channel refuses, for there is nothing left to be answered.
-/

structure Subscription where
  filter : String
  held : Bool
  deriving DecidableEq, Repr

namespace Subscription

def new (filter : String) : Subscription :=
  ⟨filter, false⟩

variable {σ : Type} [Channel σ]

def acquire (subscription : Subscription) :
    Exchange σ (Except RequestFault Unit × Subscription) := do
  if ← Exchange.call (.subscribe subscription.filter) then
    return (.ok (), { subscription with held := true })
  else
    Exchange.note (.notSubscribed subscription.filter)
    return (.error (.notSubscribed subscription.filter), subscription)

def relinquish (subscription : Subscription) : Exchange σ (Bool × Subscription) := do
  let accepted ← Exchange.call (.unsubscribe subscription.filter)
  if !accepted then Exchange.note (.notUnsubscribed subscription.filter)
  return (accepted, { subscription with held := false })

end Subscription

end AttributeExchange
