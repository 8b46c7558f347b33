import AttributeExchange.Exchange.Basic

/-!
# Collaborators

The channel and the source of ids that inquirers share.
-/

namespace AttributeExchange

/-!
## Channel and ids side by side

The collaborators of inquirers that share one channel and one source of ids.
-/

structure Peers (τ ι : Type) where
  channel : τ
  ids : ι
  deriving DecidableEq, Repr

namespace Peers

variable {τ ι : Type}

instance [Channel τ] : Channel (Peers τ ι) where
  perform call peers :=
    let (accepted, channel) := Channel.perform call peers.channel
    (accepted, { peers with channel })

instance [IdSource ι] : IdSource (Peers τ ι) where
  next peers :=
    let (id, ids) := IdSource.next peers.ids
    (id, { peers with ids })

end Peers

/-!
## The recording channel

A channel without a broker behind it. It keeps every call, accepted or refused, and the set of
filters that are subscribed. Each kind of call can be switched to fail; a refused call changes no
subscription.
-/

structure Switches where
  send : Bool
  subscribe : Bool
  unsubscribe : Bool
  deriving DecidableEq, Repr

def Switches.none : Switches :=
  ⟨false, false, false⟩

def Switches.change (switches : Switches) (send subscribe unsubscribe : Option Bool) : Switches :=
  ⟨send.getD switches.send, subscribe.getD switches.subscribe,
    unsubscribe.getD switches.unsubscribe⟩

/-- The calls so far, oldest first, and the subscribed filters. -/
structure Recorder where
  calls : List Call
  subscriptions : List String
  failing : Switches
  deriving DecidableEq, Repr

namespace Recorder

def new : Recorder :=
  ⟨[], [], .none⟩

def holds (channel : Recorder) (filter : String) : Bool :=
  channel.subscriptions.contains filter

def accepts (channel : Recorder) : Call → Bool
  | .send _ _ => !channel.failing.send
  | .subscribe _ => !channel.failing.subscribe
  | .unsubscribe _ => !channel.failing.unsubscribe

def subscriptionsAfter (channel : Recorder) : Call → List String
  | .send _ _ => channel.subscriptions
  | .subscribe filter => channel.subscriptions.insert filter
  | .unsubscribe filter => channel.subscriptions.filter (· ≠ filter)

def perform (channel : Recorder) (call : Call) : Recorder :=
  { channel with
    calls := channel.calls ++ [call]
    subscriptions :=
      if channel.accepts call then channel.subscriptionsAfter call
      else channel.subscriptions }

instance : Channel Recorder where
  perform call channel := (channel.accepts call, channel.perform call)

def forgetCalls (channel : Recorder) : Recorder :=
  { channel with calls := [] }

def sent (channel : Recorder) : List (String × Json) :=
  channel.calls.filterMap fun
    | .send topic payload => some (topic, payload)
    | _ => none

def subscribeCalls (channel : Recorder) : Nat :=
  channel.calls.countP fun
    | .subscribe _ => true
    | _ => false

def unsubscribeCalls (channel : Recorder) : Nat :=
  channel.calls.countP fun
    | .unsubscribe _ => true
    | _ => false

@[simp] theorem calls_perform (channel : Recorder) (call : Call) :
    (channel.perform call).calls = channel.calls ++ [call] := rfl

@[simp] theorem failing_perform (channel : Recorder) (call : Call) :
    (channel.perform call).failing = channel.failing := rfl

end Recorder

/-!
## Sources of ids

A counter that every holder of a handle draws from, and a script of prepared answers.
-/

/-- The last id that was handed out. -/
structure Counter where
  current : RequestId
  deriving DecidableEq, Repr, Inhabited

namespace Counter

def after (last : RequestId) : Counter :=
  ⟨last⟩

def next (counter : Counter) : RequestId × Counter :=
  (counter.current + 1, ⟨counter.current + 1⟩)

instance : IdSource Counter where
  next counter := (some counter.next.1, counter.next.2)

end Counter

/-- A counter and the number of handles on it. All handles share one sequence. -/
structure SharedCounter where
  counter : Counter
  handles : Nat
  deriving DecidableEq, Repr

namespace SharedCounter

def new (counter : Counter) : SharedCounter :=
  ⟨counter, 1⟩

def clone (shared : SharedCounter) : Nat × SharedCounter :=
  (shared.handles, { shared with handles := shared.handles + 1 })

def next (shared : SharedCounter) : RequestId × SharedCounter :=
  (shared.counter.next.1, { shared with counter := shared.counter.next.2 })

instance : IdSource SharedCounter where
  next shared := (some shared.next.1, shared.next.2)

def readings (shared : SharedCounter) : List RequestId :=
  List.replicate shared.handles shared.counter.current

end SharedCounter

/-- Prepared answers, then none for ever. -/
structure Script where
  answers : List (Option RequestId)
  deriving DecidableEq, Repr

namespace Script

def next (script : Script) : Option RequestId × Script :=
  match script.answers with
  | [] => (none, ⟨[]⟩)
  | answer :: answers => (answer, ⟨answers⟩)

instance : IdSource Script where
  next script := script.next

end Script

inductive IdSupply where
  | counter (state : Counter)
  | script (state : Script)
  deriving DecidableEq, Repr

namespace IdSupply

instance : IdSource IdSupply where
  next
    | .counter state => (some state.next.1, .counter state.next.2)
    | .script state => (state.next.1, .script state.next.2)

def current? : IdSupply → Option RequestId
  | .counter state => some state.current
  | .script _ => none

end IdSupply

end AttributeExchange
