import AttributeExchange.Exchange.Peers
import AttributeExchange.Inquirer
import AttributeExchange.Switchboard

/-!
# Sessions

Several inquirers and the handlers of other components at work together: one recording channel, one
source of ids, one clock, one switchboard.
-/

namespace AttributeExchange

abbrev LocalPeers := Peers Recorder IdSupply

structure Session where
  inquirers : List Inquirer
  switchboard : Switchboard
  clock : Clock
  peers : LocalPeers
  /-- How many submissions were made; it numbers their inquiries. -/
  submissions : Nat

namespace Session

def new (settings : List Settings) (ids : IdSupply) : Session :=
  ⟨settings.map Inquirer.new, .empty, .new, ⟨.new, ids⟩, 0⟩

/-- The current instant where it is needed; elsewhere the clock is not read. -/
def instant (session : Session) (needed : Bool) : Except ClockFault Instant :=
  if needed then session.clock.now else .ok .start

def withChannel (session : Session) (change : Recorder → Recorder) : Session :=
  { session with peers := { session.peers with channel := change session.peers.channel } }

def exchange {α : Type} (session : Session) (step : Exchange LocalPeers (α × List Inquirer)) :
    α × List Event × Session :=
  let outcome := step.run session.peers
  (outcome.value.1, outcome.events,
    { session with inquirers := outcome.value.2, peers := outcome.peers })

def registerAll (session : Session) (handlers : List Handler) : List Event × Session :=
  let (switchboard, events, session) :=
    session.exchange (session.switchboard.registerAll session.inquirers handlers)
  (events, { session with switchboard })

/-!
## Steps of a session

A session takes one step at a time and reports the reply, what happened, and the session afterwards.
Inquirers are told apart by their index; a step of an inquirer that is not there does nothing.
-/

inductive Step where
  | operate (index : Nat) (operation : Inquirer.Operation)
  | carryOut (index : Nat) (task : HandlerTask)
  | poll (index : Nat)
  | form (index : Nat)
  | claims (index : Nat) (topic : String)
  | awaits (index : Nat) (id : RequestId)
  | describe (index : Nat)
  | advance (span : Duration)
  /-- Sets those switches of the channel that are given. -/
  | fail (send subscribe unsubscribe : Option Bool)
  /-- Another component draws an id. -/
  | draw
  | holds (filter : String)
  | counts
  | forgetCalls
  | deliver (topic : String) (payload : Bytes)
  | broadcast (task : HandlerTask)
  | pollHandlers

inductive Reply where
  | done
  | flag (value : Bool)
  | result (result : Inquirer.Result)
  | form (form : PayloadForm)
  | description (settings : Settings) (capacity : Capacity) (waiting : Nat)
  | drawn (id : Option RequestId)
  | counts (subscribe unsubscribe : Nat) (sent : List (String × Json))
  | delivered (outcome : Except DeliveryFault Bool)

structure Report where
  reply : Reply
  events : List Event
  session : Session

/-! ### Steps of the inquirers -/

def silent (session : Session) (reply : Reply) : Report :=
  ⟨reply, [], session⟩

def inspect (session : Session) (index : Nat) (reply : Inquirer → Reply) : Report :=
  session.silent ((session.inquirers[index]?.map reply).getD .done)

def report {α : Type} (session : Session) (reply : α → Reply)
    (step : Exchange LocalPeers (α × List Inquirer)) : Report :=
  let (value, events, session) := session.exchange step
  ⟨reply value, events, session⟩

def number (session : Session) : Inquirer.Operation → Session × Inquirer.Operation
  | .submit submission =>
    ({ session with submissions := session.submissions + 1 },
      .submit { submission with
        inquiry := { submission.inquiry with tag := session.submissions } })
  | operation => (session, operation)

def operate (session : Session) (index : Nat) (operation : Inquirer.Operation) :
    Except ClockFault Report := do
  let (session, operation) := session.number operation
  let now ← session.instant <|
    session.inquirers[index]?.any (·.needsTime session.peers operation)
  return session.report (fun result => (result.map Reply.result).getD .done) <|
    Exchange.atIndex index (·.perform now operation) session.inquirers

def carryOut (session : Session) (index : Nat) (task : HandlerTask) : Report :=
  session.report .flag ((Handler.inquirer index).carryOut task session.inquirers index)

def broadcast (session : Session) (task : HandlerTask) : Report :=
  session.report .flag (session.switchboard.broadcast task session.inquirers)

/-! ### All steps -/

def take (session : Session) : Step → Except ClockFault Report
  | .operate index operation => session.operate index operation
  | .carryOut index task => .ok (session.carryOut index task)
  | .poll index => do return session.carryOut index (.poll (← session.instant true))
  | .form index => .ok (session.inspect index fun _ => .form (Handler.inquirer index).form)
  | .claims index topic =>
    .ok (session.inspect index fun _ => .flag ((Handler.inquirer index).claims topic))
  | .awaits index id => .ok (session.inspect index fun q => .flag (q.awaits id))
  | .describe index =>
    .ok (session.inspect index fun q =>
      .description q.settings q.outstanding.capacity q.waitingCount)
  | .advance span => .ok ({ session with clock := session.clock.advance span }.silent .done)
  | .fail send subscribe unsubscribe =>
    .ok <| (session.withChannel fun channel =>
      { channel with
        failing := channel.failing.change send subscribe unsubscribe }).silent .done
  | .draw =>
    let (id, ids) := IdSource.next session.peers.ids
    .ok ({ session with peers := { session.peers with ids } }.silent (.drawn id))
  | .holds filter => .ok (session.silent (.flag (session.peers.channel.holds filter)))
  | .counts =>
    let channel := session.peers.channel
    .ok (session.silent (.counts channel.subscribeCalls channel.unsubscribeCalls channel.sent))
  | .forgetCalls => .ok ((session.withChannel Recorder.forgetCalls).silent .done)
  | .deliver topic payload =>
    .ok <| session.report .delivered <|
      session.switchboard.deliver topic payload session.inquirers
  | .broadcast task => .ok (session.broadcast task)
  | .pollHandlers => do
    return session.broadcast (.poll (← session.instant session.switchboard.hasInquirer))

def takeAll (session : Session) : List Step → Except ClockFault (List Report)
  | [] => .ok []
  | step :: steps => do
    let report ← session.take step
    return report :: (← report.session.takeAll steps)

end Session

end AttributeExchange
