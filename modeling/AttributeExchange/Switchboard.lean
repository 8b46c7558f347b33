import AttributeExchange.Inquirer
import AttributeExchange.Json.Reader
import AttributeExchange.Json.Scan

/-!
# Switchboards

A switchboard hands each inbound message to the first handler that claims its topic, and other tasks
to every handler in the order of their registration.
-/

namespace AttributeExchange

/-!
## Handlers

A handler takes messages and follows the connection. It is an inquirer, known by its place in a list
that travels along, or belongs to another component, which is only asked.
-/

inductive PayloadForm where
  | bytes
  | document
  deriving DecidableEq, Repr

/-- A handler of another component: which topics it claims, and which tasks it could carry out. -/
structure ForeignHandler where
  form : PayloadForm
  claims : String → Bool
  reply : HandlerTask → Bool

inductive Handler where
  | inquirer (index : Nat)
  | component (handler : ForeignHandler)

/-- A listener claims the topics that start with its base, and says whether it could follow when the
connection is lost and when it is back. -/
structure Listener where
  form : PayloadForm
  topicBase : String
  disconnects : Bool
  reconnects : Bool

def Listener.reply (listener : Listener) : HandlerTask → Bool
  | .disconnect => listener.disconnects
  | .reconnect => listener.reconnects
  | .takeBytes _ _ | .takeDocument _ _ | .start | .poll _ => true

namespace Handler

def foreign (listener : Listener) : Handler :=
  .component
    ⟨listener.form, fun topic => (Topic.after? listener.topicBase topic).isSome, listener.reply⟩

def form : Handler → PayloadForm
  | .inquirer _ => .document
  | .component handler => handler.form

def claims (topic : String) : Handler → Bool
  | .inquirer _ => Topic.isResponse topic
  | .component handler => handler.claims topic

variable {σ : Type} [Channel σ]

/-- Lets an inquirer carry out a task. It wants documents and takes no bytes. -/
def taskOfInquirer (q : Inquirer) : HandlerTask → Exchange σ (Bool × Inquirer)
  | .takeBytes _ _ => return (true, q)
  | .takeDocument topic document => do
    let (_, q) ← q.receive topic document
    return (true, q)
  | .start => do
    Exchange.note .registered
    return (true, q)
  | .poll now => do
    let (_, q) ← q.retire now
    return (true, q)
  | .disconnect => q.cancelAll
  | .reconnect => q.reconnect

/-- Lets the handler at a position carry out a task, and tells whether it could. -/
def carryOut (task : HandlerTask) (inquirers : List Inquirer) (position : Nat) :
    Handler → Exchange σ (Bool × List Inquirer)
  | .inquirer index => do
    let (agreed, inquirers) ← Exchange.atIndex index (taskOfInquirer · task) inquirers
    return (agreed.getD true, inquirers)
  | .component handler => do
    Exchange.emit (.asked position task)
    return (handler.reply task, inquirers)

end Handler

/-! ## Registration and routing -/

structure Switchboard where
  handlers : List Handler

inductive DeliveryFault where
  | undecodable (topic : String) (cause : Json.ReadError)
  deriving DecidableEq, Repr

def DeliveryFault.message : DeliveryFault → String
  | .undecodable topic cause =>
    "Failed to deserialize payload on topic (" ++ topic ++ "): " ++ cause.message

namespace Switchboard

def empty : Switchboard :=
  ⟨[]⟩

def claimant? (switchboard : Switchboard) (topic : String) : Option (Handler × Nat) :=
  switchboard.handlers.zipIdx.find? fun entry => entry.1.claims topic

def hasInquirer (switchboard : Switchboard) : Bool :=
  switchboard.handlers.any fun
    | .inquirer _ => true
    | .component _ => false

variable {σ : Type} [Channel σ]

/-- Adds a handler at the end and tells it to start. -/
def register (switchboard : Switchboard) (handler : Handler)
    (inquirers : List Inquirer) : Exchange σ (Switchboard × List Inquirer) := do
  let (_, inquirers) ← handler.carryOut .start inquirers switchboard.handlers.length
  return (⟨switchboard.handlers ++ [handler]⟩, inquirers)

def registerAll (switchboard : Switchboard) (inquirers : List Inquirer) :
    List Handler → Exchange σ (Switchboard × List Inquirer)
  | [] => return (switchboard, inquirers)
  | handler :: handlers => do
    let (switchboard, inquirers) ← switchboard.register handler inquirers
    switchboard.registerAll inquirers handlers

def taskFor (topic : String) (payload : Bytes) :
    PayloadForm → Except DeliveryFault HandlerTask
  | .bytes => .ok (.takeBytes topic payload)
  | .document =>
    match Json.read payload with
    | .ok document => .ok (.takeDocument topic document)
    | .error cause => .error (.undecodable topic cause)

/-- Hands a message to the first handler that claims its topic and tells whether there was one. -/
def deliver (switchboard : Switchboard) (topic : String) (payload : Bytes)
    (inquirers : List Inquirer) : Exchange σ (Except DeliveryFault Bool × List Inquirer) :=
  match switchboard.claimant? topic with
  | none => do
    Exchange.note (.unclaimed topic)
    return (.ok false, inquirers)
  | some (handler, position) =>
    match taskFor topic payload handler.form with
    | .error fault => do
      Exchange.note (.undecodable topic)
      return (.error fault, inquirers)
    | .ok task => do
      let (_, inquirers) ← handler.carryOut task inquirers position
      return (.ok true, inquirers)

def carryOutFrom (task : HandlerTask) :
    Nat → List Handler → List Inquirer → Exchange σ (Bool × List Inquirer)
  | _, [], inquirers => return (true, inquirers)
  | position, handler :: handlers, inquirers => do
    let (agreed, inquirers) ← handler.carryOut task inquirers position
    let (others, inquirers) ← carryOutFrom task (position + 1) handlers inquirers
    return (agreed && others, inquirers)

def broadcast (switchboard : Switchboard) (task : HandlerTask) (inquirers : List Inquirer) :
    Exchange σ (Bool × List Inquirer) :=
  carryOutFrom task 0 switchboard.handlers inquirers

end Switchboard

end AttributeExchange
