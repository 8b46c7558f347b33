import AttributeExchange.Exchange.Basic
import AttributeExchange.Exchange.Peers
import AttributeExchange.Settings.Basic

/-!
# Inquirers

An inquirer asks for attributes and waits for the answers. It holds its settings, the requests that
are still open, and the subscription under which answers reach it. The subscription is held while
requests are open and given up when the last one is gone, however it went.
-/

namespace AttributeExchange

structure Inquirer where
  settings : Settings
  outstanding : Outstanding
  subscription : Subscription
  deriving DecidableEq

namespace Inquirer

def new (settings : Settings) : Inquirer :=
  ⟨settings, .new settings.capacity, .new Topic.responseFilter⟩

def waitingIds (q : Inquirer) : List RequestId :=
  q.outstanding.ids

def waitingCount (q : Inquirer) : Nat :=
  q.outstanding.size

def awaits (q : Inquirer) (id : RequestId) : Bool :=
  q.outstanding.contains id

variable {σ : Type}

def diagnose (settings : Settings) (notice : Notice) : Exchange σ Unit :=
  if settings.verbose then Exchange.note notice else return ()

def settle [Channel σ] (q : Inquirer) : Exchange σ Inquirer :=
  if q.outstanding.isEmpty && q.subscription.held then do
    let (_, subscription) ← q.subscription.relinquish
    return { q with subscription }
  else return q

end Inquirer

/-!
## Submissions

How an inquirer takes a submission. Every check that needs nobody else comes before the channel is
touched; then the subscription and an id are obtained, and only then is the request opened and
sent. A submission that fails after the subscription was obtained leaves it to be settled.
-/

/-- What a caller submits: an inquiry and the members under which keys are sent and attributes come
back. -/
structure Submission where
  inquiry : Inquiry
  requestMember : Option String
  responseMember : Option String

def Submission.ofScope (scope : Scope) (inquiry : Inquiry) : Submission :=
  ⟨inquiry, some scope.requestMember, some scope.responseMember⟩

namespace Inquirer

structure Checked where
  draft : Draft
  member : String
  inquiry : Inquiry

/-- A submission that only needs to be opened and sent. -/
structure Ready where
  publication : Publication
  member : String
  inquiry : Inquiry

variable {σ : Type}

def compose (draft : Draft) : Exchange σ (Except RequestFault Json) := do
  Exchange.noteTimes draft.reported .keySkipped
  return draft.payload

/-- Checks a submission by itself: a usable key, both members, the number of keys, the length of
the list. -/
def check (settings : Settings) (s : Submission) : Exchange σ (Except RequestFault Checked) :=
  if KeyList.anyUsable s.inquiry.keys then
    match s.requestMember, s.responseMember with
    | some requestMember, some responseMember =>
      match settings.excessKeys? s.inquiry.keys with
      | some fault => do
        diagnose settings (.rejected fault)
        return .error fault
      | none => do
        let draft := settings.draft s.inquiry.keys requestMember responseMember
        match ← compose draft with
        | .error fault =>
          diagnose settings (.rejected fault)
          return .error fault
        | .ok _ => return .ok ⟨draft, responseMember, s.inquiry⟩
    | _, _ => do
      diagnose settings .membersMissing
      return .error (.invalid .membersMissing)
  else do
    diagnose settings .noKeys
    return .error (.invalid .noKeys)

variable [Channel σ]

def refuse {α : Type} (q : Inquirer) (fault : RequestFault) :
    Exchange σ (Except RequestFault α × Inquirer) := do
  Exchange.note (.refused fault)
  return (.error fault, ← q.settle)

variable [IdSource σ]

def identify (q : Inquirer) (checked : Checked) :
    Exchange σ (Except RequestFault Ready × Inquirer) := do
  match ← Exchange.draw with
  | none => q.refuse .noId
  | some id =>
    let draft := { checked.draft with id := some id }
    Exchange.noteTimes draft.reported .keySkipped
    match draft.publication with
    | .error fault => q.refuse fault
    | .ok publication => return (.ok ⟨publication, checked.member, checked.inquiry⟩, q)

/-- Everything that a submission needs before the time matters: its own checks, room for one more
request, the subscription, and an id. -/
def prepare (q : Inquirer) (s : Submission) :
    Exchange σ (Except RequestFault Ready × Inquirer) := do
  match ← check q.settings s with
  | .error fault => return (.error fault, q)
  | .ok checked =>
    match q.outstanding.checkRoom with
    | .error fault =>
      Exchange.note (.refused fault)
      return (.error fault, q)
    | .ok () =>
      let (obtained, subscription) ← q.subscription.acquire
      let q := { q with subscription }
      match obtained with
      | .error fault => return (.error fault, q)
      | .ok () => q.identify checked

/-- Opens a request at `now` and sends it. A request that could not be sent stays open until its
timer runs out. -/
def commit (q : Inquirer) (ready : Ready) (now : Instant) :
    Exchange σ (Except RequestFault RequestId × Inquirer) := do
  let id := ready.publication.id
  let request := OpenRequest.start id (some ready.member)
    (q.settings.timeoutOf ready.inquiry) ready.inquiry now
  match q.outstanding.insert request with
  | .error fault => q.refuse fault
  | .ok outstanding =>
    let q := { q with outstanding }
    if ← Exchange.call (.send ready.publication.topic ready.publication.payload) then
      Exchange.note (.sent id ready.publication.topic)
      return (.ok id, q)
    else
      Exchange.note (.notSent ready.publication.topic)
      return (.error (.notSent id), q)

def submit (q : Inquirer) (s : Submission) (now : Instant) :
    Exchange σ (Except RequestFault RequestId × Inquirer) := do
  match ← q.prepare s with
  | (.error fault, q) => return (.error fault, q)
  | (.ok ready, q) => q.commit ready now

end Inquirer

/-!
## Receipt of answers

A document that arrives on the response topic of an open request closes the request and goes to its
response handler. Time plays no part in it: a request that is due but has not been retired is still
answered.
-/

inductive Receipt where
  | answered (id : RequestId)
  /-- The request had no member to look for and was dropped. -/
  | keyMissing (id : RequestId)
  | unknown
  deriving DecidableEq, Repr

namespace Inquirer

variable {σ : Type} [Channel σ]

/-- Hands a document to the request that its topic names. The handler gets the member that the
request looks for if the document has it, otherwise the whole document. -/
def receive (q : Inquirer) (topic : String) (document : Json) :
    Exchange σ (Receipt × Inquirer) :=
  if Topic.isResponse topic then
    match Topic.parseId? Topic.responseBase topic with
    | none => do
      diagnose q.settings (.unreadableId topic)
      return (.unknown, q)
    | some id =>
      match q.outstanding.take? id with
      | none => do
        diagnose q.settings (.unknownId id)
        return (.unknown, q)
      | some (request, outstanding) =>
        let q := { q with outstanding }
        match request.member with
        | some name => do
          let _ ← request.answer (document.select name)
          return (.answered id, ← q.settle)
        | none => do
          diagnose q.settings (.rejected (.keyMissing id))
          return (.keyMissing id, ← q.settle)
  else return (.unknown, q)

/-!
## Retirement of requests

Requests that are not answered end in one of two ways: they are retired when their deadline has
come, and then their expiry handlers run, or all of them are dropped at once and no handler runs.
-/

def lapseAll : List OpenRequest → Exchange σ Unit
  | [] => return ()
  | request :: requests => do
    let (handled, _) ← request.lapse
    Exchange.note (.timedOut request.id handled)
    lapseAll requests

def retire (q : Inquirer) (now : Instant) : Exchange σ (List RequestId × Inquirer) := do
  let (due, outstanding) := q.outstanding.takeDue now
  if due.isEmpty then return ([], q)
  else
    lapseAll due
    return (due.map (·.id), ← { q with outstanding }.settle)

/-- Drops every open request without running a handler, and gives the subscription up whether or
not it is held. -/
def cancelAll (q : Inquirer) : Exchange σ (Bool × Inquirer) := do
  if 0 < q.outstanding.size then Exchange.note (.cancelled q.outstanding.size)
  let (accepted, subscription) ← q.subscription.relinquish
  return (accepted, { q with outstanding := q.outstanding.clear, subscription })

/-- Follows a new connection: nothing that was open can be answered, and callers submit again. -/
def reconnect (q : Inquirer) : Exchange σ (Bool × Inquirer) :=
  q.cancelAll

/-!
## Operations of an inquirer

Everything that changes an inquirer, as one type, so that a history is a list of operations with the
instants at which they were carried out.
-/

inductive Operation where
  | submit (submission : Submission)
  | receive (topic : String) (document : Json)
  | retire
  | cancelAll
  | reconnect

inductive Result where
  | submitted (outcome : Except RequestFault RequestId)
  | received (receipt : Receipt)
  | retired (ids : List RequestId)
  /-- Whether the channel accepted that the subscription was given up. -/
  | cancelled (accepted : Bool)

variable [IdSource σ]

def perform (q : Inquirer) (now : Instant) : Operation → Exchange σ (Result × Inquirer)
  | .submit submission => do
    let (outcome, q) ← q.submit submission now
    return (.submitted outcome, q)
  | .receive topic document => do
    let (receipt, q) ← q.receive topic document
    return (.received receipt, q)
  | .retire => do
    let (ids, q) ← q.retire now
    return (.retired ids, q)
  | .cancelAll => do
    let (accepted, q) ← q.cancelAll
    return (.cancelled accepted, q)
  | .reconnect => do
    let (accepted, q) ← q.reconnect
    return (.cancelled accepted, q)

def performAll (q : Inquirer) : List (Instant × Operation) → Exchange σ (List Result × Inquirer)
  | [] => return ([], q)
  | (now, operation) :: history => do
    let (result, q) ← q.perform now operation
    let (results, q) ← q.performAll history
    return (result :: results, q)

/-- Whether an operation depends on the instant. A submission does once it is ready to be opened. -/
def needsTime (q : Inquirer) (peers : σ) : Operation → Bool
  | .submit submission => ((q.prepare submission).run peers).value.1.isOk
  | .retire => true
  | .receive _ _ | .cancelAll | .reconnect => false

end Inquirer

end AttributeExchange
