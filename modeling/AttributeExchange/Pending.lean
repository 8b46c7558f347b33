import AttributeExchange.Exchange.Basic
import AttributeExchange.Text.Quoted
import AttributeExchange.Time

/-!
# Pending requests

What a caller asks for, a request that was made for it, and all the requests that still wait.
-/

namespace AttributeExchange

/-!
## Inquiries

What a caller hands over with a request: the keys it asks for, a timeout of its own, and who is to
be called. Handlers are told apart by a tag. Beyond being called, a handler may publish: the one for
the response passes on what it got, and the one for the expiry has a document of its own.
-/

/-- Who is called when a request expires. -/
inductive ExpiryHandler where
  | absent
  | silent
  | publishing (topic : String) (document : Json)
  deriving DecidableEq

/-- A handler that is wanted and does no more than be called. -/
instance : Coe Bool ExpiryHandler where
  coe wanted := if wanted then .silent else .absent

structure Inquiry where
  tag : Nat
  keys : List String
  timeout : Option Duration
  expiry : ExpiryHandler
  /-- The topic on which the response handler publishes what it got, if it does. -/
  forwardTo : Option String
  deriving DecidableEq

namespace Inquiry

def hasExpiryHandler (inquiry : Inquiry) : Bool :=
  match inquiry.expiry with
  | .absent => false
  | .silent | .publishing _ _ => true

def text (inquiry : Inquiry) : String :=
  "AttributeRequestCallback \x7b keys: " ++ Text.quotedList inquiry.keys ++
    ", timeout: " ++ Text.optional (inquiry.timeout.map Duration.text) ++
    ", on_timeout: " ++ (if inquiry.hasExpiryHandler then "true" else "false") ++ " \x7d"

variable {σ : Type} [Channel σ]

def answer (inquiry : Inquiry) (value : Json) : Exchange σ Unit := do
  Exchange.emit (.answered inquiry.tag value)
  match inquiry.forwardTo with
  | none => return ()
  | some topic =>
    let _ ← Exchange.forward (.send topic value)
    return ()

def lapse (inquiry : Inquiry) : Exchange σ Bool :=
  match inquiry.expiry with
  | .absent => return false
  | .silent => do
    Exchange.emit (.lapsed inquiry.tag)
    return true
  | .publishing topic document => do
    Exchange.emit (.lapsed inquiry.tag)
    let _ ← Exchange.forward (.send topic document)
    return true

end Inquiry

/-!
## Open requests

A request that waits for its answer: the id it is known by, the member of the answer it wants, its
timer, and the inquiry it was made for.
-/

inductive Standing where
  | waiting
  | answered
  | lapsed
  deriving DecidableEq, Repr

structure OpenRequest where
  id : RequestId
  member : Option String
  timer : Timer
  inquiry : Inquiry
  standing : Standing
  deriving DecidableEq

namespace OpenRequest

def start (id : RequestId) (member : Option String) (timeout : Option Duration)
    (inquiry : Inquiry) (now : Instant) : OpenRequest :=
  ⟨id, member, (Timer.new timeout).start now, inquiry, .waiting⟩

def isDue (request : OpenRequest) (now : Instant) : Bool :=
  request.timer.isDue now

variable {σ : Type} [Channel σ]

def answer (request : OpenRequest) (value : Json) : Exchange σ OpenRequest := do
  request.inquiry.answer value
  return { request with timer := request.timer.stop, standing := .answered }

def lapse (request : OpenRequest) : Exchange σ (Bool × OpenRequest) := do
  let handled ← request.inquiry.lapse
  return (handled, { request with timer := request.timer.stop, standing := .lapsed })

end OpenRequest

/-!
## Outstanding requests

The requests of one inquirer that still wait, in the order in which they were made. No id is held
twice, and a collection with a limit never holds more requests than that.
-/

inductive Capacity where
  | unlimited
  | atMost (limit : Nat)
  deriving DecidableEq, Repr

structure Outstanding where
  capacity : Capacity
  requests : List OpenRequest
  deriving DecidableEq

namespace Outstanding

def new (capacity : Capacity) : Outstanding :=
  ⟨capacity, []⟩

def size (outstanding : Outstanding) : Nat :=
  outstanding.requests.length

def isEmpty (outstanding : Outstanding) : Bool :=
  outstanding.requests.isEmpty

def ids (outstanding : Outstanding) : List RequestId :=
  outstanding.requests.map (·.id)

def contains (outstanding : Outstanding) (id : RequestId) : Bool :=
  outstanding.requests.any (·.id = id)

def isFull (outstanding : Outstanding) : Bool :=
  match outstanding.capacity with
  | .unlimited => false
  | .atMost limit => limit ≤ outstanding.size

def checkRoom (outstanding : Outstanding) : Except RequestFault Unit :=
  match outstanding.capacity with
  | .unlimited => .ok ()
  | .atMost limit =>
    if limit ≤ outstanding.size then .error (.noRoom limit) else .ok ()

/-- Adds a request at the end; room is asked for before the id. -/
def insert (outstanding : Outstanding) (request : OpenRequest) :
    Except RequestFault Outstanding :=
  match outstanding.checkRoom with
  | .error fault => .error fault
  | .ok () =>
    if outstanding.contains request.id then .error (.invalid (.alreadyWaiting request.id))
    else .ok { outstanding with requests := outstanding.requests ++ [request] }

/-- The request of that id, and what is left without it. -/
def take? (outstanding : Outstanding) (id : RequestId) : Option (OpenRequest × Outstanding) :=
  (outstanding.requests.find? (·.id = id)).map fun request =>
    (request, { outstanding with requests := outstanding.requests.eraseP (·.id = id) })

/-- The requests whose deadline has come, and what is left without them. -/
def takeDue (outstanding : Outstanding) (now : Instant) : List OpenRequest × Outstanding :=
  (outstanding.requests.filter (·.isDue now),
    { outstanding with requests := outstanding.requests.filter (!·.isDue now) })

def clear (outstanding : Outstanding) : Outstanding :=
  { outstanding with requests := [] }

@[simp] theorem requests_new (capacity : Capacity) : (new capacity).requests = [] := rfl

@[simp] theorem capacity_new (capacity : Capacity) : (new capacity).capacity = capacity := rfl

theorem contains_iff_mem_ids (outstanding : Outstanding) (id : RequestId) :
    outstanding.contains id = true ↔ id ∈ outstanding.ids := by
  simp [contains, ids]

theorem requests_of_insert {outstanding after : Outstanding} {request : OpenRequest}
    (h : outstanding.insert request = .ok after) :
    after.requests = outstanding.requests ++ [request] := by
  unfold insert at h
  split at h
  · cases h
  · split at h
    · cases h
    · cases h
      rfl

@[simp] theorem requests_clear (outstanding : Outstanding) : outstanding.clear.requests = [] := rfl

@[simp] theorem capacity_clear (outstanding : Outstanding) :
    outstanding.clear.capacity = outstanding.capacity := rfl

end Outstanding

end AttributeExchange
