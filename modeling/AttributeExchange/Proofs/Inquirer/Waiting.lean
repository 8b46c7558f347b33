import AttributeExchange.Inquirer
import AttributeExchange.Proofs.Exchange.Deeds

/-!
# Inquirers as lists of open requests

An inquirer that is in order is told by its settings and by the requests that it waits for: its
bound is that of its settings, and it holds the subscription of the response filter exactly while
it waits for something. What the operations do, notices left out, is said here for such inquirers.
-/

namespace AttributeExchange

variable {σ : Type}

@[simp] theorem Subscription.deeds_relinquish [Channel σ] (subscription : Subscription) :
    Exchange.deeds (subscription.relinquish : Exchange σ (Bool × Subscription)) = do
      let accepted ← Exchange.call (.unsubscribe subscription.filter)
      return (accepted, { subscription with held := false }) := by
  simp [Subscription.relinquish]

@[simp] theorem Subscription.deeds_acquire [Channel σ] (subscription : Subscription) :
    Exchange.deeds
        (subscription.acquire : Exchange σ (Except RequestFault Unit × Subscription)) = do
      if ← Exchange.call (.subscribe subscription.filter) then
        return (.ok (), { subscription with held := true })
      else return (.error (.notSubscribed subscription.filter), subscription) := by
  simp [Subscription.acquire]

@[simp] theorem Inquiry.deeds_answer [Channel σ] (inquiry : Inquiry) (value : Json) :
    Exchange.deeds (inquiry.answer value : Exchange σ Unit) = inquiry.answer value := by
  cases hforward : inquiry.forwardTo <;> simp [Inquiry.answer, hforward]

@[simp] theorem Inquiry.deeds_lapse [Channel σ] (inquiry : Inquiry) :
    Exchange.deeds (inquiry.lapse : Exchange σ Bool) = inquiry.lapse := by
  cases hexpiry : inquiry.expiry <;> simp [Inquiry.lapse, hexpiry]

theorem Topic.isResponse_of_parseId? {topic : String} {id : RequestId}
    (h : Topic.parseId? Topic.responseBase topic = some id) : Topic.isResponse topic = true := by
  obtain ⟨digits, hdigits, -⟩ := Option.bind_eq_some_iff.mp h
  simp [Topic.isResponse, hdigits]

def OpenRequest.wanted (request : OpenRequest) (document : Json) : Json :=
  request.member.elim document document.select

namespace Inquirer

/-- An inquirer with these settings that waits for these requests. -/
def waitingFor (settings : Settings) (requests : List OpenRequest) : Inquirer :=
  ⟨settings, ⟨settings.capacity, requests⟩, ⟨Topic.responseFilter, !requests.isEmpty⟩⟩

/-- The same inquirer while it holds its subscription whatever it waits for. -/
abbrev holding (settings : Settings) (requests : List OpenRequest) : Inquirer :=
  ⟨settings, ⟨settings.capacity, requests⟩, ⟨Topic.responseFilter, true⟩⟩

theorem waitingFor_eq_holding (settings : Settings) {requests : List OpenRequest}
    (h : requests ≠ []) : waitingFor settings requests = holding settings requests := by
  simp [waitingFor, h]

@[simp] theorem outstanding_waitingFor (settings : Settings) (requests : List OpenRequest) :
    (waitingFor settings requests).outstanding = ⟨settings.capacity, requests⟩ := rfl

theorem waitingIds_waitingFor (settings : Settings) (requests : List OpenRequest) :
    (waitingFor settings requests).waitingIds = requests.map (·.id) := rfl

theorem new_eq_waitingFor (settings : Settings) : new settings = waitingFor settings [] := rfl

def release [Channel σ] (requests : List OpenRequest) : Exchange σ Unit :=
  if requests = [] then do
    let _ ← Exchange.call (.unsubscribe Topic.responseFilter)
    return ()
  else return ()

def lapses (requests : List OpenRequest) : List Event :=
  (requests.filter (·.inquiry.hasExpiryHandler)).map fun request => .lapsed request.inquiry.tag

/-- The request that an answer on the topic is for. -/
def addressee? (requests : List OpenRequest) (topic : String) : Option OpenRequest :=
  (Topic.parseId? Topic.responseBase topic).bind fun id => requests.find? (·.id = id)

@[simp] theorem deeds_diagnose (settings : Settings) (notice : Notice) :
    Exchange.deeds (diagnose settings notice : Exchange σ Unit) = pure () := by
  simp [diagnose]

variable [Channel σ]

def lapseEach : List OpenRequest → Exchange σ Unit
  | [] => return ()
  | request :: requests => do
    let _ ← request.inquiry.lapse
    lapseEach requests

theorem deeds_lapseAll (requests : List OpenRequest) :
    Exchange.deeds (lapseAll requests : Exchange σ Unit) = lapseEach requests := by
  induction requests with
  | nil => rfl
  | cons request requests ih => simp [lapseAll, lapseEach, OpenRequest.lapse, ih]

theorem deeds_settle (settings : Settings) (requests : List OpenRequest) :
    Exchange.deeds (settle (holding settings requests) : Exchange σ Inquirer) = do
      release requests
      return waitingFor settings requests := by
  cases requests <;> simp [settle, Outstanding.isEmpty, release, waitingFor]

theorem deeds_cancelAll (settings : Settings) (requests : List OpenRequest) :
    Exchange.deeds ((waitingFor settings requests).cancelAll : Exchange σ (Bool × Inquirer)) = do
      let accepted ← Exchange.call (.unsubscribe Topic.responseFilter)
      return (accepted, waitingFor settings []) := by
  simp [cancelAll, waitingFor, Outstanding.clear]

/-- Nothing changes unless a deadline has come; otherwise the expiry handlers of those requests run
in order and the rest is kept. -/
theorem deeds_retire (settings : Settings) (requests : List OpenRequest) (now : Instant) :
    Exchange.deeds
        ((waitingFor settings requests).retire now : Exchange σ (List RequestId × Inquirer)) =
      if requests.filter (·.isDue now) = [] then
        return ([], waitingFor settings requests)
      else do
        lapseEach (requests.filter (·.isDue now))
        release (requests.filter (!·.isDue now))
        return ((requests.filter (·.isDue now)).map (·.id),
          waitingFor settings (requests.filter (!·.isDue now))) := by
  by_cases hdue : requests.filter (·.isDue now) = []
  · simp [retire, Outstanding.takeDue, hdue]
  · have hrequests : requests ≠ [] := by
      rintro rfl
      exact hdue rfl
    simp [retire, Outstanding.takeDue, hdue, waitingFor_eq_holding settings hrequests,
      deeds_lapseAll, deeds_settle]

theorem deeds_receive (settings : Settings) {requests : List OpenRequest}
    (hmembers : ∀ request ∈ requests, request.member.isSome) (topic : String) (document : Json) :
    Exchange.deeds
        ((waitingFor settings requests).receive topic document : Exchange σ (Receipt × Inquirer)) =
      match addressee? requests topic with
      | none => return (.unknown, waitingFor settings requests)
      | some request => do
        request.inquiry.answer (request.wanted document)
        release (requests.eraseP (·.id = request.id))
        return (.answered request.id,
          waitingFor settings (requests.eraseP (·.id = request.id))) := by
  cases hparse : Topic.parseId? Topic.responseBase topic with
  | none =>
      simp [receive, addressee?, hparse]
  | some id =>
      have hresponse : Topic.isResponse topic = true := Topic.isResponse_of_parseId? hparse
      cases hfind : requests.find? (·.id = id) with
      | none => simp [receive, addressee?, Outstanding.take?, hparse, hresponse, hfind]
      | some request =>
          have hmem : request ∈ requests := List.mem_of_find?_eq_some hfind
          have hid : request.id = id := by simpa using List.find?_some hfind
          obtain ⟨name, hname⟩ := Option.isSome_iff_exists.mp (hmembers request hmem)
          have hrequests : requests ≠ [] := List.ne_nil_of_mem hmem
          subst hid
          simp [receive, addressee?, Outstanding.take?, hparse, hresponse, hfind, hname,
            waitingFor_eq_holding settings hrequests, OpenRequest.answer, OpenRequest.wanted,
            deeds_settle]

end Inquirer

end AttributeExchange
