import AttributeExchange.Proofs.Inquirer.Undisturbed
import AttributeExchange.Proofs.Switchboard.Delivery
import AttributeExchange.Switchboard

/-!
# Offices

Inquirers and a switchboard at work with any collaborators. A request that one of the inquirers
waits for is kept through everything that happens there and spares it, and so is the claim of that
inquirer to a topic.
-/

namespace AttributeExchange

open Inquirer

/-! ## Requests kept in a list of inquirers -/

def HandlerTask.Spares (id : RequestId) (deadline? : Option Instant) : HandlerTask → Prop
  | .takeDocument topic document => (Operation.receive topic document).Spares id deadline? .start
  | .poll now => Operation.retire.Spares id deadline? now
  | .disconnect | .reconnect => False
  | .takeBytes _ _ | .start => True

theorem HandlerTask.spares_of_taskFor {id : RequestId} {deadline? : Option Instant} {topic : String}
    {payload : Bytes} {form : PayloadForm} {task : HandlerTask}
    (htask : Switchboard.taskFor topic payload form = .ok task)
    (hother : Topic.parseId? Topic.responseBase topic = some id →
      ∃ cause, Json.read payload = .error cause) : task.Spares id deadline? := by
  cases form with
  | bytes =>
      cases htask
      trivial
  | document =>
      cases hread : Json.read payload with
      | error cause => simp [Switchboard.taskFor, hread] at htask
      | ok document =>
          obtain rfl : .takeDocument topic document = task := by
            simpa [Switchboard.taskFor, hread] using htask
          refine ⟨fun hcloses => ?_, by simp [Operation.tick?]⟩
          obtain ⟨cause, hcause⟩ := hother hcloses
          rw [hread] at hcause
          cases hcause

/-- A list of inquirers of which the one at this place waits for a request. -/
def KeptAt (settings : Settings) (request : OpenRequest) (index : Nat)
    (inquirers : List Inquirer) : Prop :=
  ∃ q, inquirers[index]? = some q ∧ q.Keeps settings request

variable {σ : Type} {settings : Settings} {request : OpenRequest}

theorem Inquirer.Keeps.taskOfInquirer [Channel σ] [IdSource σ] {q : Inquirer}
    (h : q.Keeps settings request) {task : HandlerTask}
    (hspares : task.Spares request.id request.timer.deadline) (peers : σ) :
    ((Handler.taskOfInquirer q task).run peers).value.2.Keeps settings request := by
  cases task with
  | takeBytes => exact h
  | takeDocument topic document =>
      simpa [Handler.taskOfInquirer, Inquirer.perform] using h.perform .start hspares peers
  | start => exact h
  | poll now => simpa [Handler.taskOfInquirer, Inquirer.perform] using h.perform now hspares peers
  | disconnect => exact hspares.elim
  | reconnect => exact hspares.elim

namespace KeptAt

variable {index : Nat} {inquirers : List Inquirer}

theorem set {other : Nat} {q changed : Inquirer} (h : KeptAt settings request index inquirers)
    (hq : inquirers[other]? = some q)
    (hchanged : other = index → q.Keeps settings request → changed.Keeps settings request) :
    KeptAt settings request index (inquirers.set other changed) := by
  obtain ⟨kept, hkept, hkeeps⟩ := h
  rcases eq_or_ne other index with rfl | hne
  · obtain rfl : kept = q := Option.some.inj (hkept.symm.trans hq)
    exact ⟨changed, List.getElem?_set_self (List.getElem?_eq_some_iff.mp hq).1,
      hchanged rfl hkeeps⟩
  · exact ⟨kept, by rw [List.getElem?_set_ne hne, hkept], hkeeps⟩

theorem atIndex {α : Type} (h : KeptAt settings request index inquirers) (other : Nat)
    {step : Inquirer → Exchange σ (α × Inquirer)}
    (hstep : other = index → ∀ q, q.Keeps settings request → ∀ peers,
      ((step q).run peers).value.2.Keeps settings request) (peers : σ) :
    KeptAt settings request index ((Exchange.atIndex other step inquirers).run peers).value.2 := by
  cases hq : inquirers[other]? with
  | none => simpa [Exchange.atIndex, hq] using h
  | some q =>
      have hset := h.set hq fun hindex hkeeps => hstep hindex q hkeeps peers
      simpa [Exchange.atIndex, hq] using hset

variable [Channel σ] [IdSource σ]

theorem carryOut (h : KeptAt settings request index inquirers) {task : HandlerTask}
    (hspares : task.Spares request.id request.timer.deadline) (position : Nat)
    (handler : Handler) (peers : σ) :
    KeptAt settings request index
      ((handler.carryOut task inquirers position).run peers).value.2 := by
  cases handler with
  | inquirer other =>
      have hstep := h.atIndex other (fun _ q hkeeps => hkeeps.taskOfInquirer hspares) peers
      simpa [Handler.carryOut] using hstep
  | component handler => exact h

theorem carryOutFrom (h : KeptAt settings request index inquirers) {task : HandlerTask}
    (hspares : task.Spares request.id request.timer.deadline) (position : Nat)
    (handlers : List Handler) (peers : σ) :
    KeptAt settings request index
      ((Switchboard.carryOutFrom task position handlers inquirers).run peers).value.2 := by
  induction handlers generalizing inquirers position peers with
  | nil => exact h
  | cons handler handlers ih =>
      exact ih (h.carryOut hspares position handler peers) (position + 1) _

theorem deliver (h : KeptAt settings request index inquirers) (switchboard : Switchboard)
    {topic : String} {payload : Bytes}
    (hother : Topic.parseId? Topic.responseBase topic = some request.id →
      ∃ cause, Json.read payload = .error cause) (peers : σ) :
    KeptAt settings request index
      ((switchboard.deliver topic payload inquirers).run peers).value.2 := by
  unfold Switchboard.deliver
  cases switchboard.claimant? topic with
  | none => exact h
  | some claimant =>
      obtain ⟨handler, position⟩ := claimant
      cases htask : Switchboard.taskFor topic payload handler.form with
      | error fault => simpa [htask] using h
      | ok task =>
          have hspares : task.Spares request.id request.timer.deadline :=
            HandlerTask.spares_of_taskFor htask hother
          have hkept := h.carryOut hspares position handler peers
          simpa [htask] using hkept

end KeptAt

/-! ## Offices -/

/-- Inquirers and the switchboard that hands messages to them. -/
structure Office where
  inquirers : List Inquirer
  switchboard : Switchboard

namespace Office

inductive Occasion (σ : Type) where
  | operate (index : Nat) (now : Instant) (operation : Operation)
  | carryOut (index : Nat) (task : HandlerTask)
  | deliver (topic : String) (payload : Bytes)
  | broadcast (task : HandlerTask)
  | register (handler : Handler)
  | others (change : σ → σ)

/-- Whether an occasion spares the request with this id and deadline of the inquirer at `index`:
nobody answers it, nothing drops all requests, and nothing retires what is due by its deadline. -/
def Occasion.Spares (index : Nat) (id : RequestId) (deadline? : Option Instant) :
    Occasion σ → Prop
  | .operate other now operation => other = index → operation.Spares id deadline? now
  | .carryOut other task => other = index → task.Spares id deadline?
  | .deliver topic payload =>
    Topic.parseId? Topic.responseBase topic = some id → ∃ cause, Json.read payload = .error cause
  | .broadcast task => task.Spares id deadline?
  | .register _ | .others _ => True

variable [Channel σ] [IdSource σ]

def occur (office : Office) : Occasion σ → Exchange σ Office
  | .operate index now operation => do
    let (_, inquirers) ← Exchange.atIndex index (·.perform now operation) office.inquirers
    return { office with inquirers }
  | .carryOut index task => do
    let (_, inquirers) ← (Handler.inquirer index).carryOut task office.inquirers index
    return { office with inquirers }
  | .deliver topic payload => do
    let (_, inquirers) ← office.switchboard.deliver topic payload office.inquirers
    return { office with inquirers }
  | .broadcast task => do
    let (_, inquirers) ← office.switchboard.broadcast task office.inquirers
    return { office with inquirers }
  | .register handler => do
    let (switchboard, inquirers) ← office.switchboard.register handler office.inquirers
    return ⟨inquirers, switchboard⟩
  | .others change => fun peers => ⟨office, change peers, []⟩

def occurAll (office : Office) : List (Occasion σ) → Exchange σ Office
  | [] => return office
  | occasion :: occasions => do
    let office ← office.occur occasion
    office.occurAll occasions

variable {office : Office} {index : Nat}

theorem keptAt_occur (h : KeptAt settings request index office.inquirers) {occasion : Occasion σ}
    (hspares : occasion.Spares index request.id request.timer.deadline) (peers : σ) :
    KeptAt settings request index ((office.occur occasion).run peers).value.inquirers := by
  cases occasion with
  | operate other now operation =>
      exact h.atIndex other (fun hindex q hkeeps => hkeeps.perform now (hspares hindex)) peers
  | carryOut other task =>
      have hstep := h.atIndex other
        (fun hindex q hkeeps => hkeeps.taskOfInquirer (hspares hindex)) peers
      simpa [occur, Handler.carryOut] using hstep
  | deliver topic payload => exact h.deliver office.switchboard hspares peers
  | broadcast task => exact h.carryOutFrom hspares 0 office.switchboard.handlers peers
  | register handler =>
      have hstart : HandlerTask.start.Spares request.id request.timer.deadline := trivial
      exact h.carryOut hstart _ handler peers
  | others change => exact h

theorem claimant?_occur {topic : String} {claimant : Handler × Nat}
    (h : office.switchboard.claimant? topic = some claimant) (occasion : Occasion σ) (peers : σ) :
    ((office.occur occasion).run peers).value.switchboard.claimant? topic = some claimant := by
  cases occasion with
  | register handler =>
      -- A new handler stands behind the first claimant.
      rw [Switchboard.claimant?] at h
      simp [occur, Switchboard.register, Switchboard.claimant?, List.zipIdx_append, h]
  | _ => exact h

/-- A request and the claim of its inquirer are kept through occasions that spare the request. -/
theorem kept_occurAll {topic : String} {claimant : Handler × Nat}
    (hkept : KeptAt settings request index office.inquirers)
    (hclaims : office.switchboard.claimant? topic = some claimant) {occasions : List (Occasion σ)}
    (hspares : ∀ occasion ∈ occasions,
      occasion.Spares index request.id request.timer.deadline) (peers : σ) :
    let last := ((office.occurAll occasions).run peers).value
    KeptAt settings request index last.inquirers ∧
      last.switchboard.claimant? topic = some claimant := by
  induction occasions generalizing office peers with
  | nil => exact ⟨hkept, hclaims⟩
  | cons occasion occasions ih =>
      have hfirst := hspares occasion List.mem_cons_self
      exact ih (keptAt_occur hkept hfirst peers) (claimant?_occur hclaims occasion peers)
        (fun other hother => hspares other (List.mem_cons_of_mem _ hother)) _

/-!
## Answers reach their submissions

From the submission to its answer: the id that a submission returned makes the topic on which the
answer comes back, and whatever happens in between, the switchboard hands that answer to the
response handler of this submission and to nobody else.
-/

/-- The way of an answer. A submission of any reachable inquirer was accepted under `id`, and the
inquirer is the first handler that claims the response topic of that id. Then anything happens that
neither answers this request nor drops all of them nor retires due requests at its deadline or
later. After that the request is still waited for, and a payload on its response topic that can be
read is handed over: the response handler of the submission runs once, with the member of the
document that the submission asked for if the document has it and with the whole document
otherwise, no other handler runs, and that request and no other is closed. -/
theorem answer_reaches_submission {settings : Settings} {q : Inquirer}
    (hq : Reachable settings q) (s : Submission) (opened : Instant) (peers : σ) (id : RequestId)
    (member : String) (office : Office) (index position : Nat) (occasions : List (Occasion σ))
    (payload : Bytes) (document : Json) :
    let submitted := (q.submit s opened).run peers
    let deadline? := (s.inquiry.timeout.or settings.timeout).bind opened.add?
    let before := (office.occurAll occasions).run submitted.peers
    let after := (before.value.switchboard.deliver (Topic.response id) payload
      before.value.inquirers).run before.peers
    submitted.value.1 = .ok id → s.responseMember = some member →
    office.inquirers[index]? = some submitted.value.2 →
    office.switchboard.claimant? (Topic.response id) = some (.inquirer index, position) →
    (∀ occasion ∈ occasions, occasion.Spares index id deadline?) →
    Json.read payload = .ok document →
    ∃ waiting answered : Inquirer, before.value.inquirers[index]? = some waiting ∧
      s.opening settings id opened ∈ waiting.outstanding.requests ∧
      after.value.1 = .ok true ∧
      Event.runs after.events =
        [.answered s.inquiry.tag ((document.member? member).getD document)] ∧
      after.value.2 = before.value.inquirers.set index answered ∧
      answered.outstanding.requests = waiting.outstanding.requests.filter (·.id ≠ id) := by
  intro submitted deadline? before after haccepted hmember hoffice hclaims hspares hread
  have hsubmitted : KeptAt settings (s.opening settings id opened) index office.inquirers :=
    ⟨submitted.value.2, hoffice, hq.keeps_opening s opened peers haccepted⟩
  obtain ⟨⟨waiting, hwaiting, hkeeps⟩, hstill⟩ :=
    kept_occurAll hsubmitted hclaims hspares submitted.peers
  have hafter : after = _ :=
    Switchboard.run_deliver_of_inquirer hstill hread hwaiting before.peers
  obtain ⟨hruns, hrequests⟩ := hkeeps.receive document before.peers
  have hwanted : (s.opening settings id opened).wanted document =
      (document.member? member).getD document := by
    simp [OpenRequest.wanted, Submission.opening, hmember, Json.select]
  rw [hwanted] at hruns
  rw [hafter]
  obtain ⟨requests, -, rfl, hmem⟩ := hkeeps
  exact ⟨_, _, hwaiting, hmem, rfl, hruns, rfl, hrequests⟩

/-- What may happen while the answer with the id 7 is on its way, within a second of its submission:
another submission and its answer, an unreadable answer, a message for another handler, a poll. -/
def meanwhile : List (Occasion (Peers Recorder Script)) :=
  [.operate 0 .start (.submit (oneKey 1)), .deliver (Topic.response 8) (utf8 "\x7b\x7d"),
    .deliver (Topic.response 7) [], .deliver "v1/devices/me/rpc/request/1" [],
    .others fun peers => { peers with channel.failing.send := true },
    .broadcast (.poll ⟨.ofMillis 999⟩)]

theorem spares_meanwhile :
    ∀ occasion ∈ meanwhile, occasion.Spares 0 7 (some ⟨.ofSeconds 1⟩) := by
  have hother : Topic.parseId? Topic.responseBase (Topic.response 8) ≠ some 7 := by decide +kernel
  have hforeign : Topic.parseId? Topic.responseBase "v1/devices/me/rpc/request/1" ≠ some 7 := by
    decide +kernel
  have hearly : ¬ (⟨.ofSeconds 1⟩ : Instant) ≤ ⟨.ofMillis 999⟩ := by decide
  have hunreadable : Json.read [] = .error .endInValue := rfl
  simp [meanwhile, Occasion.Spares, HandlerTask.Spares, Operation.Spares, Operation.Closes,
    Operation.tick?, hother, hforeign, hearly, hunreadable]

def accepted : Outcome (Peers Recorder Script) (Except RequestFault RequestId × Inquirer) :=
  ((new (.atMost 2)).submit (oneKey 0) .start).run ⟨.new, ⟨[some 7, some 8]⟩⟩

def afterAccepted : Office :=
  ⟨[accepted.value.2], ⟨[.foreign ⟨.bytes, "v1/devices/me/rpc/", true, true⟩, .inquirer 0]⟩⟩

theorem answer_reaches_submission_null :
    let before := (afterAccepted.occurAll meanwhile).run accepted.peers
    let after := (before.value.switchboard.deliver (Topic.response 7)
      (utf8 "\x7b\"client\":null\x7d") before.value.inquirers).run before.peers
    accepted.value.1 = .ok 7 ∧ after.value.1 = .ok true ∧
      Event.runs after.events = [.answered 0 .null] := by
  have hread : Json.read (utf8 "\x7b\"client\":null\x7d") = .ok (.object [("client", .null)]) := by
    decide +kernel
  have hfirst : afterAccepted.switchboard.ClaimsFirst (Topic.response 7) (.inquirer 0) 1 :=
    Switchboard.claimsFirst_append (List.forall_mem_singleton.mpr (by decide +kernel))
      (by decide +kernel) _
  obtain ⟨waiting, answered, -, -, hvalue, hruns, -⟩ :=
    answer_reaches_submission (.new : Reachable (.atMost 2) _) (oneKey 0) .start
      (⟨.new, ⟨[some 7, some 8]⟩⟩ : Peers Recorder Script) 7 "client" afterAccepted 0 1 meanwhile
      (utf8 "\x7b\"client\":null\x7d") (.object [("client", .null)]) rfl rfl rfl
      (Switchboard.claimant?_eq_some_iff.mpr hfirst) spares_meanwhile hread
  exact ⟨rfl, hvalue, hruns⟩

end Office

end AttributeExchange
