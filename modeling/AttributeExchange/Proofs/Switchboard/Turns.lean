import AttributeExchange.Proofs.Inquirer.Ticks
import AttributeExchange.Proofs.Switchboard.Delivery

/-!
# Tasks for every handler

A poll and the tasks that follow the connection go to every handler once, in the order of
registration. Each has its turn whatever the others said before it.
-/

namespace AttributeExchange

/-- Whether a task is one that every handler is handed, rather than a message or a start. -/
def HandlerTask.isForAll : HandlerTask → Bool
  | .poll _ | .disconnect | .reconnect => true
  | .takeBytes _ _ | .takeDocument _ _ | .start => false

def Handler.isInquirer (index : Nat) : Handler → Bool
  | .inquirer other => other = index
  | .component _ => false

theorem Handler.any_isInquirer_iff {index : Nat} {handlers : List Handler} :
    handlers.any (isInquirer index) = true ↔ .inquirer index ∈ handlers := by
  rw [List.any_eq_true]
  constructor
  · rintro ⟨handler, hmem, hindex⟩
    cases handler with
    | inquirer other => exact of_decide_eq_true hindex ▸ hmem
    | component handler => cases hindex
  · exact fun hmem => ⟨.inquirer index, hmem, decide_eq_true rfl⟩

instance (index : Nat) (handlers : List Handler) : Decidable (.inquirer index ∈ handlers) :=
  decidable_of_iff _ Handler.any_isInquirer_iff

open Inquirer

/-- What an inquirer comes to by a task that every handler is handed. -/
def Inquirer.afterTurn (task : HandlerTask) (q : Inquirer) : Inquirer :=
  match task with
  | .poll now => waitingFor q.settings (q.outstanding.requests.filter (!·.isDue now))
  | .disconnect | .reconnect => new q.settings
  | .takeBytes _ _ | .takeDocument _ _ | .start => q

/-- That these are deeds of an inquirer that retires what is due: the expiry handlers in order, and
the release of the filter if something went and nothing is left. -/
def Inquirer.RetiresWith (q : Inquirer) (now : Instant) (deeds : List Event) : Prop :=
  let due := q.outstanding.requests.filter (·.isDue now)
  let rest := q.outstanding.requests.filter (!·.isDue now)
  ∃ lapsed accepted, Lapsing due lapsed ∧ deeds = lapsed ++
    if due ≠ [] ∧ rest = [] then [.called (.unsubscribe Topic.responseFilter) accepted] else []

namespace Switchboard

def afterTurns (task : HandlerTask) (handlers : List Handler) (inquirers : List Inquirer) :
    List Inquirer :=
  inquirers.mapIdx fun index q => if .inquirer index ∈ handlers then q.afterTurn task else q

structure Turn where
  agreed : Bool
  deeds : List Event

/-- What the turn of a handler at a position may be when it finds these inquirers. -/
inductive TakesTurn (inquirers : List Inquirer) (position : Nat) :
    HandlerTask → Handler → Turn → Prop where
  | asked (task : HandlerTask) (foreign : ForeignHandler) :
      TakesTurn inquirers position task (.component foreign)
        ⟨foreign.reply task, [.asked position task]⟩
  | polled (now : Instant) {index : Nat} {q : Inquirer} (hq : inquirers[index]? = some q)
      {deeds : List Event} (hdeeds : q.RetiresWith now deeds) :
      TakesTurn inquirers position (.poll now) (.inquirer index) ⟨true, deeds⟩
  | disconnected (index : Nat) (accepted : Bool) :
      TakesTurn inquirers position .disconnect (.inquirer index)
        ⟨accepted, [.called (.unsubscribe Topic.responseFilter) accepted]⟩
  | reconnected (index : Nat) (accepted : Bool) :
      TakesTurn inquirers position .reconnect (.inquirer index)
        ⟨accepted, [.called (.unsubscribe Topic.responseFilter) accepted]⟩

end Switchboard

namespace Inquirer

theorem afterTurn_afterTurn (task : HandlerTask) (q : Inquirer) :
    (q.afterTurn task).afterTurn task = q.afterTurn task := by
  cases task with
  | poll now => simp [afterTurn, waitingFor, List.filter_filter]
  | disconnect => rfl
  | reconnect => rfl
  | takeBytes topic payload => rfl
  | takeDocument topic document => rfl
  | start => rfl

def IsWaiting (q : Inquirer) : Prop :=
  ∃ settings requests, q = waitingFor settings requests

theorem Reachable.isWaiting {settings : Settings} {q : Inquirer} (h : Reachable settings q) :
    q.IsWaiting :=
  ⟨settings, q.outstanding.requests, h.eq_waitingFor⟩

theorem IsWaiting.afterTurn {q : Inquirer} (hq : q.IsWaiting) (task : HandlerTask) :
    (q.afterTurn task).IsWaiting := by
  cases task with
  | poll now => exact ⟨q.settings, _, rfl⟩
  | disconnect => exact ⟨q.settings, [], rfl⟩
  | reconnect => exact ⟨q.settings, [], rfl⟩
  | takeBytes topic payload => exact hq
  | takeDocument topic document => exact hq
  | start => exact hq

end Inquirer

namespace Switchboard

theorem getElem?_afterTurns (task : HandlerTask) (handlers : List Handler)
    (inquirers : List Inquirer) (index : Nat) :
    (afterTurns task handlers inquirers)[index]? =
      inquirers[index]?.map fun q =>
        if .inquirer index ∈ handlers then q.afterTurn task else q := by
  rw [afterTurns, List.getElem?_mapIdx]

@[simp] theorem length_afterTurns (task : HandlerTask) (handlers : List Handler)
    (inquirers : List Inquirer) :
    (afterTurns task handlers inquirers).length = inquirers.length := by
  simp [afterTurns]

theorem afterTurns_eq_self (task : HandlerTask) {handlers : List Handler}
    (h : ∀ index, .inquirer index ∉ handlers) (inquirers : List Inquirer) :
    afterTurns task handlers inquirers = inquirers := by
  apply List.ext_getElem?
  intro index
  rw [getElem?_afterTurns]
  simp [h index]

/-- A second turn of one inquirer finds nothing left to do. -/
theorem afterTurns_cons (task : HandlerTask) (handler : Handler) (handlers : List Handler)
    (inquirers : List Inquirer) :
    afterTurns task (handler :: handlers) inquirers =
      afterTurns task handlers (afterTurns task [handler] inquirers) := by
  apply List.ext_getElem?
  intro index
  rw [getElem?_afterTurns, getElem?_afterTurns, getElem?_afterTurns, Option.map_map]
  congr 1
  funext q
  by_cases hfirst : .inquirer index = handler
  · by_cases hlater : .inquirer index ∈ handlers
    · simp [← hfirst, hlater, q.afterTurn_afterTurn]
    · simp [← hfirst, hlater]
  · simp [hfirst]

theorem afterTurns_inquirer (task : HandlerTask) {index : Nat} {inquirers : List Inquirer}
    {q : Inquirer} (hq : inquirers[index]? = some q) :
    afterTurns task [.inquirer index] inquirers = inquirers.set index (q.afterTurn task) := by
  apply List.ext_getElem?
  intro other
  rw [getElem?_afterTurns, List.getElem?_set]
  by_cases hother : index = other
  · subst hother
    obtain ⟨hlength, hthere⟩ := List.getElem?_eq_some_iff.mp hq
    simp [hlength, hthere]
  · have hmem : (.inquirer other : Handler) ∉ [.inquirer index] := by
      intro hmem
      cases List.mem_singleton.mp hmem
      exact hother rfl
    simp [hother, hmem]

/-! ## One turn -/

variable {σ : Type} [Channel σ] {task : HandlerTask} {inquirers : List Inquirer}

theorem isWaiting_of_mem_afterTurns (hwaiting : ∀ q ∈ inquirers, IsWaiting q)
    (task : HandlerTask) (handlers : List Handler) :
    ∀ q ∈ afterTurns task handlers inquirers, IsWaiting q := by
  intro q hq
  obtain ⟨index, hindex, rfl⟩ := List.mem_mapIdx.mp hq
  have hbefore := hwaiting _ (List.getElem_mem hindex)
  split
  · exact hbefore.afterTurn task
  · exact hbefore

theorem takesTurn_taskOfInquirer (htask : task.isForAll = true) {index : Nat} {q : Inquirer}
    (hq : inquirers[index]? = some q) (hwaiting : IsWaiting q) (position : Nat) (peers : σ) :
    let outcome := (Handler.taskOfInquirer q task).run peers
    outcome.value.2 = q.afterTurn task ∧
      TakesTurn inquirers position task (.inquirer index)
        ⟨outcome.value.1, Event.deeds outcome.events⟩ := by
  obtain ⟨settings, requests, rfl⟩ := hwaiting
  -- A lost connection and a new one are the same to an inquirer.
  have hcancel := congrArg (·.run peers) (deeds_cancelAll (σ := σ) settings requests)
  simp only [Exchange.run_deeds, Exchange.run_bind, Exchange.run_call, Exchange.run_pure,
    List.append_nil, Outcome.mk.injEq, Prod.ext_iff] at hcancel
  obtain ⟨⟨haccepted, hdropped⟩, -, hdeeds⟩ := hcancel
  cases task with
  | poll now =>
      have hretired := retiredAt_retire settings requests now peers
      simp only [Handler.taskOfInquirer, Exchange.run_bind, Exchange.run_pure, List.append_nil]
      exact ⟨hretired.inquirer, .polled now hq hretired.deeds⟩
  | disconnect =>
      refine ⟨hdropped, ?_⟩
      simp only [Handler.taskOfInquirer, hdeeds, haccepted]
      exact .disconnected index _
  | reconnect =>
      refine ⟨hdropped, ?_⟩
      simp only [Handler.taskOfInquirer, reconnect, hdeeds, haccepted]
      exact .reconnected index _
  | takeBytes topic payload => cases htask
  | takeDocument topic document => cases htask
  | start => cases htask

theorem takesTurn_carryOut (htask : task.isForAll = true)
    (hwaiting : ∀ q ∈ inquirers, IsWaiting q) {handler : Handler}
    (hthere : ∀ index, handler = .inquirer index → index < inquirers.length) (position : Nat)
    (peers : σ) :
    let outcome := (handler.carryOut task inquirers position).run peers
    outcome.value.2 = afterTurns task [handler] inquirers ∧
      TakesTurn inquirers position task handler
        ⟨outcome.value.1, Event.deeds outcome.events⟩ := by
  cases handler with
  | component foreign =>
      have hsame : afterTurns task [.component foreign] inquirers = inquirers :=
        afterTurns_eq_self task (by simp) inquirers
      simp only [Handler.carryOut, Exchange.run_bind, Exchange.run_emit, Exchange.run_pure]
      exact ⟨hsame.symm, .asked task foreign⟩
  | inquirer index =>
      have hindex := hthere index rfl
      have hq := List.getElem?_eq_getElem hindex
      obtain ⟨hafter, hturn⟩ := takesTurn_taskOfInquirer htask hq
        (hwaiting _ (List.getElem_mem hindex)) position peers
      simp only [Handler.carryOut, Exchange.atIndex, hq, Exchange.run_bind, Exchange.run_pure,
        List.append_nil, Option.getD_some]
      rw [afterTurns_inquirer task hq, hafter]
      exact ⟨rfl, hturn⟩

/-! ## All turns -/

/-- That handlers from a position on took these turns, one after the other. -/
structure InTurn (task : HandlerTask) (position : Nat) (handlers : List Handler)
    (inquirers : List Inquirer) (turns : List Turn)
    (outcome : Outcome σ (Bool × List Inquirer)) : Prop where
  length : turns.length = handlers.length
  each : ∀ (place : Nat) (handler : Handler) (turn : Turn), handlers[place]? = some handler →
    turns[place]? = some turn →
    TakesTurn (afterTurns task (handlers.take place) inquirers) (position + place) task handler turn
  deeds : Event.deeds outcome.events = turns.flatMap (·.deeds)
  agreed : outcome.value.1 = turns.all (·.agreed)
  inquirers : outcome.value.2 = afterTurns task handlers inquirers

theorem InTurn.nil (task : HandlerTask) (position : Nat) (inquirers : List Inquirer) (peers : σ) :
    InTurn task position [] inquirers []
      ((carryOutFrom task position [] inquirers : Exchange σ _).run peers) where
  length := rfl
  each place handler turn hhandler := by cases hhandler
  deeds := rfl
  agreed := rfl
  inquirers := (afterTurns_eq_self task (by simp) inquirers).symm

/-- The handlers that follow have their turns whatever the first one said. -/
theorem exists_inTurn_carryOutFrom (htask : task.isForAll = true) (position : Nat)
    {handlers : List Handler} (hwaiting : ∀ q ∈ inquirers, IsWaiting q)
    (hthere : ∀ index, .inquirer index ∈ handlers → index < inquirers.length) (peers : σ) :
    ∃ turns, InTurn task position handlers inquirers turns
      ((carryOutFrom task position handlers inquirers).run peers) := by
  induction handlers generalizing position inquirers peers with
  | nil => exact ⟨[], .nil task position inquirers peers⟩
  | cons handler handlers ih =>
      obtain ⟨hafter, hturn⟩ := takesTurn_carryOut htask hwaiting
        (fun index hindex => hthere index (hindex ▸ List.mem_cons_self)) position peers
      simp only [carryOutFrom, Exchange.run_bind, Exchange.run_pure, List.append_nil]
      generalize (handler.carryOut task inquirers position).run peers = first at *
      have hwaitingAfter := isWaiting_of_mem_afterTurns hwaiting task [handler]
      have hthereAfter (index : Nat) (hindex : .inquirer index ∈ handlers) :
          index < (afterTurns task [handler] inquirers).length := by
        rw [length_afterTurns]
        exact hthere index (List.mem_cons_of_mem _ hindex)
      obtain ⟨turns, hrest⟩ := ih (position + 1) hwaitingAfter hthereAfter first.peers
      rw [← hafter] at hrest
      refine ⟨⟨first.value.1, Event.deeds first.events⟩ :: turns, ?_⟩
      constructor
      · rw [List.length_cons, hrest.length, List.length_cons]
      · intro place other turn hother hturnAt
        cases place with
        | zero =>
            obtain rfl := Option.some.inj hother
            obtain rfl := Option.some.inj hturnAt
            rw [List.take_zero, afterTurns_eq_self task (by simp)]
            exact hturn
        | succ place =>
            have hlater := hrest.each place other turn hother hturnAt
            rw [List.take_succ_cons, afterTurns_cons, ← hafter, Nat.add_comm place 1,
              ← Nat.add_assoc]
            exact hlater
      · rw [Event.deeds_append, hrest.deeds, List.flatMap_cons]
      · rw [hrest.agreed, List.all_cons]
      · rw [hrest.inquirers, hafter, ← afterTurns_cons]

/-! ## Messages and tasks -/

/-- A message touches the first handler that claims its topic and nobody else, and a task for all of
them gives each its turn. -/
theorem message_to_first_task_to_all {switchboard : Switchboard} {inquirers : List Inquirer}
    (hreachable : ∀ q ∈ inquirers, ∃ settings, Reachable settings q)
    (hthere : ∀ index, .inquirer index ∈ switchboard.handlers → index < inquirers.length)
    (peers : σ) :
    (∀ (topic : String) (payload : Bytes),
      let outcome := (switchboard.deliver topic payload inquirers).run peers
      (outcome.value.1 = .ok false ↔
        ∀ handler ∈ switchboard.handlers, handler.claims topic = false) ∧
      (outcome.value.1 = .ok false →
        outcome = ⟨(.ok false, inquirers), peers, [.noted (.unclaimed topic)]⟩) ∧
      ∀ (handler : Handler) (position : Nat), switchboard.ClaimsFirst topic handler position →
        (handler.form = .bytes →
          outcome = ⟨(.ok true, inquirers), peers, [.asked position (.takeBytes topic payload)]⟩) ∧
        (handler.form = .document → ∀ cause, Json.read payload = .error cause →
          outcome = ⟨(.error (.undecodable topic cause), inquirers), peers,
            [.noted (.undecodable topic)]⟩) ∧
        (handler.form = .document → ∀ document, Json.read payload = .ok document →
          (∀ foreign, handler = .component foreign →
            outcome = ⟨(.ok true, inquirers), peers,
              [.asked position (.takeDocument topic document)]⟩) ∧
          ∀ index, handler = .inquirer index → ∃ q, inquirers[index]? = some q ∧
            let received := (q.receive topic document).run peers
            outcome = ⟨(.ok true, inquirers.set index received.value.2), received.peers,
              received.events⟩)) ∧
    ∀ task : HandlerTask, task.isForAll = true →
      ∃ turns, InTurn task 0 switchboard.handlers inquirers turns
        ((switchboard.broadcast task inquirers).run peers) := by
  constructor
  · intro topic payload outcome
    have hfalse : outcome.value.1 = .ok false ↔
        ∀ handler ∈ switchboard.handlers, handler.claims topic = false :=
      deliver_eq_ok_false_iff peers
    refine ⟨hfalse, fun hrefused => ?_, fun handler position hfirst => ?_⟩
    · exact run_deliver_of_unclaimed (claimant?_eq_none_iff.mpr (hfalse.mp hrefused)) peers
    · have hclaims := claimant?_eq_some_iff.mpr hfirst
      refine ⟨fun hform => ?_, fun hform cause hread => ?_, fun hform document hread => ⟨?_, ?_⟩⟩
      · cases handler with
        | inquirer index => cases hform
        | component foreign =>
            have htask : taskFor topic payload foreign.form = .ok (.takeBytes topic payload) := by
              rw [show foreign.form = .bytes from hform, taskFor]
            exact run_deliver_of_foreign hclaims htask peers
      · exact run_deliver_of_undecodable hclaims hform hread peers
      · rintro foreign rfl
        have htask : taskFor topic payload foreign.form = .ok (.takeDocument topic document) := by
          rw [show foreign.form = .document from hform, taskFor, hread]
        exact run_deliver_of_foreign hclaims htask peers
      · rintro index rfl
        have hindex := hthere index (List.mem_of_getElem? hfirst.there)
        have hq := List.getElem?_eq_getElem hindex
        exact ⟨_, hq, run_deliver_of_inquirer hclaims hread hq peers⟩
  · intro task htask
    have hwaiting (q : Inquirer) (hq : q ∈ inquirers) : IsWaiting q :=
      (hreachable q hq).elim fun _ hreached => hreached.isWaiting
    exact exists_inTurn_carryOutFrom htask 0 hwaiting hthere peers

/-- Handlers with overlapping claims; the first and the last do not follow a lost connection. -/
def overlapping : Switchboard :=
  ⟨[.foreign ⟨.bytes, "v1/devices/me/rpc/", false, true⟩, .inquirer 0,
    .foreign ⟨.document, "v1/devices/me/", false, true⟩]⟩

/-- An unreadable answer leaves the request open, and the first handler's refusal to follow a lost
connection keeps nobody from dropping what is open. -/
theorem message_to_first_task_to_all_overlapping :
    let peers : Peers Recorder Script := ⟨.new, ⟨[]⟩⟩
    let delivered := (overlapping.deliver (Topic.response 7) [] [full]).run peers
    let dropped := (overlapping.broadcast .disconnect [full]).run peers
    (∀ q ∈ [full], ∃ settings, Reachable settings q) ∧
      (∀ index, .inquirer index ∈ overlapping.handlers → index < [full].length) ∧
      overlapping.ClaimsFirst (Topic.response 7) (.inquirer 0) 1 ∧ full.waitingIds = [7] ∧
      delivered = ⟨(.error (.undecodable (Topic.response 7) .endInValue), [full]), peers,
        [.noted (.undecodable (Topic.response 7))]⟩ ∧
      dropped.value.1 = false ∧ dropped.value.2 = [new (.atMost 1)] ∧
      ∃ turns, InTurn .disconnect 0 overlapping.handlers [full] turns dropped := by
  intro peers delivered dropped
  have hreachable : ∀ q ∈ [full], ∃ settings, Reachable settings q := by
    intro q hq
    rw [List.mem_singleton.mp hq]
    exact ⟨.atMost 1, reachable_full⟩
  have hthere : ∀ index, .inquirer index ∈ overlapping.handlers → index < [full].length := by
    intro index hindex
    simp only [overlapping, Handler.foreign, List.mem_cons, reduceCtorEq, Handler.inquirer.injEq,
      List.not_mem_nil, or_false, false_or] at hindex
    simp [hindex]
  have hfirst : overlapping.ClaimsFirst (Topic.response 7) (.inquirer 0) 1 :=
    claimsFirst_append (List.forall_mem_singleton.mpr (by decide +kernel)) (by decide +kernel) _
  obtain ⟨hmessage, htask⟩ := message_to_first_task_to_all hreachable hthere peers
  obtain ⟨-, hundecodable, -⟩ :=
    (hmessage (Topic.response 7) []).2.2 (.inquirer 0) 1 hfirst
  exact ⟨hreachable, hthere, hfirst, rfl, hundecodable rfl .endInValue rfl, rfl, rfl,
    htask .disconnect rfl⟩

end Switchboard

end AttributeExchange
