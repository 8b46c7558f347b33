import AttributeExchange.Proofs.CommandLine.Loop
import AttributeExchange.Proofs.Inquirer.Receipt
import AttributeExchange.Proofs.Inquirer.Ticks
import AttributeExchange.Proofs.Json.ReadBack

/-!
# How a run stands after its ticks

What can be told of a run with one request from outside: whether the request is still open, which
lines were printed apart from those of the log, and what its handlers were told. Each half of a
tick, the poll and the delivery, changes this in one way, and the ticks up to any number follow.
-/

namespace AttributeExchange

/-! ## Runs of handlers -/

namespace CommandLine.Progress

theorem lastAnswer?_runs (events : List Event) :
    lastAnswer? (Event.runs events) = lastAnswer? events := by
  rw [lastAnswer?, Event.runs, List.foldl_filter]
  congr 1
  funext last event
  cases event <;> rfl

theorem anyLapsed_runs (events : List Event) :
    anyLapsed (Event.runs events) = anyLapsed events := by
  rw [anyLapsed, Event.runs, List.any_filter]
  congr 1
  funext event
  cases event <;> rfl

theorem lastAnswer?_lapses (requests : List OpenRequest) :
    lastAnswer? (Inquirer.lapses requests) = none := by
  rw [lastAnswer?, Inquirer.lapses, List.foldl_map]
  exact List.foldl_fixed' (fun _ => rfl) _

theorem anyLapsed_lapses (requests : List OpenRequest) :
    anyLapsed (Inquirer.lapses requests) = requests.any (·.inquiry.hasExpiryHandler) := by
  simp [anyLapsed, Inquirer.lapses, List.any_map, Function.comp_def]

end CommandLine.Progress

namespace CommandLine

/-! ## Lines of the output -/

/-- That the output consists of these lines and, if there is a log, of lines of the log. -/
inductive Printed (logging : Bool) : List String → List String → Prop where
  | nothing : Printed logging [] []
  | line (text : String) {lines output : List String} (h : Printed logging lines output) :
      Printed logging (text :: lines) (text :: output)
  | logged (context : String) (entry : Log.Record) (hlogging : logging = true)
      {lines output : List String} (h : Printed logging lines output) :
      Printed logging lines (recordLine context entry :: output)

namespace Printed

variable {logging : Bool} {lines more output later : List String}

theorem append (h : Printed logging lines output) (hmore : Printed logging more later) :
    Printed logging (lines ++ more) (output ++ later) := by
  induction h with
  | nothing => exact hmore
  | line text _ ih => exact .line text ih
  | logged context entry hlogging _ ih => exact .logged context entry hlogging ih

theorem refl (logging : Bool) (lines : List String) : Printed logging lines lines := by
  induction lines with
  | nil => exact .nothing
  | cons text _ ih => exact .line text ih

theorem append_log (h : Printed logging lines output) (hlog : Printed logging [] later) :
    Printed logging lines (output ++ later) := by
  simpa using h.append hlog

theorem eq_of_silent (h : Printed false lines output) : output = lines := by
  induction h with
  | nothing => rfl
  | line text _ ih => rw [ih]
  | logged _ _ hlogging => cases hlogging

end Printed

/-! ## How a run stands -/

/-- That the one inquirer of a run waits for these requests, that these lines were printed, and what
the response handler and the expiry handler were told. -/
structure Progress.Stands (logging : Bool) (settings : Settings) (requests : List OpenRequest)
    (lines : List String) (attributes : Option Json) (timedOut : Bool) (progress : Progress) :
    Prop where
  inquirers : progress.inquirers = [.waitingFor settings requests]
  output : Printed logging lines progress.output
  attributes : progress.attributes = attributes
  timedOut : progress.timedOut = timedOut

namespace Progress.Stands

variable {logging timedOut : Bool} {settings : Settings} {requests left : List OpenRequest}
  {lines : List String} {attributes : Option Json} {progress : Progress}

theorem isIdle_eq (h : progress.Stands logging settings requests lines attributes timedOut) :
    progress.isIdle = requests.isEmpty := by
  rw [isIdle, h.inquirers, List.all_cons, List.all_nil, Bool.and_true]
  rfl

theorem print (h : progress.Stands logging settings requests lines attributes timedOut)
    (more : List String) :
    (progress.print more).Stands logging settings requests (lines ++ more) attributes timedOut :=
  ⟨h.inquirers, h.output.append (.refl logging more), h.attributes, h.timedOut⟩

/-- After a step of the inquirer the runs of handlers tell all that the handlers were told. -/
theorem exchange {α : Type}
    (h : progress.Stands logging settings requests lines attributes timedOut)
    {log : List Event → List String} (hlog : ∀ events, Printed logging [] (log events))
    {step : Exchange RunPeers (α × List Inquirer)} {runs : List Event}
    (hleft : (step.run progress.peers).value.2 = [.waitingFor settings left])
    (hruns : Event.runs (step.run progress.peers).events = runs) :
    (progress.exchange log step).2.Stands logging settings left lines
      ((lastAnswer? runs).or attributes) (timedOut || anyLapsed runs) where
  inquirers := hleft
  output := h.output.append_log (hlog _)
  attributes := by
    rw [← hruns, lastAnswer?_runs, ← h.attributes]
    rfl
  timedOut := by
    rw [← hruns, anyLapsed_runs, ← h.timedOut]
    rfl

end Progress.Stands

namespace Course

/-- That a course has one inquirer as its only handler and logs nothing but lines of the log. -/
structure Plain (logging : Bool) (course : Course) : Prop where
  switchboard : course.switchboard = ⟨[.inquirer 0]⟩
  log : ∀ context events, Printed logging [] (course.log context events)

def answerLine (course : Course) (document : Json) : String :=
  "<- " ++ Topic.response course.id ++ " " ++ document.compact

variable {logging timedOut : Bool} {settings : Settings} {requests left : List OpenRequest}
  {request : OpenRequest} {lines : List String} {attributes : Option Json} {progress : Progress}
  {course : Course}

/-! ### The halves of a tick -/

theorem run_poll (q : Inquirer) (now : Instant) (peers : RunPeers) :
    ((Switchboard.mk [.inquirer 0]).broadcast (.poll now) [q]).run peers =
      let outcome := (q.retire now).run peers
      ⟨(true, [outcome.value.2]), outcome.peers, outcome.events⟩ := by
  simp [Switchboard.broadcast, Switchboard.carryOutFrom, Handler.carryOut, Exchange.atIndex,
    Handler.taskOfInquirer]

theorem run_delivery (q : Inquirer) (id : RequestId) {payload : Bytes} {document : Json}
    (hread : Json.read payload = .ok document) (peers : RunPeers) :
    ((Switchboard.mk [.inquirer 0]).deliver (Topic.response id) payload [q]).run peers =
      let outcome := (q.receive (Topic.response id) document).run peers
      ⟨(.ok true, [outcome.value.2]), outcome.peers, outcome.events⟩ := by
  have hresponse : Topic.isResponse (Topic.response id) = true :=
    Topic.isResponse_of_parseId? (Topic.parseId?_ofId Topic.responseBase id)
  have hclaims : (Switchboard.mk [.inquirer 0]).claimant? (Topic.response id) =
      some (.inquirer 0, 0) := by
    simp [Switchboard.claimant?, Handler.claims, hresponse]
  exact Switchboard.run_deliver_of_inquirer hclaims hread rfl peers

def polled (course : Course) (tick : Nat) (progress : Progress) : Progress :=
  (progress.exchange (course.log "") <|
    course.switchboard.broadcast (.poll (course.instant tick)) progress.inquirers).2

theorem takeTick_of_silent {tick : Nat} (h : course.responseAt? tick = none)
    (progress : Progress) :
    course.takeTick tick progress = (.ok (), course.polled tick progress) := by
  rw [takeTick, h]
  rfl

theorem takeTick_of_response {tick : Nat} {document : Json}
    (h : course.responseAt? tick = some document) (progress : Progress) :
    course.takeTick tick progress = course.answer document (course.polled tick progress) := by
  rw [takeTick, h]
  rfl

theorem Plain.poll (hplain : course.Plain logging)
    (h : progress.Stands logging settings requests lines attributes timedOut) (tick : Nat) :
    (course.polled tick progress).Stands logging settings
      (requests.filter (!·.isDue (course.instant tick))) lines attributes
      (timedOut || (requests.filter (·.isDue (course.instant tick))).any
        (·.inquiry.hasExpiryHandler)) := by
  have hretired :=
    Inquirer.retiredAt_retire settings requests (course.instant tick) progress.peers
  have hrun := run_poll (.waitingFor settings requests) (course.instant tick) progress.peers
  rw [← h.inquirers, ← hplain.switchboard] at hrun
  have hleft := congrArg (·.value.2) hrun
  have hruns := congrArg (Event.runs ·.events) hrun
  dsimp only at hleft hruns
  rw [hretired.inquirer] at hleft
  rw [hretired.runs] at hruns
  have hpolled := h.exchange (hplain.log "") hleft hruns
  rwa [Progress.lastAnswer?_lapses, Progress.anyLapsed_lapses, Option.none_or] at hpolled

theorem Plain.poll_of_due (hplain : course.Plain logging)
    (h : progress.Stands logging settings requests lines attributes timedOut) {tick : Nat}
    (hdue : ∀ request ∈ requests, request.isDue (course.instant tick) = true) :
    (course.polled tick progress).Stands logging settings [] lines attributes
      (timedOut || requests.any (·.inquiry.hasExpiryHandler)) := by
  have hpolled := hplain.poll h tick
  have hleft : requests.filter (!·.isDue (course.instant tick)) = [] :=
    List.filter_eq_nil_iff.mpr fun request hmem => by simp [hdue request hmem]
  rwa [hleft, List.filter_eq_self.mpr hdue] at hpolled

theorem Plain.poll_of_not_due (hplain : course.Plain logging)
    (h : progress.Stands logging settings requests lines attributes timedOut) {tick : Nat}
    (hdue : ∀ request ∈ requests, request.isDue (course.instant tick) = false) :
    (course.polled tick progress).Stands logging settings requests lines attributes timedOut := by
  have hpolled := hplain.poll h tick
  have hleft : requests.filter (!·.isDue (course.instant tick)) = requests :=
    List.filter_eq_self.mpr fun request hmem => by simp [hdue request hmem]
  have hgone : requests.filter (·.isDue (course.instant tick)) = [] :=
    List.filter_eq_nil_iff.mpr fun request hmem => by simp [hdue request hmem]
  rwa [hleft, hgone, List.any_nil, Bool.or_false] at hpolled

theorem Plain.answer (hplain : course.Plain logging)
    (h : progress.Stands logging settings requests lines attributes timedOut)
    {document again : Json} (hread : Json.read (utf8 document.compact) = .ok again)
    {runs : List Event} :
    let outcome := ((Inquirer.waitingFor settings requests).receive (Topic.response course.id)
      again).run progress.peers
    outcome.value.2 = .waitingFor settings left → Event.runs outcome.events = runs →
    (course.answer document progress).2.Stands logging settings left
      (lines ++ [course.answerLine document]) ((Progress.lastAnswer? runs).or attributes)
      (timedOut || Progress.anyLapsed runs) := by
  intro outcome hleft hruns
  have hprinted := h.print [course.answerLine document]
  have hrun := run_delivery (.waitingFor settings requests) course.id hread progress.peers
  rw [← h.inquirers, ← hplain.switchboard] at hrun
  have hvalue := congrArg (·.value.2) hrun
  have hevents := congrArg (Event.runs ·.events) hrun
  exact hprinted.exchange (hplain.log (receiptContext (Topic.response course.id)))
    (hvalue.trans (congrArg (fun q => [q]) hleft)) (hevents.trans hruns)

/-- A document that is delivered when nothing is open is printed, and that is all. -/
theorem Plain.answer_of_idle (hplain : course.Plain logging)
    (h : progress.Stands logging settings [] lines attributes timedOut) {document again : Json}
    (hread : Json.read (utf8 document.compact) = .ok again) :
    (course.answer document progress).2.Stands logging settings []
      (lines ++ [course.answerLine document]) attributes timedOut := by
  have hnone : Inquirer.addressee? [] (Topic.response course.id) = none := by
    simp [Inquirer.addressee?]
  obtain ⟨hvalue, -, hdeeds⟩ :=
    Inquirer.run_receive_of_unaddressed settings .nil hnone again progress.peers
  have hruns : Event.runs _ = [] := (Event.runs_deeds _).symm.trans (congrArg Event.runs hdeeds)
  have hanswered := hplain.answer h hread (congrArg Prod.snd hvalue) hruns
  rwa [show Progress.anyLapsed [] = false from rfl, Bool.or_false] at hanswered

/-- A document that is delivered while its request is open is printed, and the response handler gets
what the request wants of it. -/
theorem Plain.answer_of_open (hplain : course.Plain logging)
    (h : progress.Stands logging settings [request] lines attributes timedOut)
    (horderly : Inquirer.Orderly [request]) (hid : request.id = course.id) {document again : Json}
    (hread : Json.read (utf8 document.compact) = .ok again) :
    (course.answer document progress).2.Stands logging settings []
      (lines ++ [course.answerLine document]) (some (request.wanted again)) timedOut := by
  have hparse : Topic.parseId? Topic.responseBase (Topic.response course.id) = some request.id := by
    rw [hid]
    exact Topic.parseId?_ofId Topic.responseBase course.id
  have hsome : Inquirer.addressee? [request] (Topic.response course.id) = some request :=
    (Inquirer.addressee?_eq_some_iff horderly).mpr ⟨List.mem_singleton_self request, hparse⟩
  obtain ⟨-, before, after, hclosed⟩ :=
    Inquirer.run_receive_of_addressee settings horderly hsome again progress.peers
  obtain ⟨rfl, hafter⟩ : before = [] ∧ after = [] := by
    have hlength := congrArg List.length hclosed.waiting
    simp only [Inquirer.outstanding_waitingFor, List.length_append, List.length_cons,
      List.length_nil] at hlength
    exact ⟨List.length_eq_zero_iff.mp (by omega), List.length_eq_zero_iff.mp (by omega)⟩
  subst hafter
  have hleft : _ = Inquirer.waitingFor settings [] := hclosed.left
  have hanswered := hplain.answer h hread hleft hclosed.runs
  rwa [show Progress.anyLapsed _ = false from rfl, Bool.or_false] at hanswered

/-! ### All ticks -/

def deliveredBy? (course : Course) (ticks : Nat) : Option Json :=
  course.response.filter fun _ => 0 < course.answerTick && course.answerTick ≤ ticks

theorem deliveredBy?_zero (course : Course) : course.deliveredBy? 0 = none := by
  rw [deliveredBy?, Option.filter_eq_none_iff]
  intro document _
  simp
  omega

theorem deliveredBy?_succ_of_none {tick : Nat} (h : course.responseAt? (tick + 1) = none) :
    course.deliveredBy? (tick + 1) = course.deliveredBy? tick := by
  rw [responseAt?] at h
  rw [deliveredBy?, deliveredBy?]
  by_cases htick : tick + 1 = course.answerTick
  · rw [if_pos htick] at h
    rw [h]
    rfl
  · have hsame : course.answerTick ≤ tick + 1 ↔ course.answerTick ≤ tick := by omega
    simp only [hsame]

theorem deliveredBy?_succ_of_some {tick : Nat} {document : Json}
    (h : course.responseAt? (tick + 1) = some document) :
    course.response = some document ∧ course.deliveredBy? tick = none ∧
      course.deliveredBy? (tick + 1) = some document := by
  rw [responseAt?] at h
  split_ifs at h with htick
  rw [deliveredBy?, deliveredBy?, h, ← htick]
  simp

def openUnless (request : OpenRequest) (closed : Bool) : List OpenRequest :=
  if closed then [] else [request]

theorem isEmpty_openUnless (request : OpenRequest) (closed : Bool) :
    (openUnless request closed).isEmpty = closed := by
  cases closed <;> rfl

/-- What the response handler has got after so many ticks: nothing if its request lapsed before. -/
def answeredBy? (course : Course) (request : OpenRequest) (due : Bool) (ticks : Nat) :
    Option Json :=
  if due then none
  else (course.deliveredBy? ticks).map fun document => request.wanted document.reread

/-- How a run stands after so many ticks if its request is due at all of them or at none. -/
theorem Plain.progressAfter (hplain : course.Plain logging)
    (hread : ∀ document ∈ course.response,
      Json.read (utf8 document.compact) = .ok document.reread)
    (horderly : Inquirer.Orderly [request]) (hid : request.id = course.id)
    (hhandler : request.inquiry.hasExpiryHandler = true) {ticks : Nat} {due : Bool}
    (hdue : ∀ tick < ticks, request.isDue (course.instant (tick + 1)) = due)
    (hstart : progress.Stands logging settings [request] lines none false) {tick : Nat}
    (htick : tick ≤ ticks) :
    (course.progressAfter progress tick).Stands logging settings
      (openUnless request ((due && 0 < tick) || (course.deliveredBy? tick).isSome))
      (lines ++ (course.deliveredBy? tick).toList.map course.answerLine)
      (course.answeredBy? request due tick) (due && 0 < tick) := by
  induction tick with
  | zero =>
      rw [answeredBy?, deliveredBy?_zero]
      simpa [openUnless, Course.progressAfter] using hstart
  | succ tick ih =>
      have hopen (closed : Bool) : ∀ other ∈ openUnless request closed,
          other.isDue (course.instant (tick + 1)) = due := by
        cases closed <;> simp [openUnless, hdue tick htick]
      -- The first poll takes out a request that is due, and no poll takes out one that is not.
      have hpolled : (course.polled (tick + 1) (course.progressAfter progress tick)).Stands logging
          settings (openUnless request (due || (course.deliveredBy? tick).isSome))
          (lines ++ (course.deliveredBy? tick).toList.map course.answerLine)
          (course.answeredBy? request due tick) due := by
        cases due with
        | false => exact hplain.poll_of_not_due (ih (by omega)) (hopen _)
        | true =>
            have hlapsed := hplain.poll_of_due (ih (by omega)) (hopen _)
            rcases tick with - | tick
            · simpa [deliveredBy?_zero, openUnless, hhandler] using hlapsed
            · simpa [openUnless] using hlapsed
      rw [Course.progressAfter]
      cases hresponse : course.responseAt? (tick + 1) with
      | none =>
          rw [takeTick_of_silent hresponse, answeredBy?, deliveredBy?_succ_of_none hresponse]
          simpa [answeredBy?] using hpolled
      | some document =>
          obtain ⟨hdocument, hbefore, hafter⟩ := deliveredBy?_succ_of_some hresponse
          rw [answeredBy?, hbefore] at hpolled
          rw [takeTick_of_response hresponse, answeredBy?, hafter]
          cases due with
          | true =>
              simpa [openUnless] using hplain.answer_of_idle hpolled (hread document hdocument)
          | false =>
              simpa [openUnless] using
                hplain.answer_of_open hpolled horderly hid (hread document hdocument)

/-- What has been delivered when the ticks end: the poll of the first tick comes before an answer on
that tick, and nothing comes after a tick that leaves nothing open. -/
theorem Stops.deliveredBy?_eq {ticks taken : Nat} {due : Bool}
    (hstops : course.Stops progress ticks taken)
    (hidle : ∀ tick ≤ ticks, (course.progressAfter progress tick).isIdle =
      ((due && 0 < tick) || (course.deliveredBy? tick).isSome)) :
    course.deliveredBy? taken = course.response.filter fun _ =>
      1 ≤ course.answerTick ∧ course.answerTick ≤ ticks ∧
        (due = false ∨ course.answerTick = 1) := by
  have hle := hstops.le
  have hlast := hstops.last
  rw [hidle taken hle] at hlast
  cases hresponse : course.response with
  | none => simp [deliveredBy?, hresponse]
  | some document =>
      simp only [deliveredBy?, hresponse, Option.isSome_filter, Option.any_some, Bool.or_eq_true,
        Bool.and_eq_true, decide_eq_true_eq] at hlast hidle ⊢
      congr 1
      funext _
      rw [Bool.eq_iff_iff]
      simp only [Bool.and_eq_true, decide_eq_true_eq]
      cases due with
      | false =>
          simp only [Bool.false_eq_true, false_and, false_or, true_or, and_true] at hlast ⊢
          omega
      | true =>
          have hfirst : ¬ 1 < taken := by
            intro hlater
            have hpending := hstops.pending 1 Nat.one_pos hlater
            rw [hidle 1 (by omega)] at hpending
            cases hpending
          simp only [true_and, Bool.true_eq_false, false_or] at hlast ⊢
          omega

end Course

end CommandLine

end AttributeExchange
