import AttributeExchange.CommandLine.Run
import AttributeExchange.Proofs.CommandLine.Standing

/-!
# The outcome of a run

What a run prints and how it ends, for every choice of options. The submission decides first: if it
is refused the run fails. Otherwise the answer, the timeout and the end of the ticks compete, and
which of them comes first is told by the timeout and by the tick of the answer alone.
-/

namespace AttributeExchange.CommandLine

/-! ## The submission of a run -/

def submissionOf (options : Options) : Submission :=
  .ofScope options.scope ⟨0, options.keys, none, true, none⟩

def submitted (opened : Instant) (options : Options) (settings : Settings) :
    Outcome RunPeers (Except RequestFault RequestId × Inquirer) :=
  ((Inquirer.new settings).submit (submissionOf options) opened).run ⟨.new, .after 0⟩

def logLines (options : Options) (logging : Bool) (context : String) (entries : List Log.Record) :
    List String :=
  if logging then recordLines (if options.verbose then .debug else .info) context entries else []

def courseOf (instant : Nat → Instant) (options : Options) (logging : Bool)
    (response : Option Json) : Course where
  switchboard := ⟨[.inquirer 0]⟩
  id := 1
  response := response
  answerTick := options.answerTick
  instant := instant
  log context events := logLines options logging context (Log.ofEvents events)

variable {instant : Nat → Instant} {options : Options} {logging : Bool} {settings : Settings}
  {response : Option Json}

theorem printed_logLines (options : Options) (logging : Bool) (context : String)
    (entries : List Log.Record) :
    Printed logging [] (logLines options logging context entries) := by
  cases logging with
  | false => exact .nothing
  | true =>
      rw [logLines, if_pos rfl, recordLines]
      induction List.filter _ entries with
      | nil => exact .nothing
      | cons entry _ ih => exact .logged context entry rfl ih

theorem plain_courseOf (instant : Nat → Instant) (options : Options) (logging : Bool)
    (response : Option Json) : (courseOf instant options logging response).Plain logging :=
  ⟨rfl, fun context events => printed_logLines options logging context (Log.ofEvents events)⟩

theorem submitted_of_fault {fault : RequestFault}
    (h : (submissionOf options).fault? settings 0 = some fault) (opened : Instant) :
    (submitted opened options settings).value = (.error fault, .waitingFor settings []) ∧
      Event.runs (submitted opened options settings).events = [] := by
  have hrun := congrArg (·.run (⟨.new, .after 0⟩ : RunPeers))
    (Inquirer.deeds_submit settings [] (submissionOf options) opened)
  have hsettings : (Inquirer.waitingFor settings []).settings = settings := rfl
  simp only [Inquirer.submissionEffect, Inquirer.outstanding_waitingFor, List.length_nil,
    hsettings, h, Exchange.run_deeds, Exchange.run_pure] at hrun
  refine ⟨congrArg Outcome.value hrun, ?_⟩
  rw [← Event.runs_deeds]
  exact congrArg (Event.runs ·.events) hrun

theorem submitted_of_no_fault (h : (submissionOf options).fault? settings 0 = none)
    (opened : Instant) :
    let outcome := submitted opened options settings
    outcome.value =
        (.ok 1, .waitingFor settings [(submissionOf options).opening settings 1 opened]) ∧
      outcome.peers.channel.sent = [(Topic.request 1, (submissionOf options).document settings)] ∧
      Event.runs outcome.events = [] := by
  have hrun := congrArg (·.run (⟨.new, .after 0⟩ : RunPeers))
    (Inquirer.deeds_submit settings [] (submissionOf options) opened)
  have hsettings : (Inquirer.waitingFor settings []).settings = settings := rfl
  simp only [Inquirer.submissionEffect, Inquirer.outstanding_waitingFor, List.length_nil,
    hsettings, h, Exchange.run_deeds, Inquirer.opened_waitingFor] at hrun
  intro outcome
  refine ⟨congrArg Outcome.value hrun, ?_, ?_⟩
  · exact congrArg (·.peers.channel.sent) hrun
  · rw [← Event.runs_deeds]
    exact congrArg (Event.runs ·.events) hrun

/-! ## From the submission to the ticks -/

def registered (options : Options) (logging : Bool) (settings : Settings) : Progress :=
  let ready := (Progress.start settings).print (logLines options logging "" [readyRecord settings])
  (ready.exchange (fun events => logLines options logging "" (Log.ofEvents events))
    (Switchboard.empty.register (.inquirer 0) ready.inquirers)).2

def begun (opened : Instant) (options : Options) (logging : Bool) (settings : Settings) :
    Progress :=
  let before := registered options logging settings
  (before.exchange
    (fun events =>
      logLines options logging (submissionContext options.scope options.keys) (Log.ofEvents events))
    (Exchange.atIndex 0 (·.submit (submissionOf options) opened) before.inquirers)).2

theorem stands_registered (options : Options) (logging : Bool) (settings : Settings) :
    (registered options logging settings).Stands logging settings [] [] none false where
  inquirers := rfl
  output := ((printed_logLines options logging "" [readyRecord settings]).append_log
    (printed_logLines options logging "" (Log.ofEvents [.noted .registered])))
  attributes := rfl
  timedOut := rfl

theorem run_submission (opened : Instant) (options : Options) (logging : Bool)
    (settings : Settings) :
    let before := registered options logging settings
    let outcome := submitted opened options settings
    (Exchange.atIndex 0 (·.submit (submissionOf options) opened) before.inquirers).run
        before.peers =
      ⟨(some outcome.value.1, [outcome.value.2]), outcome.peers, outcome.events⟩ := by
  intro before outcome
  have hinquirers : before.inquirers = [Inquirer.new settings] := rfl
  have hpeers : before.peers = ⟨.new, .after 0⟩ := rfl
  rw [hinquirers, hpeers]
  simp [Exchange.atIndex, outcome, submitted]

theorem stands_begun {opened : Instant} {requests : List OpenRequest}
    (hvalue : (submitted opened options settings).value.2 = .waitingFor settings requests)
    (hruns : Event.runs (submitted opened options settings).events = []) :
    (begun opened options logging settings).Stands logging settings requests [] none false := by
  have hrun := run_submission opened options logging settings
  have hleft := (congrArg (·.value.2) hrun).trans (congrArg (fun q => [q]) hvalue)
  have hevents := (congrArg (Event.runs ·.events) hrun).trans hruns
  exact (stands_registered options logging settings).exchange
    (fun events => printed_logLines options logging _ (Log.ofEvents events)) hleft hevents

theorem peers_begun (opened : Instant) (options : Options) (logging : Bool)
    (settings : Settings) :
    (begun opened options logging settings).peers = (submitted opened options settings).peers :=
  congrArg Outcome.peers (run_submission opened options logging settings)

def proceed (instant : Nat → Instant) (options : Options) (logging : Bool)
    (response : Option Json) (progress : Progress) :
    Option (Except RequestFault RequestId) → Transcript
  | none => .finished progress.output
  | some (.error fault) => .failed progress.output (.request fault)
  | some (.ok id) =>
    finish options { courseOf instant options logging response with id }
      (fun entry => logLines options logging "" [entry])
      (progress.print (sentLines progress.peers.channel))

theorem exchange_eq_proceed (instant : Nat → Instant) (options : Options) (logging : Bool)
    (settings : Settings) (response : Option Json) :
    exchange instant options logging settings response =
      proceed instant options logging response (begun (instant 0) options logging settings)
        (some (submitted (instant 0) options settings).value.1) := by
  have hrun := congrArg (·.value.1) (run_submission (instant 0) options logging settings)
  refine Eq.trans ?_ (congrArg (proceed instant options logging response _) hrun)
  rfl

/-! ## The end of a run -/

theorem printed_endLines {log : Log.Record → List String}
    (hlog : ∀ entry, Printed logging [] (log entry)) (id : RequestId) {progress : Progress}
    {attributes : Option Json} (hattributes : progress.attributes = attributes) :
    Printed logging (attributes.map Json.indented).toList (endLines log id progress) := by
  rw [endLines, hattributes]
  cases attributes with
  | none => exact hlog (endRecord progress.timedOut id)
  | some attributes => exact .refl logging [attributes.indented]

variable {requests : List OpenRequest} {lines : List String} {attributes : Option Json}
  {timedOut : Bool}

theorem finish_of_stops (hinterval : options.tickInterval ≠ 0) {course : Course}
    (hplain : course.Plain logging) {log : Log.Record → List String}
    (hlog : ∀ entry, Printed logging [] (log entry)) {progress : Progress} {taken : Nat}
    (hstops : course.Stops progress options.ticks taken)
    (hstands : (course.progressAfter progress taken).Stands logging settings requests lines
      attributes timedOut) :
    ∃ output, finish options course log progress = .finished output ∧
      Printed logging (lines ++ (attributes.map Json.indented).toList) output := by
  have hend := hstands.output.append (printed_endLines hlog course.id hstands.attributes)
  rw [finish, if_neg hinterval, hstops.outcome]
  exact ⟨_, rfl, hend.append_log (hplain.log "" _)⟩

/-! ## Timeouts -/

/-- That the ticks of a run come one after the other, the first not before the submission, which is
made at an instant that a clock can show. -/
structure InOrder (instant : Nat → Instant) : Prop where
  readable : (instant 0).nanos < Instant.nanosLimit
  le_next : ∀ tick, instant tick ≤ instant (tick + 1)

theorem InOrder.le (h : InOrder instant) {earlier later : Nat} (hle : earlier ≤ later) :
    (instant earlier).nanos ≤ (instant later).nanos := by
  induction hle with
  | refl => exact Nat.le_refl _
  | step _ ih => exact Nat.le_trans ih ((Instant.le_iff_nanos_le _ _).mp (h.le_next _))

theorem inOrder_punctual (interval : Nat) : InOrder (punctual interval) where
  readable := by
    rw [punctual, Nat.zero_sub, Nat.zero_mul]
    decide
  le_next tick := by
    have hticks : (tick - 1) * interval ≤ (tick + 1 - 1) * interval :=
      Nat.mul_le_mul_right interval (by omega)
    rw [Instant.le_iff_nanos_le]
    simp only [punctual, Instant.nanos, Duration.totalNanos_ofMillis]
    exact Nat.mul_le_mul_right 1000000 hticks

theorem isDue_opening_iff (opened now : Instant) :
    ((submissionOf options).opening settings 1 opened).isDue now = true ↔
      ∃ timeout ∈ settings.timeout, opened.nanos + timeout.totalNanos < Instant.nanosLimit ∧
        opened.nanos + timeout.totalNanos ≤ now.nanos := by
  rw [Inquirer.isDue_opening, Option.any_eq_true]
  simp only [Submission.dueFrom?, submissionOf, Submission.ofScope, Option.none_or,
    Option.bind_eq_some_iff, Option.ite_none_right_eq_some, Option.some.injEq]
  constructor
  · rintro ⟨_, ⟨timeout, htimeout, hlimit, rfl⟩, hdue⟩
    exact ⟨timeout, htimeout, hlimit, of_decide_eq_true hdue⟩
  · rintro ⟨timeout, htimeout, hlimit, hdue⟩
    exact ⟨_, ⟨timeout, htimeout, hlimit, rfl⟩, decide_eq_true hdue⟩

/-! ## The outcome -/

theorem read_of_loadResponse (h : loadResponse options = .ok response) :
    ∀ document ∈ response, Json.read (utf8 document.compact) = .ok document.reread := by
  intro document hmem
  rw [loadResponse] at h
  cases htext : options.response with
  | none =>
      rw [htext] at h
      obtain rfl := Except.ok.inj h
      cases hmem
  | some text =>
      rw [htext] at h
      dsimp only at h
      cases hread : Json.read (utf8 text) with
      | error cause =>
          rw [hread] at h
          cases h
      | ok read =>
          rw [hread] at h
          obtain rfl := Except.ok.inj h
          obtain rfl := Option.some.inj hmem
          exact Json.read_compact_of_read hread

/-- The request of a run is over at the first poll or outlasts them all. -/
theorem isDue_eq (horder : InOrder instant)
    (htimeout : ∀ timeout ∈ settings.timeout, timeout = .zero ∨
      (instant options.ticks).nanos < (instant 0).nanos + timeout.totalNanos)
    {tick : Nat} (htick : tick < options.ticks) :
    ((submissionOf options).opening settings 1 (instant 0)).isDue (instant (tick + 1)) =
      decide (settings.timeout = some .zero) := by
  have hzero : Duration.zero.totalNanos = 0 := rfl
  rw [Bool.eq_iff_iff, isDue_opening_iff, decide_eq_true_iff]
  constructor
  · rintro ⟨timeout, hmem, -, hdue⟩
    rcases htimeout timeout hmem with rfl | hlong
    · exact hmem
    · have hle := horder.le (show tick + 1 ≤ options.ticks from htick)
      omega
  · intro hnone
    have hreadable := horder.readable
    have hle := horder.le (Nat.zero_le (tick + 1))
    exact ⟨.zero, hnone, by omega, by omega⟩

theorem orderly_opening (options : Options) (settings : Settings) (opened : Instant) :
    Inquirer.Orderly [(submissionOf options).opening settings 1 opened] := by
  constructor
  · intro request hmem
    rw [List.mem_singleton.mp hmem]
    rfl
  · exact List.nodup_singleton _

def sentLine (options : Options) (settings : Settings) : String :=
  "-> " ++ Topic.request 1 ++ " " ++ ((submissionOf options).document settings).compact

def started (opened : Instant) (options : Options) (logging : Bool) (settings : Settings) :
    Progress :=
  (begun opened options logging settings).print
    (sentLines (begun opened options logging settings).peers.channel)

theorem stands_started (h : (submissionOf options).fault? settings 0 = none) (opened : Instant) :
    (started opened options logging settings).Stands logging settings
      [(submissionOf options).opening settings 1 opened] [sentLine options settings] none
      false := by
  obtain ⟨hvalue, hsent, hruns⟩ := submitted_of_no_fault h opened
  have hlines : sentLines (begun opened options logging settings).peers.channel =
      [sentLine options settings] := by
    rw [sentLines, peers_begun, hsent]
    rfl
  rw [started, hlines]
  exact (stands_begun (congrArg Prod.snd hvalue) hruns).print [sentLine options settings]

def delivered? (options : Options) (settings : Settings) (response : Option Json) : Option Json :=
  response.filter fun _ =>
    1 ≤ options.answerTick ∧ options.answerTick ≤ options.ticks ∧
      (settings.timeout ≠ some .zero ∨ options.answerTick = 1)

def attributes? (options : Options) (settings : Settings) (response : Option Json) : Option Json :=
  if settings.timeout = some .zero then none
  else (delivered? options settings response).map fun document =>
    document.reread.select options.scope.responseMember

/-- The lines that count of a run whose request was sent. -/
def outcomeLines (options : Options) (settings : Settings) (response : Option Json) : List String :=
  sentLine options settings ::
    ((delivered? options settings response).map fun document =>
      "<- " ++ Topic.response 1 ++ " " ++ document.compact).toList ++
    ((attributes? options settings response).map Json.indented).toList

/-- How the ticks end once the request was sent. -/
theorem exists_stops_of_sent
    (hread : ∀ document ∈ response, Json.read (utf8 document.compact) = .ok document.reread)
    (horder : InOrder instant)
    (htimeout : ∀ timeout ∈ settings.timeout, timeout = .zero ∨
      (instant options.ticks).nanos < (instant 0).nanos + timeout.totalNanos)
    (hfault : (submissionOf options).fault? settings 0 = none) :
    let course := courseOf instant options logging response
    let progress := started (instant 0) options logging settings
    ∃ taken requests, course.Stops progress options.ticks taken ∧
      (course.progressAfter progress taken).Stands logging settings requests
        (sentLine options settings ::
          ((delivered? options settings response).map course.answerLine).toList)
        (attributes? options settings response)
        (settings.timeout = some .zero ∧ 0 < options.ticks) := by
  intro course progress
  have hplain := plain_courseOf instant options logging response
  obtain ⟨taken, hstops⟩ : ∃ taken, course.Stops progress options.ticks taken :=
    Course.exists_stops (fun document hmem => ⟨document.reread, hread document hmem⟩) progress _
  have hstands {tick : Nat} (htick : tick ≤ options.ticks) :=
    hplain.progressAfter hread (orderly_opening options settings (instant 0)) rfl rfl
      (fun tick htick => isDue_eq horder htimeout htick) (stands_started hfault (instant 0)) htick
  have hdelivered : course.deliveredBy? taken = delivered? options settings response := by
    rw [hstops.deliveredBy?_eq fun tick htick =>
      (hstands htick).isIdle_eq.trans (Course.isEmpty_openUnless _ _), delivered?]
    simp only [decide_eq_false_iff_not]
    rfl
  have hlast := hstands hstops.le
  rw [Course.answeredBy?, hdelivered, ← Option.toList_map] at hlast
  refine ⟨taken, _, hstops, hlast.inquirers, hlast.output, hlast.attributes.trans ?_,
    hlast.timedOut.trans ?_⟩
  · rw [attributes?]
    simp only [decide_eq_true_eq]
    rfl
  · have hany : 0 < taken ↔ 0 < options.ticks := by
      have hle := hstops.le
      have hlast := hstops.last
      omega
    simp only [hany, Bool.decide_and]

/-- The outcome of a run, the lines of its log left aside. If the submission is refused, nothing is
printed and the run fails. Otherwise the publication is printed; then the document of the server, if
its tick is reached and the request is still open, or has just lapsed in the poll of that very tick;
then the attributes, if the request was open. These are the attributes of the document as it is read
back from its line. The loop takes no tick more than it may, stops at the first one after which
nothing is open, delivers one document at most and never fails. Ticks may come late, as long as a
timeout that is not zero is longer than the time from the submission to the last of them. -/
theorem run_outcome {surroundings : Surroundings}
    (hsettings : loadSettings options surroundings = .ok settings)
    (hresponse : loadResponse options = .ok response) (hinterval : options.tickInterval ≠ 0)
    (horder : InOrder instant)
    (htimeout : ∀ timeout ∈ settings.timeout, timeout = .zero ∨
      (instant options.ticks).nanos < (instant 0).nanos + timeout.totalNanos) :
    let course := courseOf instant options surroundings.logging response
    let progress := started (instant 0) options surroundings.logging settings
    let submitted := submitted (instant 0) options settings
    submitted.value.1 =
        ((submissionOf options).fault? settings 0).elim (.ok 1) .error ∧
      (∀ fault, submitted.value.1 = .error fault →
        ∃ output, runAt instant options surroundings = .failed output (.request fault) ∧
          Printed surroundings.logging [] output) ∧
      (∀ id, submitted.value.1 = .ok id →
        (∃ output, runAt instant options surroundings = .finished output ∧
          Printed surroundings.logging (outcomeLines options settings response) output) ∧
        ∃ taken,
          runAt instant options surroundings = finish options course
            (fun entry => logLines options surroundings.logging "" [entry]) progress ∧
          course.Stops progress options.ticks taken ∧
          (course.progressAfter progress taken).attributes =
            attributes? options settings response ∧
          (course.progressAfter progress taken).timedOut =
            decide (settings.timeout = some .zero ∧ 0 < options.ticks)) ∧
      ∀ document ∈ response, Json.read (utf8 document.compact) = .ok document.reread ∧
        (document.DoubleFree → document.reread = document) := by
  intro course progress submitted
  have hread := read_of_loadResponse hresponse
  have hrun : runAt instant options surroundings =
      proceed instant options surroundings.logging response
        (begun (instant 0) options surroundings.logging settings) (some submitted.value.1) := by
    rw [← exchange_eq_proceed, runAt, hsettings]
    dsimp only
    rw [hresponse]
  have hlast : ∀ document ∈ response, Json.read (utf8 document.compact) = .ok document.reread ∧
      (document.DoubleFree → document.reread = document) :=
    fun document hmem => ⟨hread document hmem, Json.DoubleFree.reread_eq_self⟩
  cases hfault : (submissionOf options).fault? settings 0 with
  | some fault =>
      obtain ⟨hvalue, hruns⟩ := submitted_of_fault hfault (instant 0)
      have hresult : submitted.value.1 = .error fault := congrArg Prod.fst hvalue
      rw [hresult] at hrun ⊢
      refine ⟨rfl, fun other hother => ?_, fun id hid => (by cases hid), hlast⟩
      obtain rfl := Except.error.inj hother
      exact ⟨_, hrun, (stands_begun (congrArg Prod.snd hvalue) hruns).output⟩
  | none =>
      obtain ⟨hvalue, -⟩ := submitted_of_no_fault hfault (instant 0)
      have hresult : submitted.value.1 = .ok 1 := congrArg Prod.fst hvalue
      rw [hresult] at hrun ⊢
      refine ⟨rfl, fun fault hother => (by cases hother), fun id hid => ?_, hlast⟩
      obtain ⟨taken, requests, hstops, hstands⟩ :=
        exists_stops_of_sent hread horder htimeout hfault
      obtain ⟨output, houtput, hprinted⟩ := finish_of_stops hinterval
        (plain_courseOf instant options surroundings.logging response)
        (fun entry => printed_logLines options surroundings.logging "" [entry]) hstops hstands
      exact ⟨⟨output, hrun.trans houtput, hprinted⟩, taken, hrun, hstops, hstands.attributes,
        hstands.timedOut⟩

def bareSurroundings : Surroundings :=
  ⟨none, fun _ => .unopened .noSuchFile, false⟩

/-- A run of three ticks, shorter than the timeout, with an answer on the second. -/
theorem run_outcome_answered :
    let options : Options :=
      ⟨none, false, .client, ["a"], some "\x7b\"client\":\x7b\"a\":1\x7d\x7d", 2, 3, 100⟩
    let document : Json := .object [("client", .object [("a", .integer 1)])]
    let instant := punctual options.tickInterval
    let course := courseOf instant options false (some document)
    let progress := started (instant 0) options false .default
    loadSettings options bareSurroundings = .ok .default ∧
      loadResponse options = .ok (some document) ∧ options.tickInterval ≠ 0 ∧
      InOrder instant ∧
      (∀ timeout ∈ Settings.default.timeout, timeout = .zero ∨
        (instant options.ticks).nanos < (instant 0).nanos + timeout.totalNanos) ∧
      (submitted (instant 0) options .default).value.1 = .ok 1 ∧
      run options bareSurroundings = .finished
        ["-> v1/devices/me/attributes/request/1 \x7b\"clientKeys\":\"a,\"\x7d",
          "<- v1/devices/me/attributes/response/1 \x7b\"client\":\x7b\"a\":1\x7d\x7d",
          "\x7b\n  \"a\": 1\n\x7d"] ∧
      ∃ taken, course.Stops progress options.ticks taken ∧
        (course.progressAfter progress taken).attributes = some (.object [("a", .integer 1)]) := by
  intro options document instant course progress
  have hsettings : loadSettings options bareSurroundings = .ok .default := rfl
  have hresponse : loadResponse options = .ok (some document) := rfl
  have hinterval : options.tickInterval ≠ 0 := by decide
  have horder : InOrder instant := inOrder_punctual options.tickInterval
  have htimeout : ∀ timeout ∈ Settings.default.timeout, timeout = .zero ∨
      (instant options.ticks).nanos < (instant 0).nanos + timeout.totalNanos := by
    intro timeout hmem
    obtain rfl := Option.some.inj hmem
    decide
  obtain ⟨hsubmitted, -, hsent, -⟩ := run_outcome hsettings hresponse hinterval horder htimeout
  have hid : (submitted (instant 0) options .default).value.1 = .ok 1 := hsubmitted.trans rfl
  obtain ⟨⟨output, hrun, hprinted⟩, taken, -, hstops, hattributes, -⟩ := hsent 1 hid
  have hlines : outcomeLines options .default (some document) =
      ["-> v1/devices/me/attributes/request/1 \x7b\"clientKeys\":\"a,\"\x7d",
        "<- v1/devices/me/attributes/response/1 \x7b\"client\":\x7b\"a\":1\x7d\x7d",
        "\x7b\n  \"a\": 1\n\x7d"] := by
    decide +kernel
  rw [hprinted.eq_of_silent, hlines] at hrun
  exact ⟨hsettings, hresponse, hinterval, horder, htimeout, hid, hrun, taken, hstops, hattributes⟩

/-- A double may be read from its line as another one. So the attributes that are printed are not
always those of the document that was given. -/
theorem attributes_not_of_given_document :
    let text := "\x7b\"client\":10e24\x7d"
    let options : Options := ⟨none, false, .client, ["a"], some text, 1, 1, 100⟩
    Options.ofArguments ["--keys", "a", "--ticks", "1", "--response", text] none = .ok options ∧
      loadSettings options bareSurroundings = .ok .default ∧
      ¬ Duration.ofSeconds 5 ≤ .ofMillis ((options.ticks - 1) * options.tickInterval) ∧
      (loadResponse options).toOption.join.map
          (fun document => (document.select options.scope.responseMember).indented) =
        some "9.999999999999999e+24" ∧
      run options bareSurroundings = .finished
        ["-> v1/devices/me/attributes/request/1 \x7b\"clientKeys\":\"a,\"\x7d",
          "<- v1/devices/me/attributes/response/1 \x7b\"client\":9.999999999999999e+24\x7d",
          "1e+25"] := by
  refine ⟨rfl, rfl, by decide, ?_, ?_⟩ <;> decide +kernel

end AttributeExchange.CommandLine
