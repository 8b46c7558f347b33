import AttributeExchange.CommandLine.Arguments
import AttributeExchange.Exchange.Peers
import AttributeExchange.Failure
import AttributeExchange.Inquirer
import AttributeExchange.Json.Basic
import AttributeExchange.Log
import AttributeExchange.Settings.Basic
import AttributeExchange.Switchboard

/-!
# Runs of the program

A single request is made over a recording channel, a simulated server answers it on a given tick,
and the run prints what was sent, what came back and the attributes.
-/

namespace AttributeExchange.CommandLine

/-! ## Transcripts -/

/-- The lines of the standard output, the exit code, and the wording of the failure that ended the
run, if one did. -/
structure Transcript where
  exitCode : Nat
  output : List String
  failure : Option String
  deriving DecidableEq, Repr

namespace Transcript

def outputText (transcript : Transcript) : String :=
  String.join (transcript.output.map (· ++ "\n"))

def failureText (transcript : Transcript) : String :=
  match transcript.failure with
  | none => ""
  | some message => "Error: " ++ message ++ "\n"

def finished (output : List String) : Transcript :=
  ⟨0, output, none⟩

def failed (output : List String) (failure : Failure) : Transcript :=
  ⟨1, output, some failure.message⟩

def misused : Transcript :=
  ⟨2, [], none⟩

def brokenOff (output : List String) : Transcript :=
  ⟨101, output, none⟩

end Transcript

/-!
## Log lines

How records of the log are printed among the output: the level, what the record belongs to, the
component, the message and the fields.
-/

open AttributeExchange.Log (Level Source Field Record)

def sourceName : Source → String
  | .program => "attribute_request"
  | .draft => "attribute_request::builder"
  | .inquirer => "attribute_request::requester"
  | .switchboard => "attribute_request::router"
  | .subscription => "attribute_request::subscription"
  | .channel => "attribute_request::transport"

def fieldText : Field → String
  | .text value => value
  | .number value => value.repr
  | .flag value => if value then "true" else "false"

/-- The line of a record; `context` is empty or ends in a blank. -/
def recordLine (context : String) (entry : Record) : String :=
  entry.level.name ++ " " ++ context ++ sourceName entry.source ++ ": " ++ entry.message ++
    String.join (entry.fields.map fun field => " " ++ field.1 ++ "=" ++ fieldText field.2)

def recordLines (least : Level) (context : String) (entries : List Record) : List String :=
  (entries.filter fun entry => least.rank ≤ entry.level.rank).map (recordLine context)

def submissionContext (scope : Scope) (keys : List String) : String :=
  "try_submit\x7brequest_field=" ++ Text.optional (some (Text.quoted scope.requestMember)) ++
    " response_field=" ++ Text.optional (some (Text.quoted scope.responseMember)) ++
    " keys=" ++ Text.quotedList keys ++ "\x7d: "

def receiptContext (topic : String) : String :=
  "on_response\x7btopic=" ++ Text.quoted topic ++ "\x7d: "

def optionalNumberText (n : Option UInt64) : String :=
  Text.optional (n.map fun n => n.toNat.repr)

def settingsText (settings : Settings) : String :=
  "RequestConfig \x7b max_pending_requests: " ++ optionalNumberText settings.maxWaiting ++
    ", request_timeout: " ++ Text.optional (settings.timeout.map Duration.text) ++
    ", debug: " ++ fieldText (.flag settings.verbose) ++
    ", max_payload_len: " ++ optionalNumberText settings.maxLength ++
    ", max_attributes: " ++ optionalNumberText settings.maxKeys ++
    ", trailing_delimiter: " ++ fieldText (.flag settings.trailingComma) ++ " \x7d"

def readyRecord (settings : Settings) : Record :=
  ⟨.debug, .program, "requester ready", [("config", .text (settingsText settings))]⟩

def endRecord (timedOut : Bool) (id : RequestId) : Record :=
  ⟨.info, .program, if timedOut then "request timed out" else "request still pending",
    [("request_id", .number id.toNat)]⟩

/-!
## Progress of a run

What a run has come to: the inquirers and their collaborators, the lines printed so far, and what
the handlers of the request were told.
-/

abbrev RunPeers := Peers Recorder Counter

structure Progress where
  inquirers : List Inquirer
  peers : RunPeers
  output : List String
  /-- What the response handler got last. -/
  attributes : Option Json
  timedOut : Bool

namespace Progress

def start (settings : Settings) : Progress :=
  ⟨[.new settings], ⟨.new, .after 0⟩, [], none, false⟩

def print (progress : Progress) (lines : List String) : Progress :=
  { progress with output := progress.output ++ lines }

def lastAnswer? (events : List Event) : Option Json :=
  events.foldl (fun last event =>
    match event with
    | .answered _ value => some value
    | _ => last) none

def anyLapsed (events : List Event) : Bool :=
  events.any fun
    | .lapsed _ => true
    | _ => false

def exchange {α : Type} (progress : Progress) (log : List Event → List String)
    (step : Exchange RunPeers (α × List Inquirer)) : α × Progress :=
  let outcome := step.run progress.peers
  (outcome.value.1,
    { inquirers := outcome.value.2
      peers := outcome.peers
      output := progress.output ++ log outcome.events
      attributes := (lastAnswer? outcome.events).or progress.attributes
      timedOut := progress.timedOut || anyLapsed outcome.events })

def isIdle (progress : Progress) : Bool :=
  progress.inquirers.all fun q => q.outstanding.isEmpty

end Progress

/-!
## The course of a run

Tick after tick the handlers are polled before the answer of that tick is delivered, and the ticks
end when nothing is open. When a tick comes is not up to the run: ticks may be late.
-/

structure Course where
  switchboard : Switchboard
  id : RequestId
  response : Option Json
  answerTick : Nat
  /-- When each tick comes; the first is tick 1. -/
  instant : Nat → Instant
  /-- The lines of events that belong to a context. -/
  log : String → List Event → List String

namespace Course

def responseAt? (course : Course) (tick : Nat) : Option Json :=
  if tick = course.answerTick then course.response else none

def answer (course : Course) (document : Json) (progress : Progress) :
    Except DeliveryFault Unit × Progress :=
  let topic := Topic.response course.id
  let text := document.compact
  let progress := progress.print ["<- " ++ topic ++ " " ++ text]
  let (outcome, progress) :=
    progress.exchange (course.log (receiptContext topic)) <|
      course.switchboard.deliver topic (utf8 text) progress.inquirers
  (outcome.map fun _ => (), progress)

def takeTick (course : Course) (tick : Nat) (progress : Progress) :
    Except DeliveryFault Unit × Progress :=
  let (_, progress) :=
    progress.exchange (course.log "") <|
      course.switchboard.broadcast (.poll (course.instant tick)) progress.inquirers
  match course.responseAt? tick with
  | none => (.ok (), progress)
  | some document => course.answer document progress

/-- The ticks from `tick` on, until the inquirers are idle or no tick is left. -/
def takeTicks (course : Course) : Nat → Nat → Progress → Except DeliveryFault Unit × Progress
  | 0, _, progress => (.ok (), progress)
  | left + 1, tick, progress =>
    match course.takeTick tick progress with
    | (.error fault, progress) => (.error fault, progress)
    | (.ok (), progress) =>
      if progress.isIdle then (.ok (), progress) else course.takeTicks left (tick + 1) progress

end Course

/-! ## One run -/

structure Surroundings where
  settingsPath : Option String
  file : String → FileReading
  logging : Bool

def loadSettings (options : Options) (surroundings : Surroundings) : Except Failure Settings := do
  let settings ←
    match options.settingsPath with
    | none => pure Settings.default
    | some path => Settings.ofFile (surroundings.file path)
  return if options.verbose then { settings with verbose := true } else settings

def loadResponse (options : Options) : Except Failure (Option Json) :=
  match options.response with
  | none => .ok none
  | some text =>
    match Json.read (utf8 text) with
    | .ok document => .ok (some document)
    | .error cause => .error (.internal (.badResponse cause))

def sentLines (channel : Recorder) : List String :=
  channel.sent.map fun sent => "-> " ++ sent.1 ++ " " ++ sent.2.compact

def endLines (log : Log.Record → List String) (id : RequestId) (progress : Progress) :
    List String :=
  match progress.attributes with
  | some attributes => [attributes.indented]
  | none => log (endRecord progress.timedOut id)

/-- The ticks and the end of a run whose request was sent. An interval of zero cannot be ticked. -/
def finish (options : Options) (course : Course) (log : Log.Record → List String)
    (progress : Progress) : Transcript :=
  if options.tickInterval = 0 then .brokenOff progress.output
  else
    match course.takeTicks options.ticks 1 progress with
    | (.error fault, progress) => .failed progress.output (.delivery fault)
    | (.ok (), progress) =>
      let progress := progress.print (endLines log course.id progress)
      let (_, progress) :=
        progress.exchange (course.log "") <|
          course.switchboard.broadcast .disconnect progress.inquirers
      .finished progress.output

/-- A run with its settings and the document of the server. The submission is made at `instant 0`,
and each tick comes at the instant of its number. -/
def exchange (instant : Nat → Instant) (options : Options) (logging : Bool) (settings : Settings)
    (response : Option Json) : Transcript :=
  let least : Log.Level := if options.verbose then .debug else .info
  let lines := fun (context : String) (entries : List Log.Record) =>
    if logging then recordLines least context entries else []
  let log := fun (context : String) (events : List Event) => lines context (Log.ofEvents events)
  let progress := (Progress.start settings).print (lines "" [readyRecord settings])
  let (switchboard, progress) :=
    progress.exchange (log "") (Switchboard.empty.register (.inquirer 0) progress.inquirers)
  let submission := Submission.ofScope options.scope ⟨0, options.keys, none, true, none⟩
  let (submitted, progress) :=
    progress.exchange (log (submissionContext options.scope options.keys)) <|
      Exchange.atIndex 0 (·.submit submission (instant 0)) progress.inquirers
  match submitted with
  | none => .finished progress.output
  | some (.error fault) => .failed progress.output (.request fault)
  | some (.ok id) =>
    let progress := progress.print (sentLines progress.peers.channel)
    finish options ⟨switchboard, id, response, options.answerTick, instant, log⟩
      (fun entry => lines "" [entry]) progress

/-- A run with its options, whose submission and ticks come at these instants. -/
def runAt (instant : Nat → Instant) (options : Options) (surroundings : Surroundings) :
    Transcript :=
  match loadSettings options surroundings with
  | .error failure => .failed [] failure
  | .ok settings =>
    match loadResponse options with
    | .error failure => .failed [] failure
    | .ok response => exchange instant options surroundings.logging settings response

/-- Ticks that are never late: the first one comes at once, and each further one an interval of so
many milliseconds later. -/
def punctual (interval tick : Nat) : Instant :=
  ⟨.ofMillis ((tick - 1) * interval)⟩

/-- A run in which no tick is late. -/
def run (options : Options) (surroundings : Surroundings) : Transcript :=
  runAt (punctual options.tickInterval) options surroundings

def versionLine : String :=
  "attribute-request 0.1.0"

def usage : List String :=
  ["Usage: attribute-request [OPTIONS] --keys <KEYS>",
    "",
    "Options:",
    "  -c, --config <CONFIG>                      Path to config file",
    "  -v, --verbose                              Enable debug mode",
    "      --scope <SCOPE>                        Attribute scope (client, shared)",
    "      --keys <KEYS>                          Comma separated attribute keys",
    "      --response <RESPONSE>                  Response document of the simulated server",
    "      --respond-after <RESPOND_AFTER>        Tick on which the response is delivered",
    "      --ticks <TICKS>                        Maximum number of ticks to run",
    "      --tick-interval-ms <TICK_INTERVAL_MS>  Interval between ticks, in milliseconds",
    "  -h, --help                                 Print help",
    "  -V, --version                              Print version"]

def runArguments (arguments : List String) (surroundings : Surroundings) : Transcript :=
  match Options.ofArguments arguments surroundings.settingsPath with
  | .error .help => .finished usage
  | .error .version => .finished [versionLine]
  | .error .misuse => .misused
  | .ok options => run options surroundings

end AttributeExchange.CommandLine
