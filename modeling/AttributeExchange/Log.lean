import AttributeExchange.Exchange.Basic
import AttributeExchange.Json.Basic

/-!
# Log records

The view of events as a log: what is reported, how important it is, and with which fields. The
recording channel reports every call before it carries it out, so the record of a call stands
where the call does.
-/

namespace AttributeExchange.Log

inductive Level where
  | trace
  | debug
  | info
  | warn
  deriving DecidableEq, Repr

def Level.name : Level → String
  | .trace => "TRACE"
  | .debug => "DEBUG"
  | .info => "INFO"
  | .warn => "WARN"

def Level.rank : Level → Nat
  | .trace => 0
  | .debug => 1
  | .info => 2
  | .warn => 3

inductive Source where
  | program
  | draft
  | inquirer
  | switchboard
  | subscription
  | channel
  deriving DecidableEq, Repr

inductive Field where
  | text (value : String)
  | number (value : Nat)
  | flag (value : Bool)
  deriving DecidableEq, Repr

structure Record where
  level : Level
  source : Source
  message : String
  fields : List (String × Field)
  deriving DecidableEq, Repr

def ofNotice : Notice → Record
  | .registered => ⟨.trace, .inquirer, "attribute requester initialized", []⟩
  | .noKeys => ⟨.debug, .inquirer, "No keys to request were given", []⟩
  | .membersMissing => ⟨.debug, .inquirer, "Attribute request or response field is missing", []⟩
  | .keySkipped => ⟨.debug, .draft, "Requested attribute key is empty, skipping", []⟩
  | .rejected fault => ⟨.debug, .inquirer, fault.message, []⟩
  | .refused fault => ⟨.warn, .inquirer, fault.message, []⟩
  | .notSubscribed filter =>
    ⟨.warn, .subscription, "Failed to subscribe to topic (" ++ filter ++ ")", []⟩
  | .notUnsubscribed filter =>
    ⟨.warn, .subscription, "Failed to unsubscribe from topic (" ++ filter ++ ")", []⟩
  | .notSent topic =>
    ⟨.warn, .inquirer, "Failed to send attribute request (" ++ topic ++ ")", []⟩
  | .sent id topic =>
    ⟨.debug, .inquirer, "attribute request sent",
      [("request_id", .number id.toNat), ("topic", .text topic)]⟩
  | .unreadableId topic =>
    ⟨.debug, .inquirer, "No request id in response topic (" ++ topic ++ ")", []⟩
  | .unknownId id =>
    ⟨.debug, .inquirer, "No pending attribute request with id " ++ id.toNat.repr, []⟩
  | .timedOut id handled =>
    ⟨.debug, .inquirer, "attribute request timed out",
      [("request_id", .number id.toNat), ("outcome", .text "Expired"),
        ("handled", .flag handled)]⟩
  | .cancelled count =>
    ⟨.debug, .inquirer, "pending attribute requests cancelled", [("dropped", .number count)]⟩
  | .unclaimed topic => ⟨.trace, .switchboard, "no handler for topic", [("topic", .text topic)]⟩
  | .undecodable topic =>
    ⟨.warn, .switchboard, "Unable to deserialize payload on topic (" ++ topic ++ ")", []⟩

def ofCall : Call → Record
  | .send topic payload =>
    ⟨.trace, .channel, "send", [("topic", .text topic), ("payload", .text payload.compact)]⟩
  | .subscribe filter => ⟨.trace, .channel, "subscribe", [("topic_filter", .text filter)]⟩
  | .unsubscribe filter => ⟨.trace, .channel, "unsubscribe", [("topic_filter", .text filter)]⟩

def ofEvent? : Event → Option Record
  | .called call _ | .forwarded call _ => some (ofCall call)
  | .noted notice => some (ofNotice notice)
  | .drew _ | .answered _ _ | .lapsed _ | .asked _ _ => none

def ofEvents (events : List Event) : List Record :=
  events.filterMap ofEvent?

end AttributeExchange.Log
