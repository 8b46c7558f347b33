import AttributeExchange.Json.Basic
import AttributeExchange.Settings.Basic

/-!
# The text form of settings

An object with a member for each setting. What a text leaves out keeps its default.
-/

namespace AttributeExchange.Settings

/-!
## Fields of the text form

The members that the text form of settings may have, and what a text sets. A field that is left out
is told apart from one that says there is no bound.
-/

inductive Field where
  | maxWaiting
  | timeout
  | verbose
  | maxLength
  | maxKeys
  | trailingComma
  deriving DecidableEq, Repr

namespace Field

def all : List Field :=
  [.maxWaiting, .timeout, .verbose, .maxLength, .maxKeys, .trailingComma]

def name : Field → String
  | .maxWaiting => "max_pending_requests"
  | .timeout => "request_timeout"
  | .verbose => "debug"
  | .maxLength => "max_payload_len"
  | .maxKeys => "max_attributes"
  | .trailingComma => "trailing_delimiter"

def ofName? (name : String) : Option Field :=
  all.find? fun field => field.name = name

end Field

/-- What a text sets. The timeout is in milliseconds. -/
structure Overlay where
  maxWaiting : Option (Option UInt64)
  timeout : Option (Option UInt64)
  verbose : Option Bool
  maxLength : Option (Option UInt64)
  maxKeys : Option (Option UInt64)
  trailingComma : Option Bool
  deriving DecidableEq

namespace Overlay

def empty : Overlay :=
  ⟨none, none, none, none, none, none⟩

def has (overlay : Overlay) : Field → Bool
  | .maxWaiting => overlay.maxWaiting.isSome
  | .timeout => overlay.timeout.isSome
  | .verbose => overlay.verbose.isSome
  | .maxLength => overlay.maxLength.isSome
  | .maxKeys => overlay.maxKeys.isSome
  | .trailingComma => overlay.trailingComma.isSome

def onto (overlay : Overlay) (settings : Settings) : Settings where
  maxWaiting := overlay.maxWaiting.getD settings.maxWaiting
  timeout :=
    match overlay.timeout with
    | none => settings.timeout
    | some millis => millis.map fun n => Duration.ofMillis n.toNat
  verbose := overlay.verbose.getD settings.verbose
  maxLength := overlay.maxLength.getD settings.maxLength
  maxKeys := overlay.maxKeys.getD settings.maxKeys
  trailingComma := overlay.trailingComma.getD settings.trailingComma

end Overlay

/-!
## Writing settings

The text form has every field in order. A timeout is written in whole milliseconds, of which the
lowest 64 bits are kept.
-/

def optionalNumber (n : Option Nat) : Json :=
  match n with
  | none => .null
  | some n => .integer n

def timeoutNumber (timeout : Duration) : Nat :=
  timeout.millis % UInt64.size

def value (settings : Settings) : Field → Json
  | .maxWaiting => optionalNumber (settings.maxWaiting.map UInt64.toNat)
  | .timeout => optionalNumber (settings.timeout.map timeoutNumber)
  | .verbose => .bool settings.verbose
  | .maxLength => optionalNumber (settings.maxLength.map UInt64.toNat)
  | .maxKeys => optionalNumber (settings.maxKeys.map UInt64.toNat)
  | .trailingComma => .bool settings.trailingComma

def text (settings : Settings) : String :=
  String.ofList <|
    '\x7b' :: (Json.membersText (Field.all.map fun field => (field.name, settings.value field)) ++
      ['\x7d'])

def timeoutText (timeout : Option Duration) : String :=
  (optionalNumber (timeout.map timeoutNumber)).compact

end AttributeExchange.Settings
