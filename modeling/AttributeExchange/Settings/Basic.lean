import AttributeExchange.Message
import AttributeExchange.Pending

/-!
# Settings of an inquirer

Capacity, default timeout, limits and verbosity. Bounds are 64-bit numbers, as they are in the text
form.
-/

namespace AttributeExchange

structure Settings where
  /-- How many requests may wait at once; no bound if missing. -/
  maxWaiting : Option UInt64
  /-- The timeout of requests that bring none of their own; no timeout if missing. -/
  timeout : Option Duration
  verbose : Bool
  /-- The limit of the joined keys in bytes. -/
  maxLength : Option UInt64
  /-- The limit of the number of keys in one request. -/
  maxKeys : Option UInt64
  trailingComma : Bool
  deriving DecidableEq

namespace Settings

def default : Settings :=
  ⟨none, some (.ofSeconds 5), false, none, none, true⟩

instance : Inhabited Settings := ⟨default⟩

def atMost (maxWaiting : UInt64) : Settings :=
  { default with maxWaiting := some maxWaiting }

def capacity (settings : Settings) : Capacity :=
  match settings.maxWaiting with
  | none => .unlimited
  | some limit => .atMost limit.toNat

def excessKeys? (settings : Settings) (keys : List String) : Option RequestFault :=
  match settings.maxKeys with
  | none => none
  | some limit =>
    if limit.toNat < keys.length then some (.keysOverLimit keys.length limit.toNat) else none

def layout (settings : Settings) : KeyList.Layout :=
  ⟨settings.trailingComma, settings.maxLength.map UInt64.toNat⟩

def draft (settings : Settings) (keys : List String) (requestMember responseMember : String) :
    Draft :=
  ⟨keys, none, some requestMember, some responseMember, settings.layout, settings.verbose⟩

def timeoutOf (settings : Settings) (inquiry : Inquiry) : Option Duration :=
  inquiry.timeout.or settings.timeout

end Settings

end AttributeExchange
