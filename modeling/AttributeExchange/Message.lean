import AttributeExchange.Json.Basic

/-!
# Messages

A device asks on a request topic and is answered on a response topic. What it asks for is a document
whose only member is a list of keys.
-/

namespace AttributeExchange

/-!
## Topics

Request and response topics end in the decimal id of the request, which is all that ties an answer
to its request.
-/

abbrev RequestId := UInt64

namespace Topic

def requestBase : String := "v1/devices/me/attributes/request/"

def responseBase : String := "v1/devices/me/attributes/response/"

def responseFilter : String := "v1/devices/me/attributes/response/+"

def ofId (base : String) (id : RequestId) : String :=
  base ++ id.toNat.repr

def request (id : RequestId) : String :=
  ofId requestBase id

def response (id : RequestId) : String :=
  ofId responseBase id

def after? (base topic : String) : Option (List Char) :=
  base.toList.isPrefixOf? topic.toList

/-- Whether a topic belongs to the responses, with or without a readable id. -/
def isResponse (topic : String) : Bool :=
  (after? responseBase topic).isSome

/-- The number that a string of ASCII digits spells, if it has 64 bits. -/
def idOfDigits? (digits : List Char) : Option RequestId :=
  if digits.isEmpty || !digits.all Char.isDigit then none
  else
    let value := Nat.ofDigitChars 10 digits 0
    if value < UInt64.size then some value.toUInt64 else none

/-- The id after the base: a plain decimal number and nothing else. -/
def parseId? (base topic : String) : Option RequestId :=
  (after? base topic).bind idOfDigits?

end Topic

/-!
## Faults of a request

Why a request was refused or is lost, and the wording of each reason.
-/

inductive Defect where
  | noKeys
  | membersMissing
  | requestMemberMissing
  | responseMemberMissing
  | idMissing
  | alreadyWaiting (id : RequestId)
  | stated (reason : String)
  deriving DecidableEq, Repr

def Defect.message : Defect → String
  | .noKeys => "no keys to request"
  | .membersMissing => "request and response field are required"
  | .requestMemberMissing => "request field is required"
  | .responseMemberMissing => "response field is required"
  | .idMissing => "request_id is required"
  | .alreadyWaiting id => "request id " ++ id.toNat.repr ++ " is already pending"
  | .stated reason => reason

inductive RequestFault where
  | invalid (defect : Defect)
  | noRoom (limit : Nat)
  | notSubscribed (filter : String)
  | notSent (id : RequestId)
  | noId
  | keyMissing (id : RequestId)
  | listOverLimit (length limit : Nat)
  | keysOverLimit (count limit : Nat)
  deriving DecidableEq, Repr

def RequestFault.message : RequestFault → String
  | .invalid defect => "Invalid request: " ++ defect.message
  | .noRoom limit =>
    "Maximum of " ++ limit.repr ++ " pending attribute requests exceeded"
  | .notSubscribed filter => "Failed to subscribe to topic (" ++ filter ++ ")"
  | .notSent id => "Failed to send attribute request " ++ id.toNat.repr
  | .noId => "Request id source unavailable"
  | .keyMissing id => "Pending attribute request " ++ id.toNat.repr ++ " has no response key"
  | .listOverLimit length limit =>
    "Requested keys need " ++ length.repr ++ " bytes, limit is " ++ limit.repr
  | .keysOverLimit count limit =>
    count.repr ++ " attribute keys requested, limit is " ++ limit.repr

/-!
## Key lists

The keys of a request travel as one string with commas. Empty keys are left out. The string may have
a limit in bytes, which every key is held against as soon as it is in.
-/

namespace KeyList

/-- How keys are joined: whether a comma also follows the last key, and how many bytes the joined
string may have. -/
structure Layout where
  trailingComma : Bool
  limit : Option Nat
  deriving DecidableEq, Repr

def isUsable (key : String) : Bool :=
  !key.isEmpty

def anyUsable (keys : List String) : Bool :=
  keys.any isUsable

/-- The outcome of joining keys, and how many empty keys were left out on the way. -/
structure Joined where
  result : Except RequestFault String
  skipped : Nat

namespace Layout

def append (layout : Layout) (joined key : String) : String :=
  if layout.trailingComma then joined ++ key ++ ","
  else if joined.isEmpty then key
  else joined ++ "," ++ key

def excess? (layout : Layout) (joined : String) : Option RequestFault :=
  match layout.limit with
  | none => none
  | some limit =>
    if limit < joined.utf8ByteSize then some (.listOverLimit joined.utf8ByteSize limit) else none

/-- Joins keys onto a string, counting the empty ones. It stops at the first key that makes the
string too long. -/
def joinOnto (layout : Layout) : String → Nat → List String → Joined
  | joined, skipped, [] =>
    ⟨if joined.isEmpty then .error (.invalid .noKeys) else .ok joined, skipped⟩
  | joined, skipped, key :: keys =>
    if isUsable key then
      let joined := layout.append joined key
      match layout.excess? joined with
      | some fault => ⟨.error fault, skipped⟩
      | none => layout.joinOnto joined skipped keys
    else layout.joinOnto joined (skipped + 1) keys

def join (layout : Layout) (keys : List String) : Joined :=
  layout.joinOnto "" 0 keys

end Layout

end KeyList

/-!
## Drafts of a request

A draft gathers what a request needs, change by change; a later change of a field replaces the
earlier one. A finished request is its topic and a document whose only member is the list of keys.
-/

inductive Scope where
  | client
  | shared
  deriving DecidableEq, Repr

namespace Scope

def name : Scope → String
  | .client => "client"
  | .shared => "shared"

def ofName? (name : String) : Option Scope :=
  if name = "client" then some .client
  else if name = "shared" then some .shared
  else none

def requestMember : Scope → String
  | .client => "clientKeys"
  | .shared => "sharedKeys"

def responseMember : Scope → String
  | .client => "client"
  | .shared => "shared"

end Scope

structure Publication where
  id : RequestId
  topic : String
  payload : Json
  deriving DecidableEq, Repr

structure Draft where
  keys : List String
  id : Option RequestId
  requestMember : Option String
  responseMember : Option String
  layout : KeyList.Layout
  /-- Whether empty keys are reported. -/
  verbose : Bool
  deriving DecidableEq, Repr

namespace Draft

/-- A draft with nothing set: a comma after every key, no limit, silent. -/
def empty : Draft :=
  ⟨[], none, none, none, ⟨true, none⟩, false⟩

inductive Change where
  | keys (keys : List String)
  | id (id : RequestId)
  | scope (scope : Scope)
  | requestMember (field : String)
  | responseMember (field : String)
  | trailingComma (wanted : Bool)
  | limit (limit : Option Nat)
  | verbose (wanted : Bool)
  deriving DecidableEq, Repr

def change (draft : Draft) : Change → Draft
  | .keys keys => { draft with keys }
  | .id id => { draft with id := some id }
  | .scope scope =>
    { draft with
      requestMember := some scope.requestMember
      responseMember := some scope.responseMember }
  | .requestMember field => { draft with requestMember := some field }
  | .responseMember field => { draft with responseMember := some field }
  | .trailingComma wanted => { draft with layout.trailingComma := wanted }
  | .limit limit => { draft with layout.limit := limit }
  | .verbose wanted => { draft with verbose := wanted }

def ofChanges (changes : List Change) : Draft :=
  changes.foldl change empty

def joined (draft : Draft) : KeyList.Joined :=
  draft.layout.join draft.keys

def payload (draft : Draft) : Except RequestFault Json :=
  match draft.requestMember, draft.responseMember with
  | none, _ => .error (.invalid .requestMemberMissing)
  | some _, none => .error (.invalid .responseMemberMissing)
  | some field, some _ => draft.joined.result.map fun keys => .object [(field, .string keys)]

def publication (draft : Draft) : Except RequestFault Publication :=
  match draft.id with
  | none => .error (.invalid .idMissing)
  | some id => draft.payload.map fun payload => ⟨id, Topic.request id, payload⟩

def reported (draft : Draft) : Nat :=
  if draft.verbose && draft.requestMember.isSome && draft.responseMember.isSome then
    draft.joined.skipped
  else 0

end Draft

end AttributeExchange
