import AttributeExchange.Json.Basic
import AttributeExchange.Json.Reader
import AttributeExchange.Json.Scan
import AttributeExchange.Settings.Printer
import AttributeExchange.Text.Quoted

/-!
# Reading settings

The text form is an object whose members may come in any order, or a list of values in the order of
the fields. Members of other names are passed over. What a text leaves out keeps its default.
-/

namespace AttributeExchange.Settings

/-! ## Errors -/

inductive Found where
  | integer (value : Int)
  | double (bits : UInt64)
  | bool (value : Bool)
  | text (value : String)
  | null
  | list
  | object
  deriving DecidableEq, Repr

def Found.message : Found → String
  | .integer n => "integer `" ++ (if n < 0 then "-" else "") ++ n.natAbs.repr ++ "`"
  | .double bits => "floating point `" ++ String.ofList (Json.Double.text bits) ++ "`"
  | .bool value => "boolean `" ++ (if value then "true" else "false") ++ "`"
  | .text value => "string " ++ Text.quoted value
  | .null => "null"
  | .list => "sequence"
  | .object => "map"

inductive Wanted where
  | bound
  | millis
  | flag
  | settings
  deriving DecidableEq, Repr

def Wanted.message : Wanted → String
  | .bound => "usize"
  | .millis => "u64"
  | .flag => "a boolean"
  | .settings => "struct RequestConfig"

inductive ReadError where
  | malformed (cause : Json.ReadError)
  | wrongType (found : Found) (wanted : Wanted)
  | wrongValue (found : Found) (wanted : Wanted)
  | duplicate (field : Field)
  deriving DecidableEq, Repr

def ReadError.message : ReadError → String
  | .malformed cause => cause.message
  | .wrongType found wanted =>
    "invalid type: " ++ found.message ++ ", expected " ++ wanted.message
  | .wrongValue found wanted =>
    "invalid value: " ++ found.message ++ ", expected " ++ wanted.message
  | .duplicate field => "duplicate field `" ++ field.name ++ "`"

open AttributeExchange.Json (skipBlanks scanLetters scanColon scanNumber)

def lift {α : Type} (scanned : Except Json.ReadError α) : Except ReadError α :=
  scanned.mapError .malformed

/-! ## Values -/

def Found.ofNumber : Json → Found
  | .integer n => .integer n
  | .double bits => .double bits
  | _ => .null

/-- The error of a value of the wrong type. The value is read first, and its own faults count
more. -/
def mistyped (wanted : Wanted) : Bytes → ReadError
  | [] => .malformed .expectedValue
  | b :: rest =>
    let judge {α : Type} (found : α → Found) (scanned : Except Json.ReadError α) : ReadError :=
      match scanned with
      | .error cause => .malformed cause
      | .ok value => .wrongType (found value) wanted
    if b = ascii 'n' then judge (fun _ => .null) (scanLetters ['u', 'l', 'l'] rest)
    else if b = ascii 't' then judge (fun _ => .bool true) (scanLetters ['r', 'u', 'e'] rest)
    else if b = ascii 'f' then judge (fun _ => .bool false) (scanLetters ['a', 'l', 's', 'e'] rest)
    else if b = ascii '-' then judge (fun found => .ofNumber found.1) (scanNumber true rest)
    else if Json.Numeral.isDigit b then
      judge (fun found => .ofNumber found.1) (scanNumber false (b :: rest))
    else if b = ascii '\x22' then judge (fun found => .text found.1) (Json.StringLiteral.scan rest)
    else if b = ascii '[' then .wrongType .list wanted
    else if b = ascii '\x7b' then .wrongType .object wanted
    else .malformed .expectedValue

def natural (wanted : Wanted) : Json → Except ReadError UInt64
  | .integer n =>
    if n < 0 then .error (.wrongValue (.integer n) wanted) else .ok n.toNat.toUInt64
  | document => .error (.wrongType (.ofNumber document) wanted)

def scanNatural (wanted : Wanted) (s : Bytes) : Except ReadError (UInt64 × Bytes) :=
  match skipBlanks s with
  | [] => .error (.malformed .endInValue)
  | b :: rest =>
    if b = ascii '-' then do
      let (document, rest) ← lift (scanNumber true rest)
      return (← natural wanted document, rest)
    else if Json.Numeral.isDigit b then do
      let (document, rest) ← lift (scanNumber false (b :: rest))
      return (← natural wanted document, rest)
    else .error (mistyped wanted (b :: rest))

def scanOptional (wanted : Wanted) (s : Bytes) : Except ReadError (Option UInt64 × Bytes) :=
  match skipBlanks s with
  | [] => .error (.malformed .endInValue)
  | b :: rest =>
    if b = ascii 'n' then
      lift ((scanLetters ['u', 'l', 'l'] rest).map fun rest => (none, rest))
    else (scanNatural wanted (b :: rest)).map fun (n, rest) => (some n, rest)

def scanFlag (s : Bytes) : Except ReadError (Bool × Bytes) :=
  match skipBlanks s with
  | [] => .error (.malformed .endInValue)
  | b :: rest =>
    if b = ascii 't' then lift ((scanLetters ['r', 'u', 'e'] rest).map fun rest => (true, rest))
    else if b = ascii 'f' then
      lift ((scanLetters ['a', 'l', 's', 'e'] rest).map fun rest => (false, rest))
    else .error (mistyped .flag (b :: rest))

/-! ## Fields -/

def scanField (overlay : Overlay) (s : Bytes) : Field → Except ReadError (Overlay × Bytes)
  | .maxWaiting =>
    (scanOptional .bound s).map fun (v, s) => ({ overlay with maxWaiting := some v }, s)
  | .timeout =>
    (scanOptional .millis s).map fun (v, s) => ({ overlay with timeout := some v }, s)
  | .verbose => (scanFlag s).map fun (v, s) => ({ overlay with verbose := some v }, s)
  | .maxLength =>
    (scanOptional .bound s).map fun (v, s) => ({ overlay with maxLength := some v }, s)
  | .maxKeys =>
    (scanOptional .bound s).map fun (v, s) => ({ overlay with maxKeys := some v }, s)
  | .trailingComma => (scanFlag s).map fun (v, s) => ({ overlay with trailingComma := some v }, s)

/-- A member after its name. A field that was set before is refused at its name. -/
def scanMember (overlay : Overlay) (name : String) (s : Bytes) :
    Except ReadError (Overlay × Bytes) :=
  match Field.ofName? name with
  | some field =>
    if overlay.has field then .error (.duplicate field)
    else do scanField overlay (← lift (scanColon s)) field
  | none => do
    let s ← lift (scanColon s)
    return (overlay, ← lift (Json.skipDocument s))

def scanMembers : Nat → Overlay → Bytes → Except ReadError (Overlay × Bytes)
  | 0, _, _ => .error (.malformed .endInObject)
  | _ + 1, _, [] => .error (.malformed .endInValue)
  | turns + 1, overlay, b :: s =>
    if b ≠ ascii '\x22' then .error (.malformed .nameNotString)
    else do
      let (name, s) ← lift (Json.StringLiteral.scan s)
      let (overlay, s) ← scanMember overlay name s
      match skipBlanks s with
      | [] => .error (.malformed .endInObject)
      | b :: rest =>
        if b = ascii '\x7d' then .ok (overlay, rest)
        else if b = ascii ',' then
          match skipBlanks rest with
          | [] => .error (.malformed .endInValue)
          | c :: rest =>
            if c = ascii '\x7d' then .error (.malformed .trailingComma)
            else scanMembers turns overlay (c :: rest)
        else .error (.malformed .expectedCommaOrBrace)

def scanObject (s : Bytes) : Except ReadError (Overlay × Bytes) :=
  match skipBlanks s with
  | [] => .error (.malformed .endInObject)
  | b :: rest =>
    if b = ascii '\x7d' then .ok (.empty, rest)
    else scanMembers (b :: rest).length .empty (b :: rest)

/-- The closing bracket, when no further value is wanted. -/
def scanListEnd (s : Bytes) : Except ReadError Bytes :=
  match skipBlanks s with
  | [] => .error (.malformed .endInList)
  | b :: rest =>
    if b = ascii ']' then .ok rest
    else if b = ascii ',' then
      match skipBlanks rest with
      | [] => .error (.malformed .trailingCharacters)
      | c :: _ =>
        if c = ascii ']' then .error (.malformed .trailingComma)
        else .error (.malformed .trailingCharacters)
    else .error (.malformed .trailingCharacters)

def scanFurther : List Field → Overlay → Bytes → Except ReadError (Overlay × Bytes)
  | [], overlay, s => do return (overlay, ← scanListEnd s)
  | field :: fields, overlay, s =>
    match skipBlanks s with
    | [] => .error (.malformed .endInList)
    | b :: rest =>
      if b = ascii ']' then .ok (overlay, rest)
      else if b = ascii ',' then
        match skipBlanks rest with
        | [] => .error (.malformed .endInValue)
        | c :: rest =>
          if c = ascii ']' then .error (.malformed .trailingComma)
          else do
            let (overlay, s) ← scanField overlay (c :: rest) field
            scanFurther fields overlay s
      else .error (.malformed .expectedCommaOrBracket)

def scanList (s : Bytes) : Except ReadError (Overlay × Bytes) :=
  match skipBlanks s with
  | [] => .error (.malformed .endInList)
  | b :: rest =>
    if b = ascii ']' then .ok (.empty, rest)
    else do
      let (overlay, s) ← scanField .empty (b :: rest) .maxWaiting
      scanFurther Field.all.tail overlay s

/-! ## Whole texts -/

def whole {α : Type} (scanned : Except ReadError (α × Bytes)) : Except ReadError α := do
  let (value, rest) ← scanned
  lift (Json.scanEnd rest)
  return value

def scanOverlay (s : Bytes) : Except ReadError (Overlay × Bytes) :=
  match skipBlanks s with
  | [] => .error (.malformed .endInValue)
  | b :: rest =>
    if b = ascii '\x7b' then scanObject rest
    else if b = ascii '[' then scanList rest
    else .error (mistyped .settings (b :: rest))

def read (s : Bytes) : Except ReadError Settings :=
  (whole (scanOverlay s)).map fun overlay => overlay.onto default

def readTimeout (s : Bytes) : Except ReadError Duration :=
  (whole (scanNatural .millis s)).map fun n => Duration.ofMillis n.toNat

def readOptionalTimeout (s : Bytes) : Except ReadError (Option Duration) :=
  (whole (scanOptional .millis s)).map fun n => n.map fun n => Duration.ofMillis n.toNat

end AttributeExchange.Settings
