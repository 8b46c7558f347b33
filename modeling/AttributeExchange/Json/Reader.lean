import AttributeExchange.Json.Basic
import AttributeExchange.Json.Scan

/-!
# Reading JSON documents

A text is one document with blanks around it, or a value that nobody asked for and that is only
checked for its form.
-/

namespace AttributeExchange.Json

/-!
## Numerals

A numeral is scanned as digits first and given a value afterwards. A plain integer that fits 64 bits
stays an integer; every other numeral is a double.
-/

/-- A written number. Only a numeral with a point has digits in its fraction. -/
structure Numeral where
  negative : Bool
  whole : List Nat
  fraction : List Nat
  exponent : Option Int
  deriving DecidableEq, Repr

namespace Numeral

/-! ### Scanning -/

def isDigit (b : UInt8) : Bool :=
  ascii '0' ≤ b && b ≤ ascii '9'

def digitValue (b : UInt8) : Nat :=
  b.toNat - 48

def scanDigits (s : Bytes) : List Nat × Bytes :=
  ((s.takeWhile isDigit).map digitValue, s.dropWhile isDigit)

/-- A run of digits that must not be empty. At the end of the text its absence is reported as
`atEnd`. -/
def scanSomeDigits (atEnd : ReadError) (s : Bytes) : Except ReadError (List Nat × Bytes) :=
  match scanDigits s with
  | ([], []) => .error atEnd
  | ([], _ :: _) => .error .invalidNumber
  | found => .ok found

/-- The digits before the point: a zero has no digit after it. -/
def scanWhole (atEnd : ReadError) (s : Bytes) : Except ReadError (List Nat × Bytes) := do
  let (digits, rest) ← scanSomeDigits atEnd s
  match digits with
  | 0 :: _ :: _ => .error .invalidNumber
  | _ => .ok (digits, rest)

def scanFraction (atEnd : ReadError) (s : Bytes) : Except ReadError (List Nat × Bytes) :=
  match s with
  | [] => .ok ([], [])
  | b :: rest => if b = ascii '.' then scanSomeDigits atEnd rest else .ok ([], b :: rest)

def ofDigits (digits : List Nat) : Nat :=
  digits.foldl (fun n d => 10 * n + d) 0

def scanSigned (atEnd : ReadError) (s : Bytes) : Except ReadError (Int × Bytes) :=
  match s with
  | [] => .error atEnd
  | b :: rest =>
    if b = ascii '-' then
      (scanSomeDigits atEnd rest).map fun (digits, rest) => (-(ofDigits digits : Int), rest)
    else
      (scanSomeDigits atEnd (if b = ascii '+' then rest else s)).map
        fun (digits, rest) => ((ofDigits digits : Int), rest)

def scanExponent (atEnd : ReadError) (s : Bytes) : Except ReadError (Option Int × Bytes) :=
  match s with
  | [] => .ok (none, [])
  | b :: rest =>
    if b = ascii 'e' || b = ascii 'E' then
      (scanSigned atEnd rest).map fun (exponent, rest) => (some exponent, rest)
    else .ok (none, b :: rest)

def scan (atEnd : ReadError) (negative : Bool) (s : Bytes) :
    Except ReadError (Numeral × Bytes) := do
  let (whole, s) ← scanWhole atEnd s
  let (fraction, s) ← scanFraction atEnd s
  let (exponent, s) ← scanExponent atEnd s
  return (⟨negative, whole, fraction, exponent⟩, s)

/-! ### Value -/

/-- Appends digits as long as the number has 64 bits; the digits left over come second. -/
def absorb (n : Nat) : List Nat → Nat × List Nat
  | [] => (n, [])
  | d :: digits =>
    if 10 * n + d < UInt64.size then absorb (10 * n + d) digits else (n, d :: digits)

/-- The double a numeral is read as: at most 64 bits of digits count, the others of the whole part
only scale it. -/
def double? (numeral : Numeral) : Option UInt64 :=
  let (whole, dropped) := absorb 0 numeral.whole
  let (significand, ignored) := absorb whole numeral.fraction
  let places : Int := numeral.fraction.length - ignored.length
  Double.ofDecimal? numeral.negative significand
    (dropped.length - places + numeral.exponent.getD 0)

/-- The integer a numeral stands for, if it is a plain integer of 64 bits. Minus zero is none. -/
def integer? (numeral : Numeral) : Option Int :=
  if numeral.fraction = [] && numeral.exponent = none then
    let magnitude := ofDigits numeral.whole
    if numeral.negative then
      if 0 < magnitude && magnitude ≤ Int64.size / 2 then some (-magnitude) else none
    else if magnitude < UInt64.size then some magnitude else none
  else none

def value (numeral : Numeral) : Except ReadError Json :=
  match numeral.integer? with
  | some n => .ok (.integer n)
  | none =>
    match numeral.double? with
    | some bits => .ok (.double bits)
    | none => .error .numberOutOfRange

end Numeral

/-- A number that starts with a digit or, if `negative`, after a minus sign. -/
def scanNumber (negative : Bool) : Scanner Json := fun s => do
  let (numeral, rest) ← Numeral.scan .endInValue negative s
  return (← numeral.value, rest)

/-!
## Documents

Documents nest at most 127 deep; the reader counts the levels that are left, and its recursion is on
that count.
-/

/-! ### Lists and objects over a reader for what they hold -/

/-- The elements that follow, each after the comma that announced it. Every element takes at least
one byte, so as many turns as there are bytes suffice. -/
def scanElements (element : Scanner Json) : Nat → Scanner (List Json)
  | 0, _ => .error .endInList
  | turns + 1, s => do
    let (first, s) ← element s
    match skipBlanks s with
    | [] => .error .endInList
    | b :: rest =>
      if b = ascii ']' then .ok ([first], rest)
      else if b = ascii ',' then
        match skipBlanks rest with
        | [] => .error .endInValue
        | c :: rest =>
          if c = ascii ']' then .error .trailingComma
          else do
            let (more, s) ← scanElements element turns (c :: rest)
            return (first :: more, s)
      else .error .expectedCommaOrBracket

def scanList (element : Scanner Json) : Scanner (List Json) := fun s =>
  match skipBlanks s with
  | [] => .error .endInList
  | b :: rest =>
    if b = ascii ']' then .ok ([], rest) else scanElements element (b :: rest).length (b :: rest)

def scanMembers (element : Scanner Json) : Nat → Scanner (List (String × Json))
  | 0, _ => .error .endInObject
  | _ + 1, [] => .error .endInValue
  | turns + 1, b :: s =>
    if b ≠ ascii '\x22' then .error .nameNotString
    else do
      let (name, s) ← StringLiteral.scan s
      let (value, s) ← element (← scanColon s)
      match skipBlanks s with
      | [] => .error .endInObject
      | b :: rest =>
        if b = ascii '\x7d' then .ok ([(name, value)], rest)
        else if b = ascii ',' then
          match skipBlanks rest with
          | [] => .error .endInValue
          | c :: rest =>
            if c = ascii '\x7d' then .error .trailingComma
            else do
              let (more, s) ← scanMembers element turns (c :: rest)
              return ((name, value) :: more, s)
        else .error .expectedCommaOrBrace

def scanObject (element : Scanner Json) : Scanner (List (String × Json)) := fun s =>
  match skipBlanks s with
  | [] => .error .endInObject
  | b :: rest =>
    if b = ascii '\x7d' then .ok ([], rest) else scanMembers element (b :: rest).length (b :: rest)

/-! ### Whole documents -/

/-- A document over a reader for what it holds; without one, lists and objects nest too deep. -/
def scanDocument (element : Option (Scanner Json)) : Scanner Json := fun s =>
  match skipBlanks s with
  | [] => .error .endInValue
  | b :: rest =>
    if b = ascii 'n' then (scanLetters ['u', 'l', 'l'] rest).map (.null, ·)
    else if b = ascii 't' then (scanLetters ['r', 'u', 'e'] rest).map (.bool true, ·)
    else if b = ascii 'f' then (scanLetters ['a', 'l', 's', 'e'] rest).map (.bool false, ·)
    else if b = ascii '-' then scanNumber true rest
    else if Numeral.isDigit b then scanNumber false (b :: rest)
    else if b = ascii '\x22' then (StringLiteral.scan rest).map fun (text, s) => (.string text, s)
    else if b = ascii '[' then
      match element with
      | none => .error .nestedTooDeep
      | some element => (scanList element rest).map fun (elements, s) => (.array elements, s)
    else if b = ascii '\x7b' then
      match element with
      | none => .error .nestedTooDeep
      | some element => (scanObject element rest).map fun (members, s) => (ofMembers members, s)
    else .error .expectedValue

def scanNested : Nat → Scanner Json
  | 0 => scanDocument none
  | levels + 1 => scanDocument (some (scanNested levels))

def nestingLimit : Nat := 127

def readNested (levels : Nat) (s : Bytes) : Except ReadError Json := do
  let (document, rest) ← scanNested levels s
  scanEnd rest
  return document

def read (s : Bytes) : Except ReadError Json :=
  readNested nestingLimit s

/-!
## Passing over documents

A value that nobody asked for is only checked for its form: numbers are not computed, strings are
not decoded, and nesting has no limit. A closer after a comma is met where the next value or name
was expected and is reported as such.
-/

def skipElements (element : Bytes → Except ReadError Bytes) : Nat → Bytes → Except ReadError Bytes
  | 0, _ => .error .endInList
  | turns + 1, s => do
    match skipBlanks (← element s) with
    | [] => .error .endInList
    | b :: rest =>
      if b = ascii ']' then .ok rest
      else if b = ascii ',' then skipElements element turns rest
      else .error .expectedCommaOrBracket

def skipList (element : Bytes → Except ReadError Bytes) (s : Bytes) : Except ReadError Bytes :=
  match skipBlanks s with
  | [] => .error .endInList
  | b :: rest =>
    if b = ascii ']' then .ok rest else skipElements element (b :: rest).length (b :: rest)

def skipMembers (element : Bytes → Except ReadError Bytes) : Nat → Bytes → Except ReadError Bytes
  | 0, _ => .error .endInObject
  | turns + 1, s =>
    match skipBlanks s with
    | [] => .error .endInObject
    | b :: rest =>
      if b ≠ ascii '\x22' then .error .nameNotString
      else do
        let rest ← scanColon (← StringLiteral.skip rest)
        match skipBlanks (← element rest) with
        | [] => .error .endInObject
        | b :: rest =>
          if b = ascii '\x7d' then .ok rest
          else if b = ascii ',' then skipMembers element turns rest
          else .error .expectedCommaOrBrace

def skipObject (element : Bytes → Except ReadError Bytes) (s : Bytes) : Except ReadError Bytes :=
  match skipBlanks s with
  | [] => .error .endInObject
  | b :: rest =>
    if b = ascii '\x7d' then .ok rest else skipMembers element (b :: rest).length (b :: rest)

def skipNested : Nat → Bytes → Except ReadError Bytes
  | 0, _ => .error .endInValue
  | levels + 1, s =>
    match skipBlanks s with
    | [] => .error .endInValue
    | b :: rest =>
      if b = ascii 'n' then scanLetters ['u', 'l', 'l'] rest
      else if b = ascii 't' then scanLetters ['r', 'u', 'e'] rest
      else if b = ascii 'f' then scanLetters ['a', 'l', 's', 'e'] rest
      else if b = ascii '-' then (Numeral.scan .invalidNumber true rest).map (·.2)
      else if Numeral.isDigit b then (Numeral.scan .invalidNumber false (b :: rest)).map (·.2)
      else if b = ascii '\x22' then StringLiteral.skip rest
      else if b = ascii '[' then skipList (skipNested levels) rest
      else if b = ascii '\x7b' then skipObject (skipNested levels) rest
      else .error .expectedValue

/-- Passes over one document. Every level of nesting takes a byte, so the length of the text is no
limit. -/
def skipDocument (s : Bytes) : Except ReadError Bytes :=
  skipNested (s.length + 1) s

end AttributeExchange.Json
