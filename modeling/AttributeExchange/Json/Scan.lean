/-!
# Scanning JSON text

The text of a document is a list of bytes. A scanner takes what it recognises off the front and
returns it with the rest of the text.
-/

namespace AttributeExchange

namespace Json

/-! ## Errors -/

inductive ReadError where
  | endInValue
  | endInObject
  | endInList
  | endInString
  | expectedValue
  | expectedLiteral
  | expectedCommaOrBracket
  | expectedCommaOrBrace
  | expectedColon
  | nameNotString
  | trailingComma
  | trailingCharacters
  | invalidNumber
  | numberOutOfRange
  | invalidEscape
  | endInHexEscape
  | loneSurrogate
  | controlCharacter
  | invalidCodePoint
  | nestedTooDeep
  deriving DecidableEq, Repr, Inhabited

def ReadError.message : ReadError → String
  | .endInValue => "EOF while parsing a value"
  | .endInObject => "EOF while parsing an object"
  | .endInList => "EOF while parsing a list"
  | .endInString => "EOF while parsing a string"
  | .expectedValue => "expected value"
  | .expectedLiteral => "expected ident"
  | .expectedCommaOrBracket => "expected `,` or `]`"
  | .expectedCommaOrBrace => "expected `,` or `\x7d`"
  | .expectedColon => "expected `:`"
  | .nameNotString => "key must be a string"
  | .trailingComma => "trailing comma"
  | .trailingCharacters => "trailing characters"
  | .invalidNumber => "invalid number"
  | .numberOutOfRange => "number out of range"
  | .invalidEscape => "invalid escape"
  | .endInHexEscape => "unexpected end of hex escape"
  | .loneSurrogate => "lone leading surrogate in hex escape"
  | .controlCharacter => "control character (\\u0000-\\u001F) found while parsing a string"
  | .invalidCodePoint => "invalid unicode code point"
  | .nestedTooDeep => "recursion limit exceeded"

end Json

/-! ## Scanners -/

/-- A text as it travels: bytes that need not be valid UTF-8. -/
abbrev Bytes := List UInt8

def utf8 (text : String) : Bytes :=
  text.toByteArray.data.toList

def ofUtf8? (bytes : Bytes) : Option String :=
  String.fromUTF8? ⟨bytes.toArray⟩

theorem ofUtf8?_utf8 (text : String) : ofUtf8? (utf8 text) = some text := by
  have h : (⟨(utf8 text).toArray⟩ : ByteArray) = text.toByteArray := by simp [utf8]
  rw [ofUtf8?, h]
  simp [String.fromUTF8?, String.fromUTF8, text.isValidUTF8]

def ascii (c : Char) : UInt8 :=
  c.toUInt8

namespace Json

/-- What a scanner takes off the front of a text, and the rest. -/
abbrev Scanner (α : Type) := Bytes → Except ReadError (α × Bytes)

def isBlank (b : UInt8) : Bool :=
  b = ascii ' ' || b = ascii '\t' || b = ascii '\n' || b = ascii '\r'

def skipBlanks (s : Bytes) : Bytes :=
  s.dropWhile isBlank

/-- The remaining letters of a literal whose first letter has been taken. -/
def scanLetters : List Char → Bytes → Except ReadError Bytes
  | [], s => .ok s
  | _ :: _, [] => .error .endInValue
  | c :: letters, b :: s => if b = ascii c then scanLetters letters s else .error .expectedLiteral

def scanEnd (s : Bytes) : Except ReadError Unit :=
  match skipBlanks s with
  | [] => .ok ()
  | _ :: _ => .error .trailingCharacters

def scanColon (s : Bytes) : Except ReadError Bytes :=
  match skipBlanks s with
  | [] => .error .endInObject
  | b :: rest => if b = ascii ':' then .ok rest else .error .expectedColon

/-!
## String literals

Scanning a string after its opening quote. Escapes stand for UTF-8 bytes, and only the closing quote
asks whether the bytes are valid UTF-8, so any other fault before it is reported first.
-/

namespace StringLiteral

def hexDigit? (b : UInt8) : Option Nat :=
  if ascii '0' ≤ b && b ≤ ascii '9' then some (b.toNat - 48)
  else if ascii 'a' ≤ b && b ≤ ascii 'f' then some (b.toNat - 87)
  else if ascii 'A' ≤ b && b ≤ ascii 'F' then some (b.toNat - 55)
  else none

def scanUnit : Scanner Nat
  | a :: b :: c :: d :: rest =>
    match hexDigit? a, hexDigit? b, hexDigit? c, hexDigit? d with
    | some a, some b, some c, some d => .ok (((a * 16 + b) * 16 + c) * 16 + d, rest)
    | _, _, _, _ => .error .invalidEscape
  | _ => .error .endInString

def isLeading (unit : Nat) : Bool :=
  0xD800 ≤ unit && unit ≤ 0xDBFF

def isTrailing (unit : Nat) : Bool :=
  0xDC00 ≤ unit && unit ≤ 0xDFFF

def encode (codePoint : Nat) : Bytes :=
  String.utf8EncodeChar (Char.ofNat codePoint)

def scanPair (leading : Nat) : Scanner Bytes
  | [] => .error .endInString
  | b :: rest =>
    if b ≠ ascii '\\' then .error .endInHexEscape
    else match rest with
      | [] => .error .endInString
      | c :: rest =>
        if c ≠ ascii 'u' then .error .endInHexEscape
        else do
          let (trailing, rest) ← scanUnit rest
          if isTrailing trailing then
            .ok (encode (0x10000 + (leading - 0xD800) * 0x400 + (trailing - 0xDC00)), rest)
          else .error .loneSurrogate

def scanCodePoint : Scanner Bytes := fun s => do
  let (unit, rest) ← scanUnit s
  if isTrailing unit then .error .loneSurrogate
  else if isLeading unit then scanPair unit rest
  else .ok (encode unit, rest)

def escaped? (b : UInt8) : Option UInt8 :=
  if b = ascii '\x22' then some (ascii '\x22')
  else if b = ascii '\\' then some (ascii '\\')
  else if b = ascii '/' then some (ascii '/')
  else if b = ascii 'b' then some 0x08
  else if b = ascii 'f' then some 0x0C
  else if b = ascii 'n' then some 0x0A
  else if b = ascii 'r' then some 0x0D
  else if b = ascii 't' then some 0x09
  else none

def scanEscape : Scanner Bytes
  | [] => .error .endInString
  | b :: rest =>
    match escaped? b with
    | some byte => .ok ([byte], rest)
    | none => if b = ascii 'u' then scanCodePoint rest else .error .invalidEscape

/-- The bytes up to the closing quote. Each turn takes at least one byte, so as many turns as there
are bytes suffice. -/
def scanContent : Nat → Scanner Bytes
  | 0, _ => .error .endInString
  | _ + 1, [] => .error .endInString
  | turns + 1, b :: rest =>
    if b = ascii '\x22' then .ok ([], rest)
    else if b = ascii '\\' then do
      let (bytes, rest) ← scanEscape rest
      let (more, rest) ← scanContent turns rest
      return (bytes ++ more, rest)
    else if b < 0x20 then .error .controlCharacter
    else do
      let (more, rest) ← scanContent turns rest
      return (b :: more, rest)

def scan : Scanner String := fun s => do
  let (bytes, rest) ← scanContent s.length s
  match ofUtf8? bytes with
  | some text => .ok (text, rest)
  | none => .error .invalidCodePoint

/-! ### Strings that are passed over -/

/-- Passes over what follows a backslash; units are not paired. -/
def skipEscape : Bytes → Except ReadError Bytes
  | [] => .error .endInString
  | b :: rest =>
    match escaped? b with
    | some _ => .ok rest
    | none =>
      if b = ascii 'u' then (scanUnit rest).map (·.2) else .error .invalidEscape

def skipContent : Nat → Bytes → Except ReadError Bytes
  | 0, _ => .error .endInString
  | _ + 1, [] => .error .endInString
  | turns + 1, b :: rest =>
    if b = ascii '\x22' then .ok rest
    else if b = ascii '\\' then do skipContent turns (← skipEscape rest)
    else if b < 0x20 then .error .controlCharacter
    else skipContent turns rest

def skip (s : Bytes) : Except ReadError Bytes :=
  skipContent s.length s

end StringLiteral

end Json

end AttributeExchange
