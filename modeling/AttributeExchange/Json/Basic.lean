/-!
# JSON documents

Documents as values, and how they are written. An object is a list of members in the order of their
names, each name once, so two documents with the same members are equal.
-/

namespace AttributeExchange

/-- A JSON document. A number is an integer or the bits of a double. -/
inductive Json where
  | null
  | bool (value : Bool)
  | integer (value : Int)
  | double (bits : UInt64)
  | string (value : String)
  | array (elements : List Json)
  | object (members : List (String × Json))
  deriving Inhabited, Repr

namespace Json

/-! ## Equality -/

mutual

def decEq : (a b : Json) → Decidable (a = b)
  | .null, .null => isTrue rfl
  | .bool a, .bool b => decidable_of_iff (a = b) (by simp)
  | .integer a, .integer b => decidable_of_iff (a = b) (by simp)
  | .double a, .double b => decidable_of_iff (a = b) (by simp)
  | .string a, .string b => decidable_of_iff (a = b) (by simp)
  | .array as, .array bs =>
    match decEqElements as bs with
    | isTrue h => isTrue (by rw [h])
    | isFalse h => isFalse (by simpa using h)
  | .object as, .object bs =>
    match decEqMembers as bs with
    | isTrue h => isTrue (by rw [h])
    | isFalse h => isFalse (by simpa using h)
  | .null, .bool _ | .null, .integer _ | .null, .double _ | .null, .string _ | .null, .array _
  | .null, .object _ | .bool _, .null | .bool _, .integer _ | .bool _, .double _
  | .bool _, .string _ | .bool _, .array _ | .bool _, .object _ | .integer _, .null
  | .integer _, .bool _ | .integer _, .double _ | .integer _, .string _ | .integer _, .array _
  | .integer _, .object _ | .double _, .null | .double _, .bool _ | .double _, .integer _
  | .double _, .string _ | .double _, .array _ | .double _, .object _ | .string _, .null
  | .string _, .bool _ | .string _, .integer _ | .string _, .double _ | .string _, .array _
  | .string _, .object _ | .array _, .null | .array _, .bool _ | .array _, .integer _
  | .array _, .double _ | .array _, .string _ | .array _, .object _ | .object _, .null
  | .object _, .bool _ | .object _, .integer _ | .object _, .double _ | .object _, .string _
  | .object _, .array _ => isFalse nofun

def decEqElements : (as bs : List Json) → Decidable (as = bs)
  | [], [] => isTrue rfl
  | a :: as, b :: bs =>
    match decEq a b, decEqElements as bs with
    | isTrue h, isTrue hs => isTrue (by rw [h, hs])
    | isFalse h, _ => isFalse (by simp [h])
    | _, isFalse hs => isFalse (by simp [hs])
  | [], _ :: _ | _ :: _, [] => isFalse nofun

def decEqMembers : (as bs : List (String × Json)) → Decidable (as = bs)
  | [], [] => isTrue rfl
  | (n, a) :: as, (m, b) :: bs =>
    match (inferInstance : Decidable (n = m)), decEq a b, decEqMembers as bs with
    | isTrue hn, isTrue h, isTrue hs => isTrue (by rw [hn, h, hs])
    | isFalse hn, _, _ => isFalse (by simp [hn])
    | _, isFalse h, _ => isFalse (by simp [h])
    | _, _, isFalse hs => isFalse (by simp [hs])
  | [], _ :: _ | _ :: _, [] => isFalse nofun

end

instance : DecidableEq Json := decEq

/-! ## Members -/

/-- Puts a member at its place in the order of names; it replaces a member of the same name. -/
def insertMember (name : String) (value : Json) : List (String × Json) → List (String × Json)
  | [] => [(name, value)]
  | (other, old) :: members =>
    if name = other then (name, value) :: members
    else if name < other then (name, value) :: (other, old) :: members
    else (other, old) :: insertMember name value members

/-- The object with the given members, where the last member of a name counts. -/
def ofMembers (members : List (String × Json)) : Json :=
  .object (members.foldl (fun sorted member => insertMember member.1 member.2 sorted) [])

def member? (name : String) : Json → Option Json
  | .object members => members.lookup name
  | _ => none

/-- The member of that name if there is one, otherwise the whole document. -/
def select (name : String) (document : Json) : Json :=
  (document.member? name).getD document

theorem select_of_member {name : String} {document value : Json}
    (h : document.member? name = some value) : document.select name = value := by
  simp [select, h]

theorem select_of_no_member {name : String} {document : Json}
    (h : document.member? name = none) : document.select name = document := by
  simp [select, h]

/-!
## Doubles in decimal

The two directions between decimal digits and IEEE doubles. Reading scales the digits by a power of
ten in double arithmetic. Writing takes the fewest digits that read back as the same double under
correct rounding, found in exact integer arithmetic.
-/

namespace Double

/-! ### From decimal digits -/

def powerOfTen (exponent : Nat) : Float :=
  Float.ofScientific 1 false exponent

def largestPower : Nat := 308

/-- `significand` times a power of ten, one rounded multiplication or division per power that is a
double; `none` past the largest double. -/
def scale (significand : Float) (exponent : Int) : Option Float :=
  if 0 ≤ exponent then
    if exponent.toNat ≤ largestPower then
      let scaled := significand * powerOfTen exponent.toNat
      if scaled.isInf then none else some scaled
    else if significand == 0 then some significand else none
  else
    let down := (-exponent).toNat
    if down ≤ largestPower then some (significand / powerOfTen down)
    else
      let once := significand / powerOfTen largestPower
      if down ≤ 2 * largestPower then some (once / powerOfTen (down - largestPower))
      else some (once / powerOfTen largestPower)

/-- The bits of a decimal number with at most 64 bits of digits. -/
def ofDecimal? (negative : Bool) (significand : Nat) (exponent : Int) : Option UInt64 :=
  (scale significand.toUInt64.toFloat exponent).map fun magnitude =>
    (if negative then -magnitude else magnitude).toBits

/-! ### To the fewest decimal digits -/

def isNegative (bits : UInt64) : Bool :=
  bits.toNat / Nat.pow 2 63 = 1

/-- A finite double without its sign, as `significand * 2 ^ exponent`. -/
structure Binary where
  significand : Nat
  exponent : Int
  /-- Whether the next smaller double is only half as far away as the next larger one. -/
  closeBelow : Bool

def Binary.ofBits (bits : UInt64) : Binary :=
  let fraction : Nat := bits.toNat % Nat.pow 2 52
  let biased : Nat := bits.toNat / Nat.pow 2 52 % Nat.pow 2 11
  if biased = 0 then ⟨fraction, -1074, false⟩
  else ⟨Nat.pow 2 52 + fraction, Int.ofNat biased - 1075, fraction = 0 && 1 < biased⟩

/-- A decimal number `digits * 10 ^ exponent`. -/
structure Decimal where
  digits : Nat
  exponent : Int
  deriving DecidableEq, Repr

/-- The grid `10 ^ exponent` beside the doubles around `b`, all brought to one integer unit: the
step of the grid and a quarter of the distance to the next double. -/
def Binary.units (b : Binary) (exponent : Int) : Nat × Nat :=
  (Nat.pow 10 exponent.toNat * Nat.pow 2 (2 - b.exponent).toNat,
    Nat.pow 10 (-exponent).toNat * Nat.pow 2 (b.exponent - 2).toNat)

/-- The point of the grid `10 ^ exponent` that reads back as `b` and is nearest to it; of two
equally near points the even one. -/
def Binary.nearest? (b : Binary) (exponent : Int) : Option Decimal :=
  let (step, quarter) := b.units exponent
  let value := 4 * b.significand * quarter
  let low := value - (if b.closeBelow then 1 else 2) * quarter
  let high := value + 2 * quarter
  let inside := fun point : Nat =>
    if b.significand % 2 = 0 then low ≤ point && point ≤ high else low < point && point < high
  let below := value / step
  let belowFits := 0 < below && inside (below * step)
  let aboveFits := inside ((below + 1) * step)
  let rest := value - below * step
  if belowFits && aboveFits then
    if 2 * rest < step || 2 * rest = step && below % 2 = 0 then some ⟨below, exponent⟩
    else some ⟨below + 1, exponent⟩
  else if belowFits then some ⟨below, exponent⟩
  else if aboveFits then some ⟨below + 1, exponent⟩
  else none

def Binary.search (b : Binary) : Nat → Int → Decimal
  | 0, exponent => ⟨b.significand, exponent⟩
  | tries + 1, exponent => (b.nearest? exponent).getD (b.search tries (exponent - 1))

/-- The decimal number of fewest digits that reads back as the nonzero magnitude `b`. The first grid
is coarser than the number, and a grid of seventeen digits always has a hit. -/
def Binary.shortest (b : Binary) : Decimal :=
  b.search 24 (((b.significand.log2 : Int) + 1 + b.exponent) * 30103 / 100000 + 2)

/-! ### Text of a double -/

def digitsOf (n : Nat) : List Char :=
  Nat.toDigits 10 n

/-- Scientific exponents written without an exponent part: from `0.00001` up to sixteen digits
before the point. -/
def isPositional (scientific : Int) : Bool :=
  -5 ≤ scientific && scientific ≤ 15

def exponentText (scientific : Int) : List Char :=
  'e' :: (if scientific < 0 then '-' else '+') :: digitsOf scientific.natAbs

def Decimal.text (d : Decimal) : List Char :=
  let digits := digitsOf d.digits
  let scientific := d.exponent + (digits.length : Int) - 1
  if isPositional scientific then
    if 0 ≤ d.exponent then
      digits ++ List.replicate d.exponent.toNat '0' ++ ['.', '0']
    else if 0 ≤ scientific then
      let whole := scientific.toNat + 1
      digits.take whole ++ '.' :: digits.drop whole
    else
      '0' :: '.' :: (List.replicate (-scientific - 1).toNat '0' ++ digits)
  else
    match digits with
    | [] => []
    | [digit] => digit :: exponentText scientific
    | digit :: more => digit :: '.' :: (more ++ exponentText scientific)

def text (bits : UInt64) : List Char :=
  let magnitude := Binary.ofBits bits
  let unsigned :=
    if magnitude.significand = 0 then ['0', '.', '0'] else magnitude.shortest.text
  if isNegative bits then '-' :: unsigned else unsigned

end Double

/-!
## Writing documents

Two layouts of the same text: compact, and one member or element to a line. Strings escape only
what must be escaped: quotes, backslashes and control characters.
-/

/-! ### Scalars -/

def hexChar (n : Nat) : Char :=
  if n < 10 then Char.ofNat (48 + n) else Char.ofNat (87 + n)

def escapeChar (c : Char) : List Char :=
  if c = '\x22' then ['\\', '\x22']
  else if c = '\\' then ['\\', '\\']
  else if c = '\x08' then ['\\', 'b']
  else if c = '\t' then ['\\', 't']
  else if c = '\n' then ['\\', 'n']
  else if c = '\x0c' then ['\\', 'f']
  else if c = '\r' then ['\\', 'r']
  else if c.toNat < 0x20 then
    ['\\', 'u', '0', '0', hexChar (c.toNat / 16), hexChar (c.toNat % 16)]
  else [c]

def stringText (text : String) : List Char :=
  '\x22' :: (text.toList.flatMap escapeChar ++ ['\x22'])

def integerText (n : Int) : List Char :=
  if n < 0 then '-' :: Nat.toDigits 10 n.natAbs else Nat.toDigits 10 n.natAbs

/-! ### Compact layout -/

mutual

def compactChars : Json → List Char
  | .null => ['n', 'u', 'l', 'l']
  | .bool true => ['t', 'r', 'u', 'e']
  | .bool false => ['f', 'a', 'l', 's', 'e']
  | .integer n => integerText n
  | .double bits => Double.text bits
  | .string text => stringText text
  | .array elements => '[' :: (elementsText elements ++ [']'])
  | .object members => '\x7b' :: (membersText members ++ ['\x7d'])

def elementsText : List Json → List Char
  | [] => []
  | [element] => compactChars element
  | element :: elements => compactChars element ++ ',' :: elementsText elements

def membersText : List (String × Json) → List Char
  | [] => []
  | [(name, value)] => stringText name ++ ':' :: compactChars value
  | (name, value) :: members =>
    stringText name ++ ':' :: (compactChars value ++ ',' :: membersText members)

end

def compact (document : Json) : String :=
  String.ofList document.compactChars

/-! ### Indented layout -/

def newLine (level : Nat) : List Char :=
  '\n' :: List.replicate (2 * level) ' '

mutual

def indentedChars (level : Nat) : Json → List Char
  | .array [] => ['[', ']']
  | .array (element :: elements) =>
    '[' :: (indentedElements (level + 1) (element :: elements) ++ newLine level ++ [']'])
  | .object [] => ['\x7b', '\x7d']
  | .object (member :: members) =>
    '\x7b' :: (indentedMembers (level + 1) (member :: members) ++ newLine level ++ ['\x7d'])
  | document => document.compactChars

def indentedElements (level : Nat) : List Json → List Char
  | [] => []
  | [element] => newLine level ++ indentedChars level element
  | element :: elements =>
    newLine level ++ indentedChars level element ++ ',' :: indentedElements level elements

def indentedMembers (level : Nat) : List (String × Json) → List Char
  | [] => []
  | [(name, value)] => newLine level ++ stringText name ++ ':' :: ' ' :: indentedChars level value
  | (name, value) :: members =>
    newLine level ++ stringText name ++
      ':' :: ' ' :: (indentedChars level value ++ ',' :: indentedMembers level members)

end

def indented (document : Json) : String :=
  String.ofList (document.indentedChars 0)

end Json

end AttributeExchange
