import AttributeExchange.Message

/-!
# Arguments of the program

What the program can be asked to do, and how its arguments say it.
-/

namespace AttributeExchange.CommandLine

/-!
## Options

Every option may be given once, only the keys any number of times.
-/

structure Options where
  settingsPath : Option String
  verbose : Bool
  scope : Scope
  keys : List String
  response : Option String
  answerTick : Nat
  ticks : Nat
  /-- Milliseconds between ticks. -/
  tickInterval : Nat
  deriving DecidableEq, Repr

/-- Why reading the arguments ended without options. -/
inductive Stop where
  | help
  | version
  | misuse
  deriving DecidableEq, Repr

inductive Parameter where
  | settings
  | scope
  | keys
  | response
  | answerTick
  | ticks
  | tickInterval
  deriving DecidableEq, Repr

inductive Flag where
  | verbose
  | help
  | version
  deriving DecidableEq, Repr

def Parameter.ofName? (name : String) : Option Parameter :=
  [("config", settings), ("scope", scope), ("keys", keys), ("response", response),
    ("respond-after", answerTick), ("ticks", ticks), ("tick-interval-ms", tickInterval)].lookup
    name

def Flag.ofName? (name : String) : Option Flag :=
  [("verbose", verbose), ("help", help), ("version", version)].lookup name

def Flag.ofLetter? (letter : Char) : Option Flag :=
  [('v', verbose), ('h', help), ('V', version)].lookup letter

/-! ### Values -/

/-- The number that decimal digits spell; there must be one digit at least. -/
def natural? (digits : List Char) : Option Nat :=
  if digits.isEmpty || !digits.all Char.isDigit then none
  else some (Nat.ofDigitChars 10 digits 0)

/-- A number of 64 bits, with or without a plus sign. -/
def number64? (text : String) : Option Nat :=
  let digits :=
    match text.toList with
    | '+' :: digits => digits
    | digits => digits
  (natural? digits).filter (· < UInt64.size)

/-- A number of 32 bits, with or without a sign; minus zero is zero. -/
def number32? (text : String) : Option Nat :=
  match text.toList with
  | '-' :: digits => (natural? digits).filter (· = 0)
  | _ => (number64? text).filter (· < UInt32.size)

def splitKeys (text : String) : List String :=
  (text.toList.splitOn ',').map String.ofList

/-! ### Options met so far -/

structure Given where
  settings : Option String
  verbose : Bool
  scope : Option Scope
  keys : Option (List String)
  response : Option String
  answerTick : Option Nat
  ticks : Option Nat
  tickInterval : Option Nat

namespace Given

def nothing : Given :=
  ⟨none, false, none, none, none, none, none, none⟩

def once {α : Type} (before : Option α) (value : Option α) : Except Stop (Option α) :=
  match before, value with
  | none, some value => .ok (some value)
  | _, _ => .error .misuse

def setParameter (given : Given) (text : String) : Parameter → Except Stop Given
  | .settings => do
    let settings ← once given.settings (if text.isEmpty then none else some text)
    return { given with settings }
  | .scope => do
    let scope ← once given.scope (Scope.ofName? text)
    return { given with scope }
  | .keys => return { given with keys := some (given.keys.getD [] ++ splitKeys text) }
  | .response => do
    let response ← once given.response (some text)
    return { given with response }
  | .answerTick => do
    let answerTick ← once given.answerTick (number32? text)
    return { given with answerTick }
  | .ticks => do
    let ticks ← once given.ticks (number32? text)
    return { given with ticks }
  | .tickInterval => do
    let tickInterval ← once given.tickInterval (number64? text)
    return { given with tickInterval }

def setFlag (given : Given) : Flag → Except Stop Given
  | .help => .error .help
  | .version => .error .version
  | .verbose => if given.verbose then .error .misuse else .ok { given with verbose := true }

/-- The options in full. The keys must have been given; the path of the settings may come from
elsewhere, but not be empty. -/
def complete (given : Given) (otherPath : Option String) : Except Stop Options :=
  let settingsPath := given.settings.or otherPath
  match given.keys with
  | none => .error .misuse
  | some keys =>
    if settingsPath = some "" then .error .misuse
    else .ok
      { settingsPath
        verbose := given.verbose
        scope := given.scope.getD .client
        keys
        response := given.response
        answerTick := given.answerTick.getD 1
        ticks := given.ticks.getD 100
        tickInterval := given.tickInterval.getD 100 }

end Given

/-!
## Arguments

How arguments are read from the left. A parameter takes one value, either joined to its name or as
the next argument; a next argument that starts with a dash is no value unless it is a lone dash.
There are no positional arguments. Help and version end the reading where they are met.
-/

inductive Argument where
  /-- Two dashes alone: what follows is positional. -/
  | separator
  | long (name : String) (value : Option String)
  | short (letters : List Char)
  | positional
  deriving DecidableEq, Repr

/-- The form of an argument. A long name ends at the first equals sign. -/
def Argument.ofText (text : String) : Argument :=
  match text.toList with
  | ['-', '-'] => .separator
  | '-' :: '-' :: rest =>
    let name := String.ofList (rest.takeWhile (· ≠ '='))
    match rest.dropWhile (· ≠ '=') with
    | [] => .long name none
    | _ :: value => .long name (some (String.ofList value))
  | '-' :: letter :: letters => .short (letter :: letters)
  | _ => .positional

/-- What letters after a single dash ask for: flags, and possibly the path of settings, or the
letter of that parameter with nothing after it. -/
inductive Cluster where
  | flags (given : Given)
  | settings (given : Given) (value : Option String)

def readLetters (given : Given) : List Char → Except Stop Cluster
  | [] => .ok (.flags given)
  | 'c' :: [] => .ok (.settings given none)
  | 'c' :: '=' :: value => .ok (.settings given (some (String.ofList value)))
  | 'c' :: value => .ok (.settings given (some (String.ofList value)))
  | letter :: letters =>
    match Flag.ofLetter? letter with
    | none => .error .misuse
    | some flag => do readLetters (← given.setFlag flag) letters

def isValue (text : String) : Bool :=
  text = "-" || text.toList.head? ≠ some '-'

/-- Reads arguments from the left. A parameter is `waiting` while its value is to come. -/
def readArguments (given : Given) (waiting : Option Parameter) :
    List String → Except Stop Given
  | [] => if waiting.isSome then .error .misuse else .ok given
  | text :: arguments =>
    match waiting with
    | some parameter =>
      if isValue text then do
        readArguments (← given.setParameter text parameter) none arguments
      else .error .misuse
    | none =>
      match Argument.ofText text with
      | .separator => if arguments.isEmpty then .ok given else .error .misuse
      | .positional => .error .misuse
      | .long name value =>
        match Parameter.ofName? name, value with
        | some parameter, none => readArguments given (some parameter) arguments
        | some parameter, some value => do
          readArguments (← given.setParameter value parameter) none arguments
        | none, some _ => .error .misuse
        | none, none =>
          match Flag.ofName? name with
          | none => .error .misuse
          | some flag => do readArguments (← given.setFlag flag) none arguments
      | .short letters => do
        match ← readLetters given letters with
        | .flags given => readArguments given none arguments
        | .settings given none => readArguments given (some .settings) arguments
        | .settings given (some value) =>
          readArguments (← given.setParameter value .settings) none arguments

def Options.ofArguments (arguments : List String) (otherPath : Option String) :
    Except Stop Options := do
  (← readArguments .nothing none arguments).complete otherPath

end AttributeExchange.CommandLine
