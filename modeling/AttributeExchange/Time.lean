/-!
# Time

Spans of time, the instants that a monotonic clock shows, and timers that run to a deadline.
-/

namespace AttributeExchange

/-!
## Durations

Spans of time in whole seconds and nanoseconds below a second. Sums carry, and the order compares
seconds first; `totalNanos` is the one number that both are about.
-/

def nanosPerSecond : Nat := 1000000000

@[ext]
structure Duration where
  seconds : Nat
  nanos : Nat
  nanos_lt : nanos < nanosPerSecond
  deriving DecidableEq, Repr

namespace Duration

def zero : Duration :=
  ⟨0, 0, by decide⟩

instance : Inhabited Duration := ⟨zero⟩

def ofParts (seconds nanos : Nat) : Duration :=
  ⟨seconds + nanos / nanosPerSecond, nanos % nanosPerSecond, Nat.mod_lt _ (by decide)⟩

def ofSeconds (seconds : Nat) : Duration :=
  ⟨seconds, 0, by decide⟩

def ofMillis (millis : Nat) : Duration :=
  ofParts (millis / 1000) (millis % 1000 * 1000000)

def millis (d : Duration) : Nat :=
  d.seconds * 1000 + d.nanos / 1000000

def totalNanos (d : Duration) : Nat :=
  d.seconds * nanosPerSecond + d.nanos

protected def add (d e : Duration) : Duration :=
  if h : d.nanos + e.nanos < nanosPerSecond then ⟨d.seconds + e.seconds, d.nanos + e.nanos, h⟩
  else
    ⟨d.seconds + e.seconds + 1, d.nanos + e.nanos - nanosPerSecond, by
      have := d.nanos_lt
      have := e.nanos_lt
      omega⟩

instance : Add Duration := ⟨Duration.add⟩

protected def ble (d e : Duration) : Bool :=
  d.seconds < e.seconds || d.seconds = e.seconds && d.nanos ≤ e.nanos

instance : LE Duration := ⟨fun d e => d.ble e = true⟩

instance (d e : Duration) : Decidable (d ≤ e) :=
  inferInstanceAs (Decidable (d.ble e = true))

theorem totalNanos_add (d e : Duration) : (d + e).totalNanos = d.totalNanos + e.totalNanos := by
  change (Duration.add d e).totalNanos = _
  by_cases h : d.nanos + e.nanos < nanosPerSecond
  · simp only [Duration.add, h, dif_pos, totalNanos, Nat.add_mul]
    omega
  · simp only [Duration.add, h, dif_neg, not_false_eq_true, totalNanos, Nat.add_mul]
    omega

theorem le_iff_totalNanos_le (d e : Duration) : d ≤ e ↔ d.totalNanos ≤ e.totalNanos := by
  have hd := d.nanos_lt
  have he := e.nanos_lt
  change d.ble e = true ↔ _
  simp only [Duration.ble, totalNanos, nanosPerSecond, Bool.or_eq_true, Bool.and_eq_true,
    decide_eq_true_eq] at *
  omega

/-! ### Text -/

/-- Decimal places of `n` out of `width`, without zeros at the end. -/
def places (n width : Nat) : List Char :=
  let digits := Nat.toDigits 10 n
  let padded := List.replicate (width - digits.length) '0' ++ digits
  (padded.reverse.dropWhile (· = '0')).reverse

def decimalText (whole n width : Nat) : String :=
  let shown := places n width
  toString whole ++ String.ofList (if shown.isEmpty then [] else '.' :: shown)

/-- A span in the largest unit that does not exceed it. -/
def text (d : Duration) : String :=
  if 0 < d.seconds then decimalText d.seconds d.nanos 9 ++ "s"
  else if 1000000 ≤ d.nanos then decimalText (d.nanos / 1000000) (d.nanos % 1000000) 6 ++ "ms"
  else if 1000 ≤ d.nanos then decimalText (d.nanos / 1000) (d.nanos % 1000) 3 ++ "µs"
  else decimalText d.nanos 0 0 ++ "ns"

end Duration

/-!
## Clocks

An instant is told by the time since the origin of the monotonic clock. The seconds of an instant
are a signed 64-bit number, so a clock that was moved too far cannot be read, and a sum past the
limit is no instant. A clock may be based at any instant; its offset includes that base.
-/

@[ext]
structure Instant where
  sinceStart : Duration
  deriving DecidableEq, Repr, Inhabited

namespace Instant

/-- The origin of the monotonic clock, from which all instants are counted. -/
def start : Instant :=
  ⟨.zero⟩

def secondsLimit : Nat := Int64.size / 2

/-- The instant `d` later, if there is one. -/
def add? (t : Instant) (d : Duration) : Option Instant :=
  if (t.sinceStart + d).seconds < secondsLimit then some ⟨t.sinceStart + d⟩ else none

instance : LE Instant := ⟨fun t u => t.sinceStart ≤ u.sinceStart⟩

instance (t u : Instant) : Decidable (t ≤ u) :=
  inferInstanceAs (Decidable (t.sinceStart ≤ u.sinceStart))

end Instant

/-- A clock that moves only when it is told to. Its offset is the instant at which it was based
together with all that it was advanced by since. -/
structure Clock where
  offset : Duration
  deriving DecidableEq, Inhabited

inductive ClockFault where
  | pastLimit
  deriving DecidableEq, Repr

def ClockFault.message : ClockFault → String
  | .pastLimit => "overflow when adding duration to instant"

namespace Clock

def new : Clock :=
  ⟨.zero⟩

def advance (clock : Clock) (d : Duration) : Clock :=
  ⟨clock.offset + d⟩

def now (clock : Clock) : Except ClockFault Instant :=
  match Instant.start.add? clock.offset with
  | some t => .ok t
  | none => .error .pastLimit

end Clock

/-!
## Timers

The timeout of one request. A timer without a timeout never runs, and neither does one whose
deadline would be no instant.
-/

structure Timer where
  timeout : Option Duration
  deadline : Option Instant
  deriving DecidableEq, Inhabited

namespace Timer

def new (timeout : Option Duration) : Timer :=
  ⟨timeout, none⟩

def start (timer : Timer) (now : Instant) : Timer :=
  { timer with deadline := timer.timeout.bind now.add? }

def stop (timer : Timer) : Timer :=
  { timer with deadline := none }

def isRunning (timer : Timer) : Bool :=
  timer.deadline.isSome

def isDue (timer : Timer) (now : Instant) : Bool :=
  timer.deadline.any fun deadline => deadline ≤ now

@[simp] theorem deadline_start (timer : Timer) (now : Instant) :
    (timer.start now).deadline = timer.timeout.bind now.add? := rfl

@[simp] theorem deadline_stop (timer : Timer) : timer.stop.deadline = none := rfl

@[simp] theorem timeout_start (timer : Timer) (now : Instant) :
    (timer.start now).timeout = timer.timeout := rfl

@[simp] theorem timeout_stop (timer : Timer) : timer.stop.timeout = timer.timeout := rfl

theorem isDue_iff (timer : Timer) (now : Instant) :
    timer.isDue now = true ↔ ∃ deadline, timer.deadline = some deadline ∧ deadline ≤ now := by
  simp [isDue, Option.any_eq_true]

end Timer

end AttributeExchange
