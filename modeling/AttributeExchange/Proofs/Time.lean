import AttributeExchange.Proofs.Basic
import AttributeExchange.Time
import Mathlib.Data.List.Basic
import Mathlib.Data.List.Induction

/-!
# Time in nanoseconds

Spans and instants as one number each. Seconds and nanoseconds are the two digits of that number, so
the order is that of the numbers, and a sum is an instant exactly if its number is below one limit.
-/

namespace AttributeExchange

theorem Duration.seconds_eq_totalNanos_div (d : Duration) :
    d.seconds = d.totalNanos / nanosPerSecond := by
  have hnanos := d.nanos_lt
  simp only [totalNanos, nanosPerSecond] at *
  omega

theorem Duration.seconds_lt_iff (d : Duration) (limit : Nat) :
    d.seconds < limit ↔ d.totalNanos < limit * nanosPerSecond := by
  rw [d.seconds_eq_totalNanos_div]
  exact Nat.div_lt_iff_lt_mul (by decide)

theorem Duration.totalNanos_ofMillis (n : Nat) : (ofMillis n).totalNanos = n * 1000000 := by
  simp only [ofMillis, ofParts, totalNanos, nanosPerSecond]
  omega

namespace Instant

def nanos (t : Instant) : Nat :=
  t.sinceStart.totalNanos

def nanosLimit : Nat :=
  secondsLimit * nanosPerSecond

theorem le_iff_nanos_le (t u : Instant) : t ≤ u ↔ t.nanos ≤ u.nanos :=
  Duration.le_iff_totalNanos_le t.sinceStart u.sinceStart

/-- The limit for the seconds of a sum is one for its nanoseconds: a carry is part of both. -/
theorem add?_map_nanos (t : Instant) (d : Duration) :
    (t.add? d).map nanos =
      if t.nanos + d.totalNanos < nanosLimit then some (t.nanos + d.totalNanos) else none := by
  have hsum : (t.sinceStart + d).totalNanos = t.nanos + d.totalNanos :=
    Duration.totalNanos_add t.sinceStart d
  have hlimit : (t.sinceStart + d).seconds < secondsLimit ↔
      t.nanos + d.totalNanos < nanosLimit := by
    rw [Duration.seconds_lt_iff, hsum, nanosLimit]
  rw [add?]
  by_cases hseconds : (t.sinceStart + d).seconds < secondsLimit
  · rw [if_pos hseconds, if_pos (hlimit.mp hseconds), ← hsum]
    rfl
  · rw [if_neg hseconds, if_neg (mt hlimit.mpr hseconds)]
    rfl

/-- The last nanosecond of a second carries past the limit. -/
example : Instant.add? ⟨⟨secondsLimit - 1, 999999999, by decide⟩⟩ ⟨0, 1, by decide⟩ = none := by
  decide

end Instant

theorem Timer.isDue_eq_any_nanos (timer : Timer) (now : Instant) :
    timer.isDue now = (timer.deadline.map Instant.nanos).any (· ≤ now.nanos) := by
  rw [isDue, Option.any_map]
  congr 1
  funext deadline
  simp [Instant.le_iff_nanos_le]

/-!
## Running timers

What a timer is after starts and stops in any order while its clock moves on. Only the last of them
counts: a start makes the deadline afresh from its own instant and the timeout, and a stop leaves
none. The sum is exact or there is no deadline, so no timeout is too long to be started.
-/

namespace Timer

inductive Step where
  | start
  | stop
  | advance (span : Duration)
  deriving DecidableEq

def Step.isAdvance : Step → Bool
  | .advance _ => true
  | .start | .stop => false

end Timer

def Clock.moved (clock : Clock) : Timer.Step → Clock
  | .advance span => clock.advance span
  | .start | .stop => clock

def Clock.after (clock : Clock) (steps : List Timer.Step) : Clock :=
  steps.foldl Clock.moved clock

namespace Timer

def perform (timer : Timer) (clock : Clock) : Step → Except ClockFault (Timer × Clock)
  | .start => clock.now.map fun now => (timer.start now, clock)
  | .stop => .ok (timer.stop, clock)
  | .advance span => .ok (timer, clock.advance span)

def performAll (timer : Timer) (clock : Clock) : List Step → Except ClockFault (Timer × Clock)
  | [] => .ok (timer, clock)
  | step :: steps => timer.perform clock step >>= fun state => state.1.performAll state.2 steps

/-- That the last start or stop among steps is a start, and the instant at which it was made. -/
def StartedLast (clock : Clock) (steps : List Step) (opened : Instant) : Prop :=
  ∃ earlier later, steps = earlier ++ .start :: later ∧ (∀ step ∈ later, step.isAdvance = true) ∧
    (clock.after earlier).now = .ok opened

/-! ### Instants of a clock -/

end Timer

theorem Duration.nanos_eq_totalNanos_mod (d : Duration) :
    d.nanos = d.totalNanos % nanosPerSecond := by
  have hnanos := d.nanos_lt
  simp only [totalNanos, nanosPerSecond] at *
  omega

theorem Instant.nanos_of_add? {t u : Instant} {d : Duration} (h : t.add? d = some u) :
    u.nanos = t.nanos + d.totalNanos := by
  have hmap := t.add?_map_nanos d
  rw [h, Option.map_some] at hmap
  split at hmap
  · exact Option.some.inj hmap
  · cases hmap

theorem Instant.isSome_add?_iff (t : Instant) (d : Duration) :
    (t.add? d).isSome = true ↔ t.nanos + d.totalNanos < nanosLimit := by
  rw [← Option.isSome_map, t.add?_map_nanos d]
  split
  · next hlt => exact iff_of_true rfl hlt
  · next hge => exact iff_of_false nofun hge

namespace Clock

theorem nanos_of_now {clock : Clock} {now : Instant} (h : clock.now = .ok now) :
    now.nanos = clock.offset.totalNanos := by
  rw [Clock.now] at h
  split at h
  · next t hadd =>
      obtain rfl := Except.ok.inj h
      rw [Instant.nanos_of_add? hadd]
      exact Nat.zero_add _
  · cases h

theorem exists_now_iff (clock : Clock) :
    (∃ now, clock.now = .ok now) ↔ clock.offset.totalNanos < Instant.nanosLimit := by
  have hstart : Instant.start.nanos + clock.offset.totalNanos = clock.offset.totalNanos :=
    Nat.zero_add _
  rw [← hstart, ← Instant.isSome_add?_iff, now]
  cases Instant.start.add? clock.offset with
  | none => simp
  | some now => simp

theorem after_append (clock : Clock) (steps more : List Timer.Step) :
    clock.after (steps ++ more) = (clock.after steps).after more :=
  List.foldl_append

theorem totalNanos_le_after (clock : Clock) (steps : List Timer.Step) :
    clock.offset.totalNanos ≤ (clock.after steps).offset.totalNanos := by
  induction steps generalizing clock with
  | nil => exact Nat.le_refl _
  | cons step steps ih =>
      refine Nat.le_trans ?_ (ih (clock.moved step))
      cases step with
      | start | stop => exact Nat.le_refl _
      | advance span =>
          rw [moved, advance, Duration.totalNanos_add]
          exact Nat.le_add_right _ _

theorem now_le_after {clock : Clock} {steps : List Timer.Step} {now later : Instant}
    (hnow : clock.now = .ok now) (hlater : (clock.after steps).now = .ok later) : now ≤ later := by
  rw [Instant.le_iff_nanos_le, nanos_of_now hnow, nanos_of_now hlater]
  exact clock.totalNanos_le_after steps

end Clock

namespace Timer

/-! ### Runs -/

theorem performAll_append (timer : Timer) (clock : Clock) (steps more : List Step) :
    timer.performAll clock (steps ++ more) =
      timer.performAll clock steps >>= fun state => state.1.performAll state.2 more := by
  induction steps generalizing timer clock with
  | nil => rfl
  | cons step steps ih =>
      rw [List.cons_append, performAll, performAll]
      cases timer.perform clock step with
      | error fault => rfl
      | ok state => exact ih state.1 state.2

theorem performAll_append_of_ok {timer after : Timer} {clock last : Clock} {steps : List Step}
    (h : timer.performAll clock steps = .ok (after, last)) (more : List Step) :
    timer.performAll clock (steps ++ more) = after.performAll last more := by
  rw [performAll_append, h]
  rfl

theorem performAll_concat {timer after : Timer} {clock last : Clock} {steps : List Step}
    (h : timer.performAll clock steps = .ok (after, last)) (step : Step) :
    timer.performAll clock (steps ++ [step]) = after.perform last step := by
  rw [performAll_append_of_ok h, performAll]
  cases after.perform last step <;> rfl

theorem clock_of_perform {timer after : Timer} {clock last : Clock} {step : Step}
    (h : timer.perform clock step = .ok (after, last)) : last = clock.moved step := by
  cases step with
  | start =>
      obtain ⟨now, -, hstate⟩ := exists_of_map_eq_ok h
      exact (congrArg Prod.snd hstate).symm
  | stop | advance => exact (congrArg Prod.snd (Except.ok.inj h)).symm

/-- A run fails only at a start whose clock cannot be read; the timeout plays no part in it. -/
theorem exists_performAll_iff (timer : Timer) (clock : Clock) (steps : List Step) :
    (∃ state, timer.performAll clock steps = .ok state) ↔
      ∀ earlier later, steps = earlier ++ .start :: later →
        ∃ now, (clock.after earlier).now = .ok now := by
  induction steps generalizing timer clock with
  | nil => simp [performAll]
  | cons step steps ih =>
      have hsplit : (∀ earlier later, step :: steps = earlier ++ .start :: later →
            ∃ now, (clock.after earlier).now = .ok now) ↔
          (step = .start → ∃ now, clock.now = .ok now) ∧
            ∀ earlier later, steps = earlier ++ .start :: later →
              ∃ now, ((clock.moved step).after earlier).now = .ok now := by
        constructor
        · intro h
          refine ⟨fun hstart => h [] steps (by rw [hstart]; rfl), fun earlier later hsteps => ?_⟩
          exact h (step :: earlier) later (by rw [hsteps]; rfl)
        · rintro ⟨hstart, hrest⟩ earlier later hsteps
          cases earlier with
          | nil => exact hstart (List.cons.inj hsteps).1
          | cons first earlier =>
              obtain ⟨rfl, hrest'⟩ := List.cons.inj hsteps
              exact hrest earlier later hrest'
      rw [hsplit, performAll]
      cases hstep : timer.perform clock step with
      | ok state =>
          have hclock : state.2 = clock.moved step := clock_of_perform hstep
          rw [← hclock, ← ih state.1 state.2]
          refine (and_iff_right fun hstart => ?_).symm
          subst hstart
          obtain ⟨now, hnow, -⟩ := exists_of_map_eq_ok hstep
          exact ⟨now, hnow⟩
      | error fault =>
          -- Only a start can fail, and only for want of a reading.
          refine iff_of_false (by rintro ⟨state, hstate⟩; cases hstate) fun hboth => ?_
          cases step with
          | start =>
              obtain ⟨now, hnow⟩ := hboth.1 rfl
              rw [perform, hnow] at hstep
              cases hstep
          | stop | advance => cases hstep

/-! ### The last start or stop -/

section Last

variable {clock : Clock} {steps : List Step} {opened : Instant}

theorem startedLast_concat_iff {step : Step} :
    StartedLast clock (steps ++ [step]) opened ↔
      step = .start ∧ (clock.after steps).now = .ok opened ∨
        step.isAdvance = true ∧ StartedLast clock steps opened := by
  constructor
  · rintro ⟨earlier, later, hsteps, hlater, hnow⟩
    rcases List.eq_nil_or_concat' later with rfl | ⟨before, last, rfl⟩
    · obtain ⟨rfl, hstep⟩ := List.append_inj' hsteps rfl
      exact .inl ⟨(List.cons.inj hstep).1, hnow⟩
    · rw [← List.cons_append, ← List.append_assoc] at hsteps
      obtain ⟨rfl, hstep⟩ := List.append_inj' hsteps rfl
      obtain rfl := (List.cons.inj hstep).1
      obtain ⟨hbefore, hlast⟩ := List.forall_mem_append.mp hlater
      exact .inr ⟨hlast step (List.mem_singleton_self step), earlier, before, rfl, hbefore, hnow⟩
  · rintro (⟨rfl, hnow⟩ | ⟨hstep, earlier, later, rfl, hlater, hnow⟩)
    · exact ⟨steps, [], rfl, List.forall_mem_nil _, hnow⟩
    · refine ⟨earlier, later ++ [step], List.append_assoc .., ?_, hnow⟩
      exact List.forall_mem_append.mpr ⟨hlater, List.forall_mem_singleton.mpr hstep⟩

theorem StartedLast.unique {first second : Instant} (hfirst : StartedLast clock steps first)
    (hsecond : StartedLast clock steps second) : first = second := by
  induction steps using List.reverseRecOn with
  | nil =>
      obtain ⟨earlier, later, hsteps, -⟩ := hfirst
      exact absurd hsteps.symm (by simp)
  | append_singleton steps step ih =>
      rw [startedLast_concat_iff] at hfirst hsecond
      rcases hfirst with ⟨rfl, hfirst⟩ | ⟨hstep, hfirst⟩
      · rcases hsecond with ⟨-, hsecond⟩ | ⟨hstep, -⟩
        · exact Except.ok.inj (hfirst.symm.trans hsecond)
        · cases hstep
      · rcases hsecond with ⟨rfl, -⟩ | ⟨-, hsecond⟩
        · cases hstep
        · exact ih hfirst hsecond

end Last

/-- What a run leaves: the clock moved on, and the timer as the last start or stop made it. -/
theorem exists_opened_of_performAll {timeout : Option Duration} {clock last : Clock}
    {steps : List Step} {timer : Timer}
    (h : (new timeout).performAll clock steps = .ok (timer, last)) :
    last = clock.after steps ∧
      ∃ opened? : Option Instant,
        (∀ opened, opened? = some opened ↔ StartedLast clock steps opened) ∧
        timer = ⟨timeout, opened?.bind fun opened => timeout.bind opened.add?⟩ := by
  -- From the end: the last step decides, unless time passes in it.
  induction steps using List.reverseRecOn generalizing timer last with
  | nil =>
      cases h
      exact ⟨rfl, none, by simp [StartedLast], rfl⟩
  | append_singleton steps step ih =>
      have hsteps := h
      rw [performAll_append] at hsteps
      obtain ⟨⟨before, middle⟩, hbefore, -⟩ := exists_of_bind_eq_ok hsteps
      have hperform := (performAll_concat hbefore step).symm.trans h
      obtain ⟨hclock, opened?, hopened, htimer⟩ := ih hbefore
      have hmoved : last = clock.after (steps ++ [step]) := by
        rw [clock_of_perform hperform, Clock.after_append, ← hclock]
        rfl
      refine ⟨hmoved, ?_⟩
      subst hclock htimer
      cases step with
      | start =>
          obtain ⟨now, hnow, hpair⟩ := exists_of_map_eq_ok hperform
          obtain ⟨rfl, -⟩ := Prod.mk.inj hpair
          refine ⟨some now, fun opened => ?_, rfl⟩
          rw [startedLast_concat_iff, hnow]
          simp [Step.isAdvance]
      | stop =>
          obtain ⟨rfl, -⟩ := Prod.mk.inj (Except.ok.inj hperform)
          exact ⟨none, fun opened => by simp [startedLast_concat_iff, Step.isAdvance], rfl⟩
      | advance span =>
          obtain ⟨rfl, -⟩ := Prod.mk.inj (Except.ok.inj hperform)
          exact ⟨opened?, fun opened => by simp [startedLast_concat_iff, Step.isAdvance, hopened],
            rfl⟩

theorem deadline_eq_some_iff {timeout : Option Duration} {clock last : Clock} {steps : List Step}
    {timer : Timer} (h : (new timeout).performAll clock steps = .ok (timer, last))
    (deadline : Instant) :
    timer.deadline = some deadline ↔
      ∃ opened span, StartedLast clock steps opened ∧ timeout = some span ∧
        opened.add? span = some deadline := by
  obtain ⟨-, opened?, hopened, rfl⟩ := exists_opened_of_performAll h
  simp only [Option.bind_eq_some_iff, hopened, exists_and_left]

theorem performAll_advances (timer : Timer) (clock : Clock) {steps : List Step}
    (h : ∀ step ∈ steps, step.isAdvance = true) :
    timer.performAll clock steps = .ok (timer, clock.after steps) := by
  induction steps generalizing clock with
  | nil => rfl
  | cons step steps ih =>
      obtain ⟨hstep, hsteps⟩ := List.forall_mem_cons.mp h
      cases step with
      | start | stop => cases hstep
      | advance span => exact ih (clock.advance span) hsteps

theorem isDue_mono {timer : Timer} {now later : Instant} (hle : now ≤ later)
    (hdue : timer.isDue now = true) : timer.isDue later = true := by
  obtain ⟨deadline, hdeadline, hover⟩ := (timer.isDue_iff now).mp hdue
  rw [Instant.le_iff_nanos_le] at hle hover
  refine (timer.isDue_iff later).mpr ⟨deadline, hdeadline, ?_⟩
  rw [Instant.le_iff_nanos_le]
  exact Nat.le_trans hover hle

section Run

variable {timeout : Option Duration} {clock last : Clock} {steps : List Step} {timer : Timer}

theorem isRunning_iff (h : (new timeout).performAll clock steps = .ok (timer, last)) :
    timer.isRunning = true ↔
      ∃ opened span, StartedLast clock steps opened ∧ timeout = some span ∧
        opened.nanos + span.totalNanos < Instant.nanosLimit := by
  rw [isRunning, Option.isSome_iff_exists]
  simp only [deadline_eq_some_iff h, ← Instant.isSome_add?_iff, Option.isSome_iff_exists]
  constructor
  · rintro ⟨deadline, opened, span, hstarted, hspan, hsum⟩
    exact ⟨opened, span, hstarted, hspan, deadline, hsum⟩
  · rintro ⟨opened, span, hstarted, hspan, deadline, hsum⟩
    exact ⟨deadline, opened, span, hstarted, hspan, hsum⟩

theorem exists_sum_of_deadline (h : (new timeout).performAll clock steps = .ok (timer, last))
    {deadline : Instant} (hrunning : timer.deadline = some deadline) :
    ∃ opened span, StartedLast clock steps opened ∧ timeout = some span ∧
      deadline.nanos = opened.nanos + span.totalNanos ∧
      deadline.sinceStart.seconds = (opened.nanos + span.totalNanos) / nanosPerSecond ∧
      deadline.sinceStart.nanos = (opened.nanos + span.totalNanos) % nanosPerSecond := by
  obtain ⟨opened, span, hstarted, hspan, hsum⟩ := (deadline_eq_some_iff h deadline).mp hrunning
  have hnanos : deadline.nanos = opened.nanos + span.totalNanos := Instant.nanos_of_add? hsum
  refine ⟨opened, span, hstarted, hspan, hnanos, ?_, ?_⟩
  · rw [← hnanos]
    exact deadline.sinceStart.seconds_eq_totalNanos_div
  · rw [← hnanos]
    exact deadline.sinceStart.nanos_eq_totalNanos_mod

theorem isDue_iff_elapsed (h : (new timeout).performAll clock steps = .ok (timer, last))
    (now : Instant) :
    timer.isDue now = true ↔
      timer.isRunning = true ∧ ∃ opened span, StartedLast clock steps opened ∧
        timeout = some span ∧ (span.totalNanos : Int) ≤ now.nanos - opened.nanos := by
  rw [isDue_iff, isRunning, Option.isSome_iff_exists]
  constructor
  · rintro ⟨deadline, hrunning, hover⟩
    obtain ⟨opened, span, hstarted, hspan, hnanos, -⟩ := exists_sum_of_deadline h hrunning
    rw [Instant.le_iff_nanos_le, hnanos] at hover
    exact ⟨⟨deadline, hrunning⟩, opened, span, hstarted, hspan, by omega⟩
  · rintro ⟨⟨deadline, hrunning⟩, opened, span, hstarted, hspan, hover⟩
    obtain ⟨other, same, hother, hsame, hnanos, -⟩ := exists_sum_of_deadline h hrunning
    obtain rfl := hstarted.unique hother
    obtain rfl := Option.some.inj (hspan.symm.trans hsame)
    refine ⟨deadline, hrunning, ?_⟩
    rw [Instant.le_iff_nanos_le, hnanos]
    omega

end Run

/-- A timer after any starts and stops, with any timeout, while its clock moves on. A start fails
only where the clock itself cannot be read, whatever the timeout. The timer runs exactly if the last
start or stop was a start whose instant and timeout make an instant, and its deadline is then that
sum, to the nanosecond and in normal form. It is due exactly if it runs and the time since the start
has reached the timeout, and it stays due as time passes. A further start is like the first one, and
a stop leaves the timer as it was made. -/
theorem running_from_last_start (timeout : Option Duration) (clock : Clock) (steps : List Step) :
    let run (steps : List Step) := (new timeout).performAll clock steps
    ((∃ state, run steps = .ok state) ↔
      ∀ earlier later, steps = earlier ++ .start :: later →
        ∃ now, (clock.after earlier).now = .ok now) ∧
    ∀ timer last, run steps = .ok (timer, last) →
      (timer.isRunning = true ↔
        ∃ opened span, StartedLast clock steps opened ∧ timeout = some span ∧
          opened.nanos + span.totalNanos < Instant.nanosLimit) ∧
      (∀ deadline, timer.deadline = some deadline →
        ∃ opened span, StartedLast clock steps opened ∧ timeout = some span ∧
          deadline.nanos = opened.nanos + span.totalNanos ∧
          deadline.sinceStart.seconds = (opened.nanos + span.totalNanos) / nanosPerSecond ∧
          deadline.sinceStart.nanos = (opened.nanos + span.totalNanos) % nanosPerSecond) ∧
      (∀ now, timer.isDue now = true ↔
        timer.isRunning = true ∧ ∃ opened span, StartedLast clock steps opened ∧
          timeout = some span ∧ (span.totalNanos : Int) ≤ now.nanos - opened.nanos) ∧
      (∀ now later, now ≤ later → timer.isDue now = true → timer.isDue later = true) ∧
      (∀ more, (∀ step ∈ more, step.isAdvance = true) →
        run (steps ++ more) = .ok (timer, last.after more) ∧
          ∀ now later, last.now = .ok now → (last.after more).now = .ok later → now ≤ later) ∧
      run (steps ++ [.start]) = last.now.map (fun now => ((new timeout).start now, last)) ∧
      run (steps ++ [.stop]) = .ok (new timeout, last) := by
  intro run
  refine ⟨exists_performAll_iff _ clock steps, fun timer last hrun => ?_⟩
  refine ⟨isRunning_iff hrun, fun deadline => exists_sum_of_deadline hrun, isDue_iff_elapsed hrun,
    fun now later => isDue_mono, fun more hmore => ⟨?_, ?_⟩, ?_, ?_⟩
  · exact (performAll_append_of_ok hrun more).trans (performAll_advances timer last hmore)
  · exact fun now later => Clock.now_le_after
  · obtain ⟨-, opened?, -, rfl⟩ := exists_opened_of_performAll hrun
    exact performAll_concat hrun .start
  · obtain ⟨-, opened?, -, rfl⟩ := exists_opened_of_performAll hrun
    exact performAll_concat hrun .stop

/-- A start two nanoseconds before the end of the last second runs. A nanosecond later the same
start carries past the last instant and leaves the timer as it was made. -/
theorem running_from_last_start_carry :
    let timeout : Duration := ⟨0, 2, by decide⟩
    let nanosecond : Duration := ⟨0, 1, by decide⟩
    let clock : Clock := ⟨⟨Instant.secondsLimit - 1, 999999997, by decide⟩⟩
    let opened : Instant := ⟨clock.offset⟩
    let steps : List Step := [.start, .stop, .start, .advance nanosecond]
    let last : Clock := ⟨⟨Instant.secondsLimit - 1, 999999998, by decide⟩⟩
    ∃ timer, (new (some timeout)).performAll clock steps = .ok (timer, last) ∧
      StartedLast clock steps opened ∧
      opened.nanos + timeout.totalNanos < Instant.nanosLimit ∧ timer.isRunning = true ∧
      timer.isDue ⟨last.offset⟩ = false ∧
      (new (some timeout)).performAll clock (steps ++ [.advance nanosecond]) =
        .ok (timer, last.advance nanosecond) ∧
      timer.isDue ⟨(last.advance nanosecond).offset⟩ = true ∧
      (new (some timeout)).performAll clock (steps ++ [.start]) =
        .ok (new (some timeout), last) := by
  intro timeout nanosecond clock opened steps last
  have hrun : (new (some timeout)).performAll clock steps =
      .ok (⟨some timeout, some ⟨clock.offset + timeout⟩⟩, last) := by decide +kernel
  have hstarted : StartedLast clock steps opened :=
    ⟨[.start, .stop], [.advance nanosecond], rfl, by decide, by decide +kernel⟩
  have hlimit : opened.nanos + timeout.totalNanos < Instant.nanosLimit := by decide +kernel
  obtain ⟨hrunning, -, hdue, -, hmore, hagain, -⟩ :=
    (running_from_last_start (some timeout) clock steps).2 _ last hrun
  have hruns := hrunning.mpr ⟨opened, timeout, hstarted, rfl, hlimit⟩
  have hcarry : last.now.map (fun now => ((new (some timeout)).start now, last)) =
      .ok (new (some timeout), last) := by decide +kernel
  refine ⟨_, hrun, hstarted, hlimit, hruns, by decide, ?_, ?_, hagain.trans hcarry⟩
  · exact (hmore [.advance nanosecond] (by decide)).1
  · exact (hdue _).mpr ⟨hruns, opened, timeout, hstarted, rfl, by decide⟩

end Timer

end AttributeExchange
