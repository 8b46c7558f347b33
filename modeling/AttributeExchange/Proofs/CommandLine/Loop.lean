import AttributeExchange.CommandLine.Run
import AttributeExchange.Proofs.Switchboard.Delivery
import Mathlib.Tactic.SplitIfs

/-!
# The loop of ticks

The loop takes ticks until nothing is open or none is left. If the document of the server can be
read back no tick fails, so the loop comes to what a number of ticks come to one after the other.
-/

namespace AttributeExchange

/-- A document that can be read is handed over, whoever takes it. -/
theorem Switchboard.exists_deliver_eq_ok {σ : Type} [Channel σ] (switchboard : Switchboard)
    (topic : String) {payload : Bytes} {document : Json} (hread : Json.read payload = .ok document)
    (inquirers : List Inquirer) (peers : σ) :
    ∃ taken, ((switchboard.deliver topic payload inquirers).run peers).value.1 = .ok taken := by
  rw [deliver]
  cases switchboard.claimant? topic with
  | none => exact ⟨false, rfl⟩
  | some claimant =>
      obtain ⟨handler, position⟩ := claimant
      cases hform : handler.form <;> exact ⟨true, by simp [hform, taskFor, hread]⟩

namespace CommandLine.Course

def progressAfter (course : Course) (progress : Progress) : Nat → Progress
  | 0 => progress
  | ticks + 1 => (course.takeTick (ticks + 1) (course.progressAfter progress ticks)).2

def deliveries (course : Course) (ticks : Nat) : Nat :=
  (List.range ticks).countP fun earlier => (course.responseAt? (earlier + 1)).isSome

/-- That the loop ends after so many of its ticks: no tick failed, and the last one taken is the
first after which nothing is open, or the last of all. -/
structure Stops (course : Course) (progress : Progress) (ticks taken : Nat) : Prop where
  le : taken ≤ ticks
  outcome : course.takeTicks ticks 1 progress = (.ok (), course.progressAfter progress taken)
  pending : ∀ earlier, 0 < earlier → earlier < taken →
    (course.progressAfter progress earlier).isIdle = false
  last : taken = ticks ∨ 0 < taken ∧ (course.progressAfter progress taken).isIdle = true
  deliveries : course.deliveries taken ≤ 1

variable {course : Course}

theorem deliveries_le (course : Course) (ticks : Nat) :
    course.deliveries ticks ≤ if course.answerTick ≤ ticks then 1 else 0 := by
  induction ticks with
  | zero => exact Nat.zero_le _
  | succ ticks ih =>
      rw [deliveries, List.range_succ, List.countP_append, ← deliveries, List.countP_singleton,
        responseAt?]
      by_cases htick : ticks + 1 = course.answerTick
      · have hlater : ¬ course.answerTick ≤ ticks := by omega
        have hreached : course.answerTick ≤ ticks + 1 := by omega
        rw [if_neg hlater] at ih
        rw [if_pos htick, if_pos hreached]
        split_ifs <;> omega
      · have hsame : course.answerTick ≤ ticks + 1 ↔ course.answerTick ≤ ticks := by omega
        rw [if_neg htick]
        simp only [hsame, Option.isSome_none, Bool.false_eq_true, if_false, Nat.add_zero]
        exact ih

theorem deliveries_le_one (course : Course) (ticks : Nat) : course.deliveries ticks ≤ 1 := by
  refine Nat.le_trans (course.deliveries_le ticks) ?_
  split_ifs <;> decide

theorem answer_eq_ok {document again : Json} (hread : Json.read (utf8 document.compact) = .ok again)
    (progress : Progress) : (course.answer document progress).1 = .ok () := by
  obtain ⟨taken, htaken⟩ := course.switchboard.exists_deliver_eq_ok (Topic.response course.id) hread
    progress.inquirers progress.peers
  dsimp only [answer, Progress.exchange, Progress.print]
  rw [htaken]
  rfl

/-- No tick fails if the document of the server can be read back. -/
theorem takeTick_eq_ok
    (hread : ∀ document ∈ course.response, ∃ again, Json.read (utf8 document.compact) = .ok again)
    (tick : Nat) (progress : Progress) : (course.takeTick tick progress).1 = .ok () := by
  rw [takeTick, responseAt?]
  split_ifs with htick
  · cases hresponse : course.response with
    | none => rfl
    | some document =>
        obtain ⟨again, hagain⟩ := hread document hresponse
        exact answer_eq_ok hagain _
  · rfl

theorem exists_takeTicks_eq
    (hok : ∀ tick progress, (course.takeTick tick progress).1 = .ok ()) (progress : Progress)
    (left before : Nat) :
    ∃ taken, before ≤ taken ∧ taken ≤ before + left ∧
      course.takeTicks left (before + 1) (course.progressAfter progress before) =
        (.ok (), course.progressAfter progress taken) ∧
      (∀ earlier, before < earlier → earlier < taken →
        (course.progressAfter progress earlier).isIdle = false) ∧
      (taken = before + left ∨
        before < taken ∧ (course.progressAfter progress taken).isIdle = true) := by
  induction left generalizing before with
  | zero => exact ⟨before, Nat.le_refl _, Nat.le_refl _, rfl, by omega, .inl rfl⟩
  | succ left ih =>
      have hnext : course.takeTick (before + 1) (course.progressAfter progress before) =
          (.ok (), course.progressAfter progress (before + 1)) := Prod.ext (hok _ _) rfl
      rw [takeTicks, hnext]
      dsimp only
      cases hidle : (course.progressAfter progress (before + 1)).isIdle with
      | true =>
          exact ⟨before + 1, Nat.le_succ _, by omega, rfl, by omega,
            .inr ⟨Nat.lt_succ_self _, hidle⟩⟩
      | false =>
          obtain ⟨taken, hlow, hhigh, houtcome, hpending, hlast⟩ := ih (before + 1)
          refine ⟨taken, by omega, by omega, houtcome, fun earlier hbefore hearlier => ?_,
            hlast.imp (by omega) fun h => ⟨by omega, h.2⟩⟩
          rcases Nat.lt_or_eq_of_le hbefore with hlater | rfl
          · exact hpending earlier hlater hearlier
          · exact hidle

/-- The loop stops, and no tick of it fails. -/
theorem exists_stops
    (hread : ∀ document ∈ course.response, ∃ again, Json.read (utf8 document.compact) = .ok again)
    (progress : Progress) (ticks : Nat) : ∃ taken, course.Stops progress ticks taken := by
  obtain ⟨taken, -, hhigh, houtcome, hpending, hlast⟩ :=
    exists_takeTicks_eq (takeTick_eq_ok hread) progress ticks 0
  rw [Nat.zero_add] at hhigh houtcome hlast
  exact ⟨taken, hhigh, houtcome, hpending, hlast, course.deliveries_le_one taken⟩

end CommandLine.Course

end AttributeExchange
