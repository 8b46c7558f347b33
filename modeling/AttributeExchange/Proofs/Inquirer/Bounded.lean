import AttributeExchange.Proofs.Inquirer.Failed

/-!
# Bounded inquirers

A bound on the requests that wait changes one thing only: a submission that has nothing wrong with
itself is refused while the bound is reached. Until that happens an inquirer with a bound and one
without are the same to everybody who deals with them.
-/

namespace AttributeExchange

def Exchange.disturb {σ : Type} (change : σ → σ) : Exchange σ Unit := fun peers =>
  ⟨(), change peers, []⟩

@[simp] theorem Exchange.run_disturb {σ : Type} (change : σ → σ) (peers : σ) :
    (Exchange.disturb change).run peers = ⟨(), change peers, []⟩ := rfl

def Settings.bounded (settings : Settings) (limit? : Option UInt64) : Settings :=
  { settings with maxWaiting := limit? }

namespace Inquirer

/-- Whether an operation is a submission that has nothing wrong with itself. -/
def Operation.isSound (settings : Settings) : Operation → Bool
  | .submit s => (s.ownFault? settings).isNone
  | .receive _ _ | .retire | .cancelAll | .reconnect => false

theorem fault?_bounded_none (settings : Settings) (s : Submission) (waiting : Nat) :
    s.fault? (settings.bounded none) waiting = s.ownFault? settings := by
  have hown : s.ownFault? (settings.bounded none) = s.ownFault? settings := rfl
  rw [Submission.fault?, hown]
  exact Option.or_none

theorem fault?_bounded_some (settings : Settings) (s : Submission) (limit : UInt64)
    (waiting : Nat) :
    s.fault? (settings.bounded (some limit)) waiting =
      (s.ownFault? settings).or
        (if limit.toNat ≤ waiting then some (.noRoom limit.toNat) else none) := by
  have hown : s.ownFault? (settings.bounded (some limit)) = s.ownFault? settings := rfl
  have hroom : Submission.breach? (settings.bounded (some limit)).maxWaiting (· ≤ waiting) .noRoom =
      if limit.toNat ≤ waiting then some (.noRoom limit.toNat) else none := by
    by_cases hfull : limit.toNat ≤ waiting <;>
      simp [Submission.breach?, Settings.bounded, Option.filter, hfull]
  rw [Submission.fault?, hown, hroom]

/-! ## The bound is kept -/

section Move

variable {settings : Settings} {limit : UInt64} {requests after : List OpenRequest} {now : Instant}
  {operation : Operation} {result : Result} {deeds : List Event}

theorem Move.length_le
    (hmove : Move (settings.bounded (some limit)) requests now operation result deeds after)
    (hlength : requests.length ≤ limit.toNat) : after.length ≤ limit.toNat := by
  cases hmove with
  | refused => exact hlength
  | notSubscribed => exact hlength
  | noId => exact hlength
  | alreadyWaiting => exact hlength
  | @opened s id hfault hid accepted =>
      have hroom : ¬ limit.toNat ≤ requests.length := by
        intro hfull
        rw [fault?_bounded_some, if_pos hfull] at hfault
        exact absurd (Option.or_eq_none_iff.mp hfault).2 (Option.some_ne_none _)
      rw [List.length_append, List.length_singleton]
      omega
  | unknown => exact hlength
  | answered => exact Nat.le_trans List.eraseP_sublist.length_le hlength
  | idle => exact hlength
  | retired => exact Nat.le_trans List.filter_sublist.length_le hlength
  | cancelled => exact Nat.zero_le _

theorem Move.full_of_noRoom {s : Submission} {count : Nat}
    (hmove : Move (settings.bounded (some limit)) requests now (.submit s)
      (.submitted (.error (.noRoom count))) deeds after) (hsound : s.ownFault? settings = none) :
    limit.toNat ≤ requests.length := by
  generalize hresult : Result.submitted (.error (.noRoom count)) = result at hmove
  cases hmove with
  | refused hfault =>
      rw [fault?_bounded_some, hsound, Option.none_or] at hfault
      by_contra hroom
      rw [if_neg hroom] at hfault
      cases hfault
  | notSubscribed => cases hresult
  | noId => cases hresult
  | alreadyWaiting => cases hresult
  | opened _ _ accepted => cases accepted <;> cases hresult
  | cancelled hall => rcases hall with hall | hall <;> cases hall

end Move

/-! ## Submissions that meet the bound -/

section Full

variable {σ : Type} [Channel σ] [IdSource σ]

theorem run_submit_of_full (settings : Settings) (limit : UInt64) {requests : List OpenRequest}
    (hfull : limit.toNat ≤ requests.length) {s : Submission} (hsound : s.ownFault? settings = none)
    (now : Instant) (peers : σ) :
    let q := waitingFor (settings.bounded (some limit)) requests
    (Exchange.deeds (q.submit s now)).run peers =
      ⟨(.error (.noRoom limit.toNat), q), peers, []⟩ := by
  intro q
  have hfault : s.fault? (settings.bounded (some limit)) requests.length =
      some (.noRoom limit.toNat) := by
    rw [fault?_bounded_some, hsound, Option.none_or, if_pos hfull]
  rw [deeds_submit]
  exact run_submissionEffect_of_fault hfault now peers

theorem noRoom_iff_full (settings : Settings) (limit : UInt64) {requests : List OpenRequest}
    (hlength : requests.length ≤ limit.toNat) {s : Submission}
    (hsound : s.ownFault? settings = none) (now : Instant) (peers : σ) :
    (((waitingFor (settings.bounded (some limit)) requests).submit s now).run peers).value.1 =
        .error (.noRoom limit.toNat) ↔ requests.length = limit.toNat := by
  constructor
  · intro hrefused
    obtain ⟨after, -, hmove⟩ :=
      exists_move_submit (settings.bounded (some limit)) requests now s peers
    rw [hrefused] at hmove
    exact Nat.le_antisymm hlength (hmove.full_of_noRoom hsound)
  · intro hfull
    have hrun := run_submit_of_full settings limit (Nat.le_of_eq hfull.symm) hsound now peers
    have hvalue := congrArg (·.value.1) hrun
    exact hvalue

end Full

/-! ## Two runs side by side -/

variable {σ : Type} [Channel σ] [IdSource σ]

def withBound (limit? : Option UInt64) (q : Inquirer) : Inquirer :=
  { q with
    settings := q.settings.bounded limit?
    outstanding.capacity := (q.settings.bounded limit?).capacity }

theorem withBound_waitingFor (settings : Settings) (limit? : Option UInt64)
    (requests : List OpenRequest) :
    withBound limit? (waitingFor (settings.bounded none) requests) =
      waitingFor (settings.bounded limit?) requests := rfl

/-- A submission comes to the same with and without the bound, unless it has nothing wrong with
itself and the bound is reached. -/
theorem deeds_submit_bounded (settings : Settings) (limit : UInt64) (requests : List OpenRequest)
    (s : Submission) (now : Instant)
    (hroom : s.ownFault? settings = none → requests.length < limit.toNat) :
    Exchange.deeds ((waitingFor (settings.bounded (some limit)) requests).submit s now :
        Exchange σ (Except RequestFault RequestId × Inquirer)) =
      Prod.map id (withBound (some limit)) <$>
        Exchange.deeds ((waitingFor (settings.bounded none) requests).submit s now) := by
  have hfault : s.fault? (settings.bounded (some limit)) requests.length =
      s.fault? (settings.bounded none) requests.length := by
    rw [fault?_bounded_some, fault?_bounded_none]
    cases hown : s.ownFault? settings with
    | some fault => rfl
    | none => rw [if_neg (Nat.not_le.mpr (hroom hown)), Option.none_or]
  have hbounded (limit? : Option UInt64) :
      (waitingFor (settings.bounded limit?) requests).settings = settings.bounded limit? := rfl
  rw [deeds_submit, deeds_submit, submissionEffect, submissionEffect, hbounded, hbounded,
    outstanding_waitingFor, outstanding_waitingFor, hfault]
  cases s.fault? (settings.bounded none) requests.length with
  | some fault => simp [withBound_waitingFor]
  | none =>
      -- Past the checks nothing looks at the bound, whatever is answered.
      simp only [map_bind]
      congr 1
      funext subscribed
      cases subscribed with
      | false => simp [withBound_waitingFor]
      | true =>
          simp only [if_true, map_bind]
          congr 1
          funext drawn
          cases drawn with
          | none => simp [withBound_waitingFor]
          | some id =>
              simp only [waitingIds_waitingFor, opened_waitingFor]
              by_cases hid : id ∈ requests.map (·.id)
              · simp [hid, withBound_waitingFor]
              · simp only [hid, if_false, map_bind, map_pure]
                rfl

theorem deeds_perform_bounded (settings : Settings) (limit : UInt64) {requests : List OpenRequest}
    (hmembers : ∀ request ∈ requests, request.member.isSome) (now : Instant)
    (operation : Operation)
    (hroom : operation.isSound settings = true → requests.length < limit.toNat) :
    Exchange.deeds ((waitingFor (settings.bounded (some limit)) requests).perform now operation :
        Exchange σ (Result × Inquirer)) =
      Prod.map id (withBound (some limit)) <$>
        Exchange.deeds
          ((waitingFor (settings.bounded none) requests).perform now operation) := by
  cases operation with
  | submit s =>
      have hsubmit := deeds_submit_bounded settings limit requests s now
        (fun hsound => hroom (by rw [Operation.isSound, hsound]; rfl)) (σ := σ)
      simp only [perform, Exchange.deeds_bind, hsubmit]
      simp
  | receive topic document =>
      simp only [perform, Exchange.deeds_bind, deeds_receive _ hmembers]
      cases addressee? requests topic with
      | none => simp [withBound_waitingFor]
      | some request => simp [withBound_waitingFor]
  | retire =>
      simp only [perform, Exchange.deeds_bind, deeds_retire]
      by_cases hdue : requests.filter (·.isDue now) = []
      · simp [hdue, withBound_waitingFor]
      · simp [hdue, withBound_waitingFor]
  | cancelAll => simp [perform, deeds_cancelAll, withBound_waitingFor]
  | reconnect => simp [perform, reconnect, deeds_cancelAll, withBound_waitingFor]

/-! ## Runs -/

/-- One round of a run: what the collaborators do by themselves, and then an operation. -/
structure Round (σ : Type) where
  change : σ → σ
  now : Instant
  operation : Operation

def performRounds (q : Inquirer) : List (Round σ) → Exchange σ (List Result × Inquirer)
  | [] => return ([], q)
  | round :: rounds => do
    Exchange.disturb round.change
    let (result, q) ← q.perform round.now round.operation
    let (results, q) ← q.performRounds rounds
    return (result :: results, q)

theorem run_performRounds_cons (q : Inquirer) (round : Round σ) (rounds : List (Round σ))
    (peers : σ) :
    let first := (q.perform round.now round.operation).run (round.change peers)
    let rest := (first.value.2.performRounds rounds).run first.peers
    (q.performRounds (round :: rounds)).run peers =
      ⟨(first.value.1 :: rest.value.1, rest.value.2), rest.peers, first.events ++ rest.events⟩ := by
  simp [performRounds]

/-- That two outcomes differ in the bound of the inquirer and in nothing else, notices left out. -/
structure Alike {α : Type} (limit : UInt64) (bounded unbounded : Outcome σ (α × Inquirer)) :
    Prop where
  value : bounded.value.1 = unbounded.value.1
  inquirer : bounded.value.2 = withBound (some limit) unbounded.value.2
  peers : bounded.peers = unbounded.peers
  deeds : Event.deeds bounded.events = Event.deeds unbounded.events

theorem alike_perform (settings : Settings) (limit : UInt64) {requests : List OpenRequest}
    (h : Orderly requests) (now : Instant) (operation : Operation)
    (hroom : operation.isSound settings = true → requests.length < limit.toNat) (peers : σ) :
    Alike limit
      (((waitingFor (settings.bounded (some limit)) requests).perform now operation).run peers)
      (((waitingFor (settings.bounded none) requests).perform now operation).run peers) := by
  have hrun := congrArg (·.run peers)
    (deeds_perform_bounded (σ := σ) settings limit h.members now operation hroom)
  simp only [Exchange.run_map, Exchange.run_deeds, Outcome.mk.injEq] at hrun
  obtain ⟨hvalue, hpeers, hdeeds⟩ := hrun
  obtain ⟨hresult, hinquirer⟩ := Prod.ext_iff.mp hvalue
  exact ⟨hresult, hinquirer, hpeers, hdeeds⟩

/-- Runs with and without the bound are alike as long as the bound is not met by a submission that
has nothing wrong with itself. -/
theorem alike_performRounds (settings : Settings) (limit : UInt64) {requests : List OpenRequest}
    (h : Orderly requests) (rounds : List (Round σ)) (peers : σ)
    (hroom : ∀ earlier round later, rounds = earlier ++ round :: later →
      round.operation.isSound settings = true →
      (((waitingFor (settings.bounded (some limit)) requests).performRounds earlier).run
        peers).value.2.waitingCount < limit.toNat) :
    Alike limit
      (((waitingFor (settings.bounded (some limit)) requests).performRounds rounds).run peers)
      (((waitingFor (settings.bounded none) requests).performRounds rounds).run peers) := by
  induction rounds generalizing requests peers with
  | nil => exact ⟨rfl, rfl, rfl, rfl⟩
  | cons round rounds ih =>
      have hfirst := alike_perform settings limit h round.now round.operation
        (hroom [] round rounds rfl) (round.change peers)
      obtain ⟨after, horderly, hafter⟩ := exists_orderly_perform (settings.bounded none) h
        round.now round.operation (round.change peers)
      -- After the first round the two differ in the bound again, so the rest is a run of this kind.
      have hbounded := hfirst.inquirer
      rw [hafter, withBound_waitingFor] at hbounded
      have hrest := ih horderly
        (((waitingFor (settings.bounded (some limit)) requests).perform round.now
          round.operation).run (round.change peers)).peers
        (fun earlier other later hrounds hsound => by
          have hcount := hroom (round :: earlier) other later (by rw [hrounds]; rfl) hsound
          rwa [run_performRounds_cons, hbounded] at hcount)
      rw [run_performRounds_cons, run_performRounds_cons]
      rw [hafter, hbounded, ← hfirst.peers]
      refine ⟨?_, hrest.inquirer, hrest.peers, ?_⟩
      · exact congrArg₂ List.cons hfirst.value hrest.value
      · rw [Event.deeds_append, Event.deeds_append, hfirst.deeds, hrest.deeds]

theorem exists_within_performRounds (settings : Settings) (limit : UInt64)
    {requests : List OpenRequest} (h : Orderly requests) (hlength : requests.length ≤ limit.toNat)
    (rounds : List (Round σ)) (peers : σ) :
    ∃ after, Orderly after ∧ after.length ≤ limit.toNat ∧
      (((waitingFor (settings.bounded (some limit)) requests).performRounds rounds).run
        peers).value.2 = waitingFor (settings.bounded (some limit)) after := by
  induction rounds generalizing requests peers with
  | nil => exact ⟨requests, h, hlength, rfl⟩
  | cons round rounds ih =>
      obtain ⟨after, horderly, hafter, hmove⟩ := exists_move_perform
        (settings.bounded (some limit)) h round.now round.operation (round.change peers)
      rw [run_performRounds_cons, hafter]
      exact ih horderly (hmove.length_le hlength) _

/-- A bound shows only where it is met. At any point of any run no more requests wait than it
allows. A submission that has nothing wrong with itself is refused for want of room exactly while so
many wait, and then it touches nobody and changes nothing. Until the first such refusal the run is
that of an inquirer without a bound: the results, what is done to the channel and the source of ids,
the handlers that run, and the requests and the subscription that are left. -/
theorem bounded_like_unbounded (settings : Settings) (limit : UInt64) (rounds : List (Round σ))
    (peers : σ) :
    let start := new (settings.bounded (some limit))
    let bounded := (start.performRounds rounds).run peers
    let unbounded := ((new (settings.bounded none)).performRounds rounds).run peers
    bounded.value.2.waitingCount ≤ limit.toNat ∧
    (∀ (s : Submission) (now : Instant) (others : σ), s.ownFault? settings = none →
      let outcome := (bounded.value.2.submit s now).run others
      (outcome.value.1 = .error (.noRoom limit.toNat) ↔
        bounded.value.2.waitingCount = limit.toNat) ∧
      (bounded.value.2.waitingCount = limit.toNat →
        outcome.value.2 = bounded.value.2 ∧ outcome.peers = others ∧
          Event.deeds outcome.events = [])) ∧
    ((∀ earlier round later, rounds = earlier ++ round :: later →
        round.operation.isSound settings = true →
        ((start.performRounds earlier).run peers).value.2.waitingCount ≠ limit.toNat) →
      bounded.value.1 = unbounded.value.1 ∧
      bounded.value.2.outstanding.requests = unbounded.value.2.outstanding.requests ∧
      bounded.value.2.subscription = unbounded.value.2.subscription ∧
      bounded.peers = unbounded.peers ∧
      Event.deeds bounded.events = Event.deeds unbounded.events) := by
  intro start bounded unbounded
  have hwithin := exists_within_performRounds (σ := σ) settings limit Orderly.nil (Nat.zero_le _)
  obtain ⟨requests, horderly, hlength, hbounded⟩ := hwithin rounds peers
  have hrequests : bounded.value.2 = waitingFor (settings.bounded (some limit)) requests := hbounded
  refine ⟨by rw [hrequests]; exact hlength, fun s now others hsound => ?_, fun hroom => ?_⟩
  · have hrefused := noRoom_iff_full settings limit hlength hsound now others
    rw [hrequests]
    refine ⟨hrefused, fun hfull => ?_⟩
    have hrun := run_submit_of_full settings limit (Nat.le_of_eq hfull.symm) hsound now others
    exact ⟨congrArg (·.value.2) hrun, congrArg (·.peers) hrun, congrArg (·.events) hrun⟩
  · have halike : Alike limit bounded unbounded := by
      refine alike_performRounds settings limit .nil rounds peers ?_
      intro earlier round later hrounds hsound
      obtain ⟨before, -, hbefore, hvalue⟩ := hwithin earlier peers
      have hcount := hroom earlier round later hrounds hsound
      rw [show ((start.performRounds earlier).run peers).value.2 = _ from hvalue] at hcount
      rw [hvalue]
      exact Nat.lt_of_le_of_ne hbefore hcount
    refine ⟨halike.value, ?_, ?_, halike.peers, halike.deeds⟩
    · rw [halike.inquirer]
      rfl
    · rw [halike.inquirer]
      rfl

def oneUnsent : List (Round (Peers Recorder Script)) :=
  [⟨fun peers => { peers with channel.failing.send := true }, .start, .submit (oneKey 0)⟩]

theorem bounded_like_unbounded_one :
    let peers : Peers Recorder Script := ⟨.new, ⟨[some 7, some 8]⟩⟩
    let bounded := ((new (Settings.default.bounded (some 1))).performRounds oneUnsent).run peers
    let unbounded := ((new (Settings.default.bounded none)).performRounds oneUnsent).run peers
    let outcome := (bounded.value.2.submit (oneKey 1) .start).run bounded.peers
    bounded.value.2.waitingCount = 1 ∧ outcome.value.1 = .error (.noRoom 1) ∧
      Event.deeds outcome.events = [] ∧
      Event.deeds bounded.events = Event.deeds unbounded.events ∧
      bounded.value.2.outstanding.requests = unbounded.value.2.outstanding.requests := by
  intro peers bounded unbounded outcome
  obtain ⟨-, hsubmit, hsame⟩ := bounded_like_unbounded Settings.default 1 oneUnsent peers
  have hcount : bounded.value.2.waitingCount = 1 := rfl
  obtain ⟨hrefused, hfull⟩ := hsubmit (oneKey 1) .start bounded.peers rfl
  have hroom : ∀ earlier round later, oneUnsent = earlier ++ round :: later →
      round.operation.isSound Settings.default = true →
      (((new (Settings.default.bounded (some 1))).performRounds earlier).run
        peers).value.2.waitingCount ≠ (1 : UInt64).toNat := by
    intro earlier round later hsplit _
    -- Nothing comes before the only round.
    obtain rfl : earlier = [] := by
      have hlength := congrArg List.length hsplit
      simp only [oneUnsent, List.length_append, List.length_cons, List.length_nil] at hlength
      exact List.length_eq_zero_iff.mp (by omega)
    decide
  obtain ⟨-, hrequests, -, -, hdeeds⟩ := hsame hroom
  exact ⟨hcount, hrefused.mpr hcount, (hfull hcount).2.2, hdeeds, hrequests⟩

end Inquirer

end AttributeExchange
