import AttributeExchange.Proofs.Exchange.Traces
import AttributeExchange.Proofs.Inquirer.Composed
import AttributeExchange.Proofs.Inquirer.Step

/-!
# Inquirers that share a counter

Any number of inquirers and other holders of a handle draw their ids from one counter, in turns and
in any order. A turn of an inquirer either leaves the counter alone and at most closes requests, or
takes the next id and opens a request under it. So all that are waited for have an id up to what the
counter reads, and a new id is above all of them.
-/

namespace AttributeExchange

open Inquirer

/-! ## The ids of one move -/

/-- What an operation does to the ids that are waited for while the counter reads `reading`: whether
it took the next id, the id that it admitted, the counter afterwards and the ids afterwards. -/
inductive IdMove (reading : RequestId) (ids : List RequestId) :
    Bool → Option RequestId → RequestId → List RequestId → Prop where
  | kept {fewer : List RequestId} (hfewer : fewer.Sublist ids) :
      IdMove reading ids false none reading fewer
  | taken : IdMove reading ids true (some (reading + 1)) (reading + 1) (ids ++ [reading + 1])

namespace IdMove

variable {reading after : RequestId} {ids others : List RequestId} {took : Bool}
  {admitted? : Option RequestId}

theorem toNat_next (hlimit : reading.toNat < UInt64.size - 1) :
    (reading + 1).toNat = reading.toNat + 1 := by
  have hsize : UInt64.size = 2 ^ 64 := rfl
  have hone : (1 : RequestId).toNat = 1 := rfl
  rw [UInt64.toNat_add, hone]
  exact Nat.mod_eq_of_lt (by omega)

theorem lt_next (hlimit : reading.toNat < UInt64.size - 1) : reading < reading + 1 := by
  rw [UInt64.lt_iff_toNat_lt, toNat_next hlimit]
  omega

theorem toNat_after (h : IdMove reading ids took admitted? after others)
    (hlimit : reading.toNat < UInt64.size - 1) :
    after.toNat = reading.toNat + if took then 1 else 0 := by
  cases h with
  | kept => rfl
  | taken => exact toNat_next hlimit

theorem le_after (h : IdMove reading ids took admitted? after others)
    (hlimit : reading.toNat < UInt64.size - 1) : reading ≤ after := by
  rw [UInt64.le_iff_toNat_le, h.toNat_after hlimit]
  omega

theorem of_admitted (h : IdMove reading ids took admitted? after others)
    (hlimit : reading.toNat < UInt64.size - 1) {id : RequestId} (hid : admitted? = some id) :
    reading < id ∧ id = after := by
  cases h with
  | kept => cases hid
  | taken =>
      cases hid
      exact ⟨lt_next hlimit, rfl⟩

theorem mem_or_eq (h : IdMove reading ids took admitted? after others)
    (hlimit : reading.toNat < UInt64.size - 1) {id : RequestId} (hid : id ∈ others) :
    id ∈ ids ∨ reading < id ∧ id = after := by
  cases h with
  | kept hfewer => exact .inl (hfewer.subset hid)
  | taken =>
      rcases List.mem_append.mp hid with hid | hid
      · exact .inl hid
      · rw [List.mem_singleton.mp hid]
        exact .inr ⟨lt_next hlimit, rfl⟩

theorem pairwise (h : IdMove reading ids took admitted? after others)
    (hlimit : reading.toNat < UInt64.size - 1) (hids : ids.Pairwise (· < ·))
    (hbound : ∀ id ∈ ids, id ≤ reading) : others.Pairwise (· < ·) := by
  cases h with
  | kept hfewer => exact hids.sublist hfewer
  | taken =>
      refine List.pairwise_append.mpr ⟨hids, List.pairwise_singleton _ _, ?_⟩
      intro id hid new hnew
      rw [List.mem_singleton.mp hnew]
      exact UInt64.lt_of_le_of_lt (hbound id hid) (lt_next hlimit)

end IdMove

section Move

variable {settings : Settings} {requests after : List OpenRequest} {now : Instant}
  {operation : Operation} {result : Result} {deeds : List Event} {reading next : RequestId}

/-- A move whose ids come from the counter, when no id above its reading is waited for. The drawn id
is new, so it is never refused. -/
theorem Inquirer.Move.idMove (hmove : Move settings requests now operation result deeds after)
    (hreading : Event.readingAfterAll? reading deeds = some next)
    (hbound : ∀ id ∈ requests.map (·.id), id ≤ reading) (hlimit : reading.toNat < UInt64.size - 1) :
    IdMove reading (requests.map (·.id))
        (operation.passes settings requests.length && Event.subscribed deeds) result.admitted? next
        (after.map (·.id)) ∧
      ∀ id, result ≠ .submitted (.error (.invalid (.alreadyWaiting id))) := by
  -- Three of the rules draw an id; where none is drawn the counter stays.
  have hsame : (∀ id, .drew id ∉ deeds) → next = reading := fun hnone =>
    (Option.some.inj ((Event.readingAfterAll?_of_undrawn hnone reading).symm.trans hreading)).symm
  cases hmove with
  | refused hfault =>
      obtain rfl := hsame (by simp)
      rw [admitted?_of_fault? hfault]
      refine ⟨?_, fun id heq => ?_⟩
      · simpa [Operation.passes, hfault] using IdMove.kept (List.Sublist.refl _)
      · cases heq
        cases Submission.isEarly_of_fault? hfault
  | notSubscribed hfault =>
      obtain rfl := hsame (by simp)
      refine ⟨?_, fun id heq => by cases heq⟩
      simpa [Event.subscribed, Result.admitted?] using IdMove.kept (List.Sublist.refl _)
  | noId => simp [Event.readingAfter?] at hreading
  | @alreadyWaiting s id hfault hid =>
      obtain ⟨rfl, rfl⟩ : id = next ∧ next = reading + 1 := by
        simpa [Event.readingAfter?_drew_eq_some] using hreading
      exact absurd (hbound _ hid) (UInt64.not_le.mpr (IdMove.lt_next hlimit))
  | @opened s id hfault hid accepted =>
      obtain ⟨rfl, rfl⟩ : id = next ∧ next = reading + 1 := by
        simpa [Event.readingAfter?_drew_eq_some] using hreading
      have htaken : IdMove reading (requests.map (·.id)) true (some (reading + 1)) (reading + 1)
          (requests.map (·.id) ++ [reading + 1]) := .taken
      cases accepted
      all_goals
        refine ⟨?_, fun id heq => by cases heq⟩
        simpa [Operation.passes, hfault, Event.subscribed, Result.admitted?,
          Submission.opening] using htaken
  | unknown =>
      obtain rfl := hsame (by simp)
      exact ⟨.kept (List.Sublist.refl _), fun id heq => by cases heq⟩
  | @answered _ _ request haddressee passed accepted =>
      obtain rfl := hsame (by simp [releaseDeeds, forwardDeeds])
      exact ⟨.kept (List.eraseP_sublist.map _), fun id heq => by cases heq⟩
  | idle =>
      obtain rfl := hsame (by simp)
      exact ⟨.kept (List.Sublist.refl _), fun id heq => by cases heq⟩
  | @retired hdue lapsed hlapsed accepted =>
      have hundrawn : ∀ id, .drew id ∉ lapsed := by
        intro id hmem
        obtain ⟨request, -, heq | ⟨topic, document, accepted, heq⟩⟩ := hlapsed.of_mem hmem
        · cases heq
        · cases heq
      obtain rfl := hsame (by simp [releaseDeeds, hundrawn])
      exact ⟨.kept (List.filter_sublist.map _), fun id heq => by cases heq⟩
  | cancelled hall accepted =>
      obtain rfl := hsame (by simp)
      refine ⟨?_, fun id heq => by cases heq⟩
      rcases hall with rfl | rfl <;> exact .kept (List.nil_sublist _)

end Move

variable {τ : Type}

/-- What an operation of an inquirer in order does to the ids, read off its own deeds. -/
theorem Inquirer.idMove_perform [Channel τ] (settings : Settings) {requests : List OpenRequest}
    (h : Orderly requests) (now : Instant) (operation : Operation)
    (peers : Peers τ SharedCounter) :
    let q := waitingFor settings requests
    let outcome := (q.perform now operation).run peers
    (∀ id ∈ q.waitingIds, id ≤ peers.ids.counter.current) →
    peers.ids.counter.current.toNat < UInt64.size - 1 →
    IdMove peers.ids.counter.current q.waitingIds
        (operation.passes q.settings q.waitingCount && Event.subscribed outcome.events)
        outcome.value.1.admitted? outcome.peers.ids.counter.current outcome.value.2.waitingIds ∧
      ∀ id, outcome.value.1 ≠ .submitted (.error (.invalid (.alreadyWaiting id))) := by
  intro q outcome hbound hlimit
  obtain ⟨after, -, hafter, hmove⟩ := exists_move_perform settings h now operation peers
  have hcounts : Event.readingAfterAll? peers.ids.counter.current (Event.deeds outcome.events) =
      some outcome.peers.ids.counter.current := by
    rw [Event.readingAfterAll?_deeds]
    exact (composed_perform q now operation).counts peers
  have hids := hmove.idMove hcounts hbound hlimit
  rw [Event.subscribed_deeds] at hids
  have hafter : outcome.value.2.waitingIds = after.map (·.id) := by
    rw [← waitingIds_waitingFor settings]
    exact congrArg waitingIds hafter
  rw [hafter]
  exact hids

/-- An inquirer in order that waits for nothing above the reading of the counter. -/
structure Inquirer.Disciplined (reading : RequestId) (q : Inquirer) : Prop where
  inOrder : ∃ settings requests, Orderly requests ∧ q = waitingFor settings requests
  increasing : q.waitingIds.Pairwise (· < ·)
  bounded : ∀ id ∈ q.waitingIds, id ≤ reading

theorem Inquirer.Disciplined.mono {reading later : RequestId} {q : Inquirer}
    (h : q.Disciplined reading) (hle : reading ≤ later) : q.Disciplined later :=
  { h with bounded := fun id hid => UInt64.le_trans (h.bounded id hid) hle }

theorem Inquirer.disciplined_new (settings : Settings) (reading : RequestId) :
    (new settings).Disciplined reading :=
  ⟨⟨settings, [], .nil, new_eq_waitingFor settings⟩, .nil,
    by simp [new, waitingIds, Outstanding.ids]⟩

/-! ## Companies -/

/-- Inquirers at one channel whose ids come from one counter. -/
structure Company (τ : Type) where
  inquirers : List Inquirer
  peers : Peers τ SharedCounter

namespace Company

def reading (company : Company τ) : RequestId :=
  company.peers.ids.counter.current

inductive Turn (τ : Type) where
  | operate (index : Nat) (now : Instant) (operation : Operation)
  /-- Another component draws an id. -/
  | draw
  /-- Somebody gets a further handle on the counter. -/
  | clone
  | disturb (change : τ → τ)

/-- Whether an id is drawn that goes to no inquirer. -/
def Turn.isDraw : Turn τ → Bool
  | .draw => true
  | .operate _ _ _ | .clone | .disturb _ => false

structure Report where
  before : Inquirer
  operation : Operation
  result : Result
  events : List Event

namespace Report

/-- Whether the operation is a submission that passed its checks and obtained the subscription. -/
def gotThrough (report : Report) : Bool :=
  report.operation.passes report.before.settings report.before.waitingCount &&
    Event.subscribed report.events

def admitted? (report : Report) : Option RequestId :=
  report.result.admitted?

end Report

/-- A company in which no two inquirers wait for one id. -/
structure Disciplined (company : Company τ) : Prop where
  each : ∀ q ∈ company.inquirers, q.Disciplined company.reading
  apart : ∀ (i j : Nat) (q other : Inquirer) (id : RequestId), company.inquirers[i]? = some q →
    company.inquirers[j]? = some other → id ∈ q.waitingIds → id ∈ other.waitingIds → i = j

theorem disciplined_new (settings : List Settings) (peers : Peers τ SharedCounter) :
    (Company.mk (settings.map Inquirer.new) peers).Disciplined where
  each := by
    intro q hq
    obtain ⟨own, -, rfl⟩ := List.mem_map.mp hq
    exact Inquirer.disciplined_new own _
  apart := by
    intro i j q other id hq _ hid
    obtain ⟨own, -, rfl⟩ := List.mem_map.mp (List.mem_of_getElem? hq)
    cases hid

/-- What turns bring about: the company is disciplined afterwards, the counter has moved once for
each id that was drawn, no id was refused, and the admitted ids increase above its old reading. -/
structure Advances (company : Company τ) (turns : List (Turn τ)) (reports : List Report)
    (after : Company τ) : Prop where
  disciplined : after.Disciplined
  reading : after.reading.toNat =
    company.reading.toNat + turns.countP Turn.isDraw + reports.countP Report.gotThrough
  accepted : ∀ report ∈ reports, ∀ id,
    report.result ≠ .submitted (.error (.invalid (.alreadyWaiting id)))
  increasing : (reports.filterMap Report.admitted?).Pairwise (· < ·)
  between : ∀ id ∈ reports.filterMap Report.admitted?, company.reading < id ∧ id ≤ after.reading

variable {company after last : Company τ}

theorem Disciplined.advances (h : company.Disciplined) : Advances company [] [] company :=
  ⟨h, rfl, by simp, .nil, by simp⟩

theorem Advances.reading_le {turns : List (Turn τ)} {reports : List Report}
    (h : Advances company turns reports after) : company.reading ≤ after.reading := by
  rw [UInt64.le_iff_toNat_le, h.reading]
  omega

theorem Advances.trans {turns later : List (Turn τ)} {reports more : List Report}
    (h : Advances company turns reports after) (hlater : Advances after later more last) :
    Advances company (turns ++ later) (reports ++ more) last where
  disciplined := hlater.disciplined
  reading := by
    rw [hlater.reading, h.reading, List.countP_append, List.countP_append]
    omega
  accepted := by
    intro report hreport
    rcases List.mem_append.mp hreport with hreport | hreport
    · exact h.accepted report hreport
    · exact hlater.accepted report hreport
  increasing := by
    rw [List.filterMap_append, List.pairwise_append]
    refine ⟨h.increasing, hlater.increasing, fun id hid new hnew => ?_⟩
    exact UInt64.lt_of_le_of_lt (h.between id hid).2 (hlater.between new hnew).1
  between := by
    intro id hid
    rw [List.filterMap_append] at hid
    rcases List.mem_append.mp hid with hid | hid
    · exact ⟨(h.between id hid).1, UInt64.le_trans (h.between id hid).2 hlater.reading_le⟩
    · exact ⟨UInt64.lt_of_le_of_lt h.reading_le (hlater.between id hid).1,
        (hlater.between id hid).2⟩

/-- A turn that leaves the inquirers as they are and the counter no lower. -/
theorem Disciplined.of_le (h : company.Disciplined) (hsame : after.inquirers = company.inquirers)
    (hle : company.reading ≤ after.reading) : after.Disciplined where
  each := fun q hq => (h.each q (hsame ▸ hq)).mono hle
  apart := hsame ▸ h.apart

/-- A turn of one inquirer keeps the others as they are. Its new id is above all of theirs. -/
theorem Disciplined.set (h : company.Disciplined) {index : Nat} {q changed : Inquirer}
    {took : Bool} {admitted? : Option RequestId} {peers : Peers τ SharedCounter}
    (hq : company.inquirers[index]? = some q) (hlimit : company.reading.toNat < UInt64.size - 1)
    (horder : ∃ settings requests, Orderly requests ∧ changed = waitingFor settings requests)
    (hids : IdMove company.reading q.waitingIds took admitted? peers.ids.counter.current
      changed.waitingIds) :
    Disciplined ⟨company.inquirers.set index changed, peers⟩ := by
  have hbefore : q.Disciplined company.reading := h.each q (List.mem_of_getElem? hq)
  have hother : ∀ (j : Nat) (other : Inquirer) (id : RequestId), index ≠ j →
      company.inquirers[j]? = some other → id ∈ changed.waitingIds → id ∉ other.waitingIds := by
    intro j other id hne hj hid hmem
    rcases hids.mem_or_eq hlimit hid with hold | ⟨hnew, -⟩
    · exact hne (h.apart index j q other id hq hj hold hmem)
    · have hle := (h.each other (List.mem_of_getElem? hj)).bounded id hmem
      exact absurd hle (UInt64.not_le.mpr hnew)
  constructor
  · intro other hmem
    rcases List.mem_or_eq_of_mem_set hmem with hmem | rfl
    · exact (h.each other hmem).mono (hids.le_after hlimit)
    · refine ⟨horder, hids.pairwise hlimit hbefore.increasing hbefore.bounded, fun id hid => ?_⟩
      rcases hids.mem_or_eq hlimit hid with hold | ⟨-, rfl⟩
      · exact UInt64.le_trans (hbefore.bounded id hold) (hids.le_after hlimit)
      · exact UInt64.le_refl _
  · -- Either place may be the changed one; only there the old list does not tell.
    intro i j one other id hi hj hid hid'
    have hself : (company.inquirers.set index changed)[index]? = some changed :=
      List.getElem?_set_self (List.getElem?_eq_some_iff.mp hq).1
    rcases eq_or_ne index i with rfl | hne <;> rcases eq_or_ne index j with rfl | hne'
    · rfl
    · obtain rfl : changed = one := Option.some.inj (hself.symm.trans hi)
      rw [List.getElem?_set_ne hne'] at hj
      exact absurd hid' (hother j other id hne' hj hid)
    · obtain rfl : changed = other := Option.some.inj (hself.symm.trans hj)
      rw [List.getElem?_set_ne hne] at hi
      exact absurd hid (hother i one id hne hi hid')
    · rw [List.getElem?_set_ne hne] at hi
      rw [List.getElem?_set_ne hne'] at hj
      exact h.apart i j one other id hi hj hid hid'

variable [Channel τ]

def take (company : Company τ) : Turn τ → Option Report × Company τ
  | .operate index now operation =>
    let outcome := (Exchange.atIndex index (·.perform now operation) company.inquirers).run
      company.peers
    (do return ⟨← company.inquirers[index]?, operation, ← outcome.value.1, outcome.events⟩,
      ⟨outcome.value.2, outcome.peers⟩)
  | .draw => (none, { company with peers.ids := company.peers.ids.next.2 })
  | .clone => (none, { company with peers.ids := company.peers.ids.clone.2 })
  | .disturb change => (none, { company with peers.channel := change company.peers.channel })

def takeAll (company : Company τ) : List (Turn τ) → List Report × Company τ
  | [] => ([], company)
  | turn :: turns =>
    let (report, company) := company.take turn
    let (reports, company) := company.takeAll turns
    (report.toList ++ reports, company)

theorem take_operate {index : Nat} {q : Inquirer} (h : company.inquirers[index]? = some q)
    (now : Instant) (operation : Operation) :
    let outcome := (q.perform now operation).run company.peers
    company.take (.operate index now operation) =
      (some ⟨q, operation, outcome.value.1, outcome.events⟩,
        ⟨company.inquirers.set index outcome.value.2, outcome.peers⟩) := by
  simp [take, Exchange.atIndex, h]

theorem take_operate_of_none {index : Nat} (h : company.inquirers[index]? = none) (now : Instant)
    (operation : Operation) : company.take (.operate index now operation) = (none, company) := by
  simp [take, Exchange.atIndex, h]

/-- The turn of an inquirer: its ids move as `IdMove` says, and the others stay. -/
theorem Disciplined.advances_operate (h : company.Disciplined)
    (hlimit : company.reading.toNat < UInt64.size - 1) {index : Nat} {q : Inquirer}
    (hq : company.inquirers[index]? = some q) (now : Instant) (operation : Operation) :
    let outcome := (q.perform now operation).run company.peers
    Advances company [.operate index now operation]
      [⟨q, operation, outcome.value.1, outcome.events⟩]
      ⟨company.inquirers.set index outcome.value.2, outcome.peers⟩ := by
  intro outcome
  have hdisciplined : q.Disciplined company.reading := h.each q (List.mem_of_getElem? hq)
  obtain ⟨settings, requests, horderly, rfl⟩ := hdisciplined.inOrder
  obtain ⟨hids, haccepted⟩ :=
    idMove_perform settings horderly now operation company.peers hdisciplined.bounded hlimit
  obtain ⟨after, hinorder, hafter⟩ :=
    exists_orderly_perform settings horderly now operation company.peers
  constructor
  · exact h.set hq hlimit ⟨settings, after, hinorder, hafter⟩ hids
  · simpa [Turn.isDraw, List.countP_cons, Report.gotThrough, reading] using hids.toNat_after hlimit
  · intro report hreport
    obtain rfl := List.mem_singleton.mp hreport
    exact haccepted
  · rw [List.filterMap_cons]
    split
    · exact .nil
    · exact List.pairwise_singleton _ _
  · intro id hid
    obtain ⟨report, hreport, hadmitted⟩ := List.mem_filterMap.mp hid
    obtain rfl := List.mem_singleton.mp hreport
    obtain ⟨hlt, heq⟩ := hids.of_admitted hlimit hadmitted
    exact ⟨hlt, UInt64.le_of_eq heq⟩

theorem Disciplined.advances_take (h : company.Disciplined)
    (hlimit : company.reading.toNat < UInt64.size - 1) (turn : Turn τ) :
    Advances company [turn] (company.take turn).1.toList (company.take turn).2 := by
  cases turn with
  | operate index now operation =>
      cases hq : company.inquirers[index]? with
      | none =>
          rw [take_operate_of_none hq]
          exact ⟨h, rfl, by simp, .nil, by simp⟩
      | some q =>
          rw [take_operate hq]
          exact h.advances_operate hlimit hq now operation
  | draw =>
      have hnext : (company.take .draw).2.reading.toNat = company.reading.toNat + 1 :=
        IdMove.toNat_next hlimit
      refine ⟨h.of_le rfl ?_, hnext, by simp [take], by simp [take], by simp [take]⟩
      rw [UInt64.le_iff_toNat_le, hnext]
      omega
  | clone =>
      exact ⟨h.of_le rfl (UInt64.le_refl _), rfl, by simp [take], by simp [take], by simp [take]⟩
  | disturb change =>
      exact ⟨h.of_le rfl (UInt64.le_refl _), rfl, by simp [take], by simp [take], by simp [take]⟩

theorem Disciplined.advances_takeAll (h : company.Disciplined) (turns : List (Turn τ))
    (hlimit : ∀ count ≤ turns.length,
      (company.takeAll (turns.take count)).2.reading.toNat < UInt64.size - 1) :
    Advances company turns (company.takeAll turns).1 (company.takeAll turns).2 := by
  induction turns generalizing company with
  | nil => exact h.advances
  | cons turn turns ih =>
      -- The limit after every number of turns is that of the rest after the first of them.
      have hstep := h.advances_take (hlimit 0 (Nat.zero_le _)) turn
      refine hstep.trans (ih hstep.disciplined fun count hcount => ?_)
      exact hlimit (count + 1) (Nat.succ_le_succ hcount)

/-- The ids of inquirers that share a counter, whatever the channel answers and whoever takes turns,
as long as the counter stays below its limit. Those of admitted submissions increase over all
inquirers in the order of the submissions. What an inquirer waits for increases too, up to what the
counter reads; no two inquirers wait for one id, and no drawn id is refused. The counter has moved
on by the ids that others drew and the submissions that got past their checks and the subscription,
so that one that was refused before has used none up. -/
theorem ids_of_shared_counter (settings : List Settings) (turns : List (Turn τ))
    (peers : Peers τ SharedCounter) :
    let start : Company τ := ⟨settings.map Inquirer.new, peers⟩
    let reports := (start.takeAll turns).1
    let company := (start.takeAll turns).2
    (∀ count ≤ turns.length, (start.takeAll (turns.take count)).2.reading.toNat < UInt64.size - 1) →
    (reports.filterMap Report.admitted?).Pairwise (· < ·) ∧
    (∀ q ∈ company.inquirers, q.waitingIds.Pairwise (· < ·) ∧
      ∀ id ∈ q.waitingIds, id ≤ company.reading) ∧
    (∀ (i j : Nat) (q other : Inquirer) (id : RequestId), company.inquirers[i]? = some q →
      company.inquirers[j]? = some other → id ∈ q.waitingIds → id ∈ other.waitingIds → i = j) ∧
    (∀ report ∈ reports, ∀ id,
      report.result ≠ .submitted (.error (.invalid (.alreadyWaiting id)))) ∧
    company.reading.toNat =
      start.reading.toNat + turns.countP Turn.isDraw + reports.countP Report.gotThrough := by
  intro start reports company hlimit
  have hadvances : Advances start turns reports company :=
    (disciplined_new settings peers).advances_takeAll turns hlimit
  refine ⟨hadvances.increasing, fun q hq => ?_, hadvances.disciplined.apart, hadvances.accepted,
    hadvances.reading⟩
  have hq : q.Disciplined company.reading := hadvances.disciplined.each q hq
  exact ⟨hq.increasing, hq.bounded⟩

def fiveTurns : List (Turn Recorder) :=
  [.operate 0 .start (.submit (oneKey 0)), .operate 1 .start (.submit (oneKey 1)), .draw,
    .operate 1 .start (.submit (oneKey 2)), .operate 0 .start (.submit (oneKey 3))]

theorem ids_of_shared_counter_two :
    let start : Company Recorder :=
      ⟨[.atMost 2, .atMost 1].map Inquirer.new, ⟨.new, .new (.after 4)⟩⟩
    let reports := (start.takeAll fiveTurns).1
    let company := (start.takeAll fiveTurns).2
    reports.filterMap Report.admitted? = [5, 6, 8] ∧
      (reports.filterMap Report.admitted?).Pairwise (· < ·) ∧
      company.inquirers.map (·.waitingIds) = [[5, 8], [6]] ∧
      reports.countP Report.gotThrough = 3 ∧
      company.reading.toNat = 4 + fiveTurns.countP Turn.isDraw + 3 := by
  intro start reports company
  obtain ⟨hincreasing, -, -, -, hreading⟩ :=
    ids_of_shared_counter [.atMost 2, .atMost 1] fiveTurns ⟨.new, .new (.after 4)⟩
      (by decide +kernel)
  have hthrough : reports.countP Report.gotThrough = 3 := by decide +kernel
  refine ⟨by decide +kernel, hincreasing, by decide +kernel, hthrough, ?_⟩
  rw [← hthrough]
  exact hreading

end Company

end AttributeExchange
