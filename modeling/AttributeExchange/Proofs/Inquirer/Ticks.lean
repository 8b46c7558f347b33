import AttributeExchange.Proofs.Inquirer.Deadlines
import AttributeExchange.Proofs.Inquirer.Step
import AttributeExchange.Proofs.Inquirer.Undisturbed

/-!
# Retirements that coalesce

What is due stays due. So to retire requests at several instants, none later than the last, comes to
the same as to retire them once at the last: each request goes at the first instant that finds it
due, and the filter is given up at the instant that takes out the last request.
-/

namespace AttributeExchange

instance : Trans (α := Instant) (β := Instant) (γ := Instant) (· ≤ ·) (· ≤ ·) (· ≤ ·) where
  trans {t u v} htu huv := by
    rw [Instant.le_iff_nanos_le] at htu huv ⊢
    exact Nat.le_trans htu huv

theorem OpenRequest.isDue_mono (request : OpenRequest) {earlier later : Instant}
    (hle : earlier ≤ later) (hdue : request.isDue earlier = true) : request.isDue later = true := by
  obtain ⟨deadline, hdeadline, hcame⟩ := (request.timer.isDue_iff earlier).mp hdue
  have hpast : deadline ≤ later := Trans.trans hcame hle
  exact (request.timer.isDue_iff later).mpr ⟨deadline, hdeadline, hpast⟩

namespace Inquirer

/-! ## What is due at two instants -/

section Due

variable {earlier later : Instant}

theorem filter_open_of_le (hle : earlier ≤ later) (requests : List OpenRequest) :
    (requests.filter (!·.isDue earlier)).filter (!·.isDue later) =
      requests.filter (!·.isDue later) := by
  rw [List.filter_filter]
  apply List.filter_congr
  intro request _
  have hmono := request.isDue_mono hle
  cases hearlier : request.isDue earlier with
  | false => simp
  | true => simp [hmono hearlier]

theorem filter_due_perm_of_le (hle : earlier ≤ later) (requests : List OpenRequest) :
    (requests.filter (·.isDue earlier) ++
        (requests.filter (!·.isDue earlier)).filter (·.isDue later)).Perm
      (requests.filter (·.isDue later)) := by
  have hearly : requests.filter (·.isDue earlier) =
      (requests.filter (·.isDue later)).filter (·.isDue earlier) := by
    rw [List.filter_filter]
    apply List.filter_congr
    intro request _
    have hmono := request.isDue_mono hle
    cases hearlier : request.isDue earlier with
    | false => simp
    | true => simp [hmono hearlier]
  have hlate := List.filter_comm (·.isDue later) (!·.isDue earlier) requests
  rw [hearly, hlate]
  exact List.filter_append_perm (·.isDue earlier) (requests.filter (·.isDue later))

theorem eq_nil_iff_filter (p : OpenRequest → Bool) (requests : List OpenRequest) :
    requests = [] ↔ requests.filter p = [] ∧ requests.filter (!p ·) = [] := by
  rw [← List.append_eq_nil_iff]
  have hsplit := (List.filter_append_perm p requests).length_eq
  rw [← List.length_eq_zero_iff, ← List.length_eq_zero_iff, hsplit]

end Due

/-! ## The calls of one retirement -/

def publications (requests : List OpenRequest) : List Call :=
  requests.filterMap (·.inquiry.expiryCall?)

/-- The call that gives the response filter up, if requests were closed and none is left. -/
def released (closed left : List OpenRequest) : List Call :=
  if closed ≠ [] ∧ left = [] then [.unsubscribe Topic.responseFilter] else []

theorem Lapsing.calls_eq {requests : List OpenRequest} {lapsed : List Event}
    (h : Lapsing requests lapsed) : Event.calls lapsed = publications requests := by
  induction h with
  | nil => rfl
  | @cons request requests deeds accepted _ ih =>
      rw [Event.calls_append, ih, publications, publications, List.filterMap_cons]
      cases hexpiry : request.inquiry.expiry <;>
        simp only [lapseDeeds, Inquiry.expiryCall?, hexpiry] <;> rfl

theorem Lapsing.made_eq {requests : List OpenRequest} {lapsed : List Event}
    (h : Lapsing requests lapsed) : Event.made lapsed = [] := by
  rw [Event.made, List.filterMap_eq_nil_iff]
  intro event hevent
  obtain ⟨request, -, rfl | ⟨topic, document, accepted, rfl⟩⟩ := h.of_mem hevent
  · rfl
  · rfl

/-- Of two releases in a row at most one calls the channel, as the one for both does. -/
theorem released_append {closed first second between left : List OpenRequest}
    (hclosed : closed = [] ↔ first = [] ∧ second = [])
    (hbetween : between = [] ↔ second = [] ∧ left = []) :
    released first between ++ released second left = released closed left := by
  by_cases hfirst : first = [] <;> by_cases hsecond : second = [] <;>
    simp [released, hclosed, hbetween, hfirst, hsecond]

theorem eq_of_perm_released {calls others : List Call} {closed left : List OpenRequest}
    (hothers : others = released closed left) (hperm : calls.Perm others) : calls = others := by
  subst hothers
  by_cases hreleased : closed ≠ [] ∧ left = []
  · rw [released, if_pos hreleased] at hperm ⊢
    exact hperm.eq_singleton
  · rw [released, if_neg hreleased] at hperm ⊢
    exact hperm.eq_nil

theorem lapses_append (requests more : List OpenRequest) :
    lapses (requests ++ more) = lapses requests ++ lapses more := by
  simp [lapses]

theorem lapses_perm {requests others : List OpenRequest} (h : requests.Perm others) :
    (lapses requests).Perm (lapses others) :=
  (h.filter _).map _

theorem publications_append (requests more : List OpenRequest) :
    publications (requests ++ more) = publications requests ++ publications more :=
  List.filterMap_append

theorem publications_perm {requests others : List OpenRequest} (h : requests.Perm others) :
    (publications requests).Perm (publications others) :=
  h.filterMap _

theorem publications_eq_nil_iff {requests : List OpenRequest} :
    publications requests = [] ↔ ∀ request ∈ requests, request.inquiry.expiryCall? = none :=
  List.filterMap_eq_nil_iff

variable {σ : Type}

section RetiredAt

variable {settings : Settings} {requests : List OpenRequest} {now : Instant}
  {outcome : Outcome σ (List RequestId × Inquirer)}

theorem RetiredAt.made (h : RetiredAt settings requests now outcome) :
    Event.made outcome.events =
      released (requests.filter (·.isDue now)) (requests.filter (!·.isDue now)) := by
  obtain ⟨lapsed, accepted, hlapsed, hdeeds⟩ := h.deeds
  rw [← Event.made_deeds, hdeeds, Event.made_append, hlapsed.made_eq, List.nil_append, released]
  split
  · rfl
  · rfl

theorem RetiredAt.calls (h : RetiredAt settings requests now outcome) :
    Event.calls outcome.events = publications (requests.filter (·.isDue now)) ++
      released (requests.filter (·.isDue now)) (requests.filter (!·.isDue now)) := by
  obtain ⟨lapsed, accepted, hlapsed, hdeeds⟩ := h.deeds
  rw [← Event.calls_deeds, hdeeds, Event.calls_append, hlapsed.calls_eq, released]
  split
  · rfl
  · rfl

theorem RetiredAt.calls_of_silent (h : RetiredAt settings requests now outcome)
    (hsilent : publications (requests.filter (·.isDue now)) = []) :
    Event.calls outcome.events =
      released (requests.filter (·.isDue now)) (requests.filter (!·.isDue now)) := by
  rw [h.calls, hsilent, List.nil_append]

end RetiredAt

/-! ## What silent handlers leave of the collaborators -/

variable [Channel σ]

def releaseAfter (closed left : List OpenRequest) : Exchange σ Unit :=
  if closed = [] then return () else release left

theorem releaseAfter_bind {closed first second between left : List OpenRequest}
    (hclosed : closed = [] ↔ first = [] ∧ second = [])
    (hbetween : between = [] ↔ second = [] ∧ left = []) :
    (do releaseAfter first between; releaseAfter second left : Exchange σ Unit) =
      releaseAfter closed left := by
  by_cases hfirst : first = []
  · have hsame : closed = [] ↔ second = [] := by simp [hclosed, hfirst]
    simp [releaseAfter, hfirst, hsame]
  · have hsome : closed ≠ [] := fun hnone => hfirst (hclosed.mp hnone).1
    by_cases hsecond : second = []
    · have hsame : between = [] ↔ left = [] := by simp [hbetween, hsecond]
      simp [releaseAfter, release, hfirst, hsecond, hsome, hsame]
    · have hkept : between ≠ [] := fun hnone => hsecond (hbetween.mp hnone).1
      simp [releaseAfter, release, hfirst, hsecond, hsome, hkept]

theorem peers_lapseEach {requests : List OpenRequest} (hsilent : publications requests = [])
    (peers : σ) : ((lapseEach requests).run peers).peers = peers := by
  induction requests generalizing peers with
  | nil => rfl
  | cons request requests ih =>
      obtain ⟨hfirst, hrest⟩ := List.forall_mem_cons.mp (publications_eq_nil_iff.mp hsilent)
      have hlapse : (request.inquiry.lapse.run peers).peers = peers := by
        cases hexpiry : request.inquiry.expiry with
        | absent => simp [Inquiry.lapse, hexpiry]
        | silent => simp [Inquiry.lapse, hexpiry]
        | publishing topic document => simp [Inquiry.expiryCall?, hexpiry] at hfirst
      simp only [lapseEach, Exchange.run_bind, hlapse]
      exact ih (publications_eq_nil_iff.mpr hrest) peers

theorem peers_retire (settings : Settings) {requests : List OpenRequest} {now : Instant}
    (hsilent : publications (requests.filter (·.isDue now)) = []) (peers : σ) :
    (((waitingFor settings requests).retire now).run peers).peers =
      ((releaseAfter (requests.filter (·.isDue now)) (requests.filter (!·.isDue now))).run
        peers).peers := by
  have hrun := congrArg (fun step => (step.run peers).peers)
    (deeds_retire (σ := σ) settings requests now)
  rw [Exchange.run_deeds] at hrun
  by_cases hdue : requests.filter (·.isDue now) = []
  · simpa [releaseAfter, hdue] using hrun
  · simpa [releaseAfter, hdue, peers_lapseEach hsilent] using hrun

/-! ## Two retirements -/

/-- That two retirements came to the same as one. -/
structure Merged (first second one : Outcome σ (List RequestId × Inquirer)) : Prop where
  ids : (first.value.1 ++ second.value.1).Perm one.value.1
  inquirer : second.value.2 = one.value.2
  made : Event.made first.events ++ Event.made second.events = Event.made one.events
  calls : (Event.calls first.events ++ Event.calls second.events).Perm (Event.calls one.events)
  runs : (Event.runs first.events ++ Event.runs second.events).Perm (Event.runs one.events)

section Merged

variable {settings : Settings} {requests : List OpenRequest} {now last : Instant}

theorem filter_due_eq_nil_iff (hle : now ≤ last) (requests : List OpenRequest) :
    requests.filter (·.isDue last) = [] ↔ requests.filter (·.isDue now) = [] ∧
      (requests.filter (!·.isDue now)).filter (·.isDue last) = [] := by
  rw [← List.append_eq_nil_iff, ← List.length_eq_zero_iff, ← List.length_eq_zero_iff,
    (filter_due_perm_of_le hle requests).length_eq]

theorem filter_open_eq_nil_iff (hle : now ≤ last) (requests : List OpenRequest) :
    requests.filter (!·.isDue now) = [] ↔
      (requests.filter (!·.isDue now)).filter (·.isDue last) = [] ∧
        requests.filter (!·.isDue last) = [] := by
  have hsplit := eq_nil_iff_filter (·.isDue last) (requests.filter (!·.isDue now))
  rwa [filter_open_of_le hle] at hsplit

omit [Channel σ] in
theorem RetiredAt.merged (hle : now ≤ last)
    {first second one : Outcome σ (List RequestId × Inquirer)}
    (hfirst : RetiredAt settings requests now first)
    (hsecond : RetiredAt settings (requests.filter (!·.isDue now)) last second)
    (hone : RetiredAt settings requests last one) : Merged first second one := by
  have hdue := filter_due_perm_of_le hle requests
  have hopen := filter_open_of_le hle requests
  have hreleased := released_append (filter_due_eq_nil_iff hle requests)
    (filter_open_eq_nil_iff hle requests)
  constructor
  · rw [hfirst.ids, hsecond.ids, hone.ids, ← List.map_append]
    exact hdue.map _
  · rw [hsecond.inquirer, hone.inquirer, hopen]
  · rw [hfirst.made, hsecond.made, hone.made, hopen, hreleased]
  · -- The publications of the second retirement come before the release of the first, if any.
    rw [hfirst.calls, hsecond.calls, hone.calls, hopen, ← hreleased]
    have hpublished := publications_perm hdue
    rw [publications_append] at hpublished
    refine List.Perm.trans ?_ (hpublished.append_right _)
    simp only [List.append_assoc]
    exact (List.perm_append_comm_assoc _ _ _).append_left _
  · rw [hfirst.runs, hsecond.runs, hone.runs, ← lapses_append]
    exact lapses_perm hdue

theorem publications_append_eq_nil (hle : now ≤ last)
    (hsilent : publications (requests.filter (·.isDue last)) = []) :
    publications (requests.filter (·.isDue now)) = [] ∧
      publications ((requests.filter (!·.isDue now)).filter (·.isDue last)) = [] := by
  have hperm := publications_perm (filter_due_perm_of_le hle requests)
  rw [hsilent, publications_append] at hperm
  exact List.append_eq_nil_iff.mp hperm.eq_nil

theorem peers_retire_retire (hle : now ≤ last)
    (hsilent : publications (requests.filter (·.isDue last)) = []) (peers : σ) :
    let first := ((waitingFor settings requests).retire now).run peers
    (((waitingFor settings (requests.filter (!·.isDue now))).retire last).run first.peers).peers =
      (((waitingFor settings requests).retire last).run peers).peers := by
  intro first
  obtain ⟨hearly, hlate⟩ := publications_append_eq_nil hle hsilent
  have hreleases := congrArg (fun step => (step.run peers).peers)
    (releaseAfter_bind (σ := σ) (filter_due_eq_nil_iff hle requests)
      (filter_open_eq_nil_iff hle requests))
  rw [peers_retire settings hlate, peers_retire settings hearly, peers_retire settings hsilent,
    filter_open_of_le hle, ← hreleases, Exchange.run_bind]

end Merged

/-! ## Retirements one after the other -/

/-- That retirements one after the other came to the same as one retirement. -/
structure Coalesced (waiting : List RequestId) (several : Outcome σ (List Result × Inquirer))
    (one : Outcome σ (List RequestId × Inquirer)) : Prop where
  inquirer : several.value.2 = one.value.2
  made : Event.made several.events = Event.made one.events
  calls : (Event.calls several.events).Perm (Event.calls one.events)
  runs : (Event.runs several.events).Perm (Event.runs one.events)
  batches : ∃ batches : List (List RequestId), several.value.1 = batches.map .retired ∧
    batches.flatten.Perm one.value.1 ∧ ∀ batch ∈ batches, batch.Sublist waiting

variable [IdSource σ]

theorem run_performAll_retire (q : Inquirer) (now : Instant) (history : List (Instant × Operation))
    (peers : σ) :
    let first := (q.retire now).run peers
    let rest := (first.value.2.performAll history).run first.peers
    (q.performAll ((now, .retire) :: history)).run peers =
      ⟨(.retired first.value.1 :: rest.value.1, rest.value.2), rest.peers,
        first.events ++ rest.events⟩ := by
  simp [run_performAll_cons, perform]

theorem coalesced_ticks (settings : Settings) (requests : List OpenRequest)
    (earlier : List Instant) {last : Instant} (hle : ∀ tick ∈ earlier, tick ≤ last) (peers : σ) :
    Coalesced (requests.map (·.id))
      (((waitingFor settings requests).performAll
        ((earlier ++ [last]).map (·, .retire))).run peers)
      (((waitingFor settings requests).retire last).run peers) := by
  have hsublist (tick : Instant) :
      ((requests.filter (·.isDue tick)).map (·.id)).Sublist (requests.map (·.id)) :=
    List.filter_sublist.map _
  induction earlier generalizing requests peers with
  | nil =>
      have hone := retiredAt_retire settings requests last peers
      rw [List.nil_append, List.map_cons, List.map_nil, run_performAll_retire]
      constructor
      · rfl
      · simp [performAll]
      · simp [performAll]
      · simp [performAll]
      · refine ⟨[_], rfl, by simp, ?_⟩
        intro batch hbatch
        rw [List.mem_singleton.mp hbatch, hone.ids]
        exact hsublist last
  | cons tick earlier ih =>
      -- The later ticks come to one at the last, which merges with the first of all.
      have hfirst := retiredAt_retire settings requests tick peers
      have hone := retiredAt_retire settings requests last peers
      rw [List.cons_append, List.map_cons, run_performAll_retire, hfirst.inquirer]
      generalize ((waitingFor settings requests).retire tick).run peers = first at *
      have hsecond := retiredAt_retire settings (requests.filter (!·.isDue tick)) last first.peers
      have hmerged := hfirst.merged (hle tick List.mem_cons_self) hsecond hone
      have hrest := ih (requests.filter (!·.isDue tick))
        (fun other hother => hle other (List.mem_cons_of_mem _ hother)) first.peers
        (fun _ => List.filter_sublist.map _)
      obtain ⟨batches, hresults, hids, hbatches⟩ := hrest.batches
      constructor
      · exact hrest.inquirer.trans hmerged.inquirer
      · rw [Event.made_append, hrest.made, hmerged.made]
      · rw [Event.calls_append]
        exact (hrest.calls.append_left _).trans hmerged.calls
      · rw [Event.runs_append]
        exact (hrest.runs.append_left _).trans hmerged.runs
      · refine ⟨first.value.1 :: batches, by rw [hresults, List.map_cons], ?_, ?_⟩
        · rw [List.flatten_cons]
          exact (hids.append_left _).trans hmerged.ids
        · intro batch hbatch
          rcases List.mem_cons.mp hbatch with rfl | hbatch
          · rw [hfirst.ids]
            exact hsublist tick
          · exact (hbatches batch hbatch).trans (List.filter_sublist.map _)

theorem peers_ticks (settings : Settings) (requests : List OpenRequest) (earlier : List Instant)
    {last : Instant} (hle : ∀ tick ∈ earlier, tick ≤ last)
    (hsilent : publications (requests.filter (·.isDue last)) = []) (peers : σ) :
    (((waitingFor settings requests).performAll
        ((earlier ++ [last]).map (·, .retire))).run peers).peers =
      (((waitingFor settings requests).retire last).run peers).peers := by
  induction earlier generalizing requests peers with
  | nil => rw [List.nil_append, List.map_cons, List.map_nil, run_performAll_retire]; rfl
  | cons tick earlier ih =>
      have hbefore : tick ≤ last := hle tick List.mem_cons_self
      have hlater : publications ((requests.filter (!·.isDue tick)).filter (·.isDue last)) = [] :=
        (publications_append_eq_nil hbefore hsilent).2
      rw [List.cons_append, List.map_cons, run_performAll_retire,
        (retiredAt_retire settings requests tick peers).inquirer,
        ← peers_retire_retire hbefore hsilent]
      exact ih _ (fun other hother => hle other (List.mem_cons_of_mem _ hother)) hlater _

/-- Retirements at instants in order do to a reachable inquirer what the last of them does alone:
the same requests go, and each expiry handler runs as often. The inquirer makes the same calls, and
if those handlers publish nothing the channel sees no difference at all. -/
theorem ticks_coalesce {settings : Settings} {q : Inquirer} (hq : Reachable settings q)
    (earlier : List Instant) (last : Instant) (hticks : (earlier ++ [last]).IsChain (· ≤ ·))
    (peers : σ) :
    let several := (q.performAll ((earlier ++ [last]).map (·, .retire))).run peers
    let one := (q.retire last).run peers
    let due := q.outstanding.requests.filter (·.isDue last)
    several.value.2 = one.value.2 ∧ Event.made several.events = Event.made one.events ∧
      (Event.calls several.events).Perm (Event.calls one.events) ∧
      ((∀ request ∈ due, request.inquiry.expiryCall? = none) →
        several.peers = one.peers ∧ Event.calls several.events = Event.calls one.events) ∧
      (∃ batches : List (List RequestId), several.value.1 = batches.map .retired ∧
        batches.flatten.Perm one.value.1 ∧ ∀ batch ∈ batches, batch.Sublist q.waitingIds) ∧
      one.value.1 = due.map (·.id) ∧ one.value.1.Nodup ∧
      Event.runs one.events = lapses due ∧ (Event.runs several.events).Perm (lapses due) ∧
      (several.value.2.retire last).run several.peers =
        ⟨([], several.value.2), several.peers, []⟩ := by
  obtain ⟨requests, horderly, rfl⟩ := hq.exists_waitingFor
  intro several one due
  have hle : ∀ tick ∈ earlier, tick ≤ last := by
    intro tick htick
    have hpairwise := List.isChain_iff_pairwise.mp hticks
    exact (List.pairwise_append.mp hpairwise).2.2 tick htick last (List.mem_singleton_self last)
  have hone : RetiredAt settings requests last one :=
    retiredAt_retire settings requests last peers
  have hsame : Coalesced (requests.map (·.id)) several one :=
    coalesced_ticks settings requests earlier hle peers
  have hnodup : (due.map (·.id)).Nodup := (horderly.sublist List.filter_sublist).ids
  have hleft : several.value.2.outstanding.requests = requests.filter (!·.isDue last) := by
    rw [hsame.inquirer, hone.inquirer, outstanding_waitingFor]
  have hidle : several.value.2.outstanding.requests.filter (·.isDue last) = [] := by
    rw [hleft, List.filter_eq_nil_iff]
    intro request hmem hdue
    simp [hdue] at hmem
  refine ⟨hsame.inquirer, hsame.made, hsame.calls, fun hsilent => ?_, hsame.batches, hone.ids,
    hone.ids ▸ hnodup, hone.runs, hone.runs ▸ hsame.runs, run_retire_of_idle hidle several.peers⟩
  have hnone : publications due = [] := publications_eq_nil_iff.mpr hsilent
  exact ⟨peers_ticks settings requests earlier hle hnone peers,
    eq_of_perm_released (hone.calls_of_silent hnone) hsame.calls⟩

/-- The second retirement finds nothing due, and the third takes the last request out. -/
theorem ticks_coalesce_staggered :
    let peers : Peers Recorder Script := ⟨.new, ⟨[]⟩⟩
    let ticks : List Instant := [⟨.ofSeconds 1⟩, ⟨.ofMillis 1500⟩]
    let last : Instant := ⟨.ofSeconds 2⟩
    let several := (staggered.performAll ((ticks ++ [last]).map (·, .retire))).run peers
    let one := (staggered.retire last).run peers
    Reachable (.atMost 2) staggered ∧ (ticks ++ [last]).IsChain (· ≤ ·) ∧
      several.value.1 = [.retired [7], .retired [], .retired [8]] ∧ one.value.1 = [7, 8] ∧
      several.value.2 = one.value.2 ∧
      Event.made several.events = [.unsubscribe Topic.responseFilter] ∧
      Event.calls several.events = Event.calls one.events ∧
      (Event.runs several.events).Perm [.lapsed 0, .lapsed 1] := by
  intro peers ticks last several one
  have hticks : (ticks ++ [last]).IsChain (· ≤ ·) := by decide
  obtain ⟨hinquirer, -, -, hsilent, -, -, -, -, hruns, -⟩ :=
    ticks_coalesce reachable_staggered ticks last hticks peers
  obtain ⟨-, hcalls⟩ := hsilent (by decide +kernel)
  exact ⟨reachable_staggered, hticks, rfl, rfl, hinquirer, rfl, hcalls, hruns⟩

end Inquirer

end AttributeExchange
