import AttributeExchange.Proofs.Inquirer.Once
import AttributeExchange.Proofs.Message.Topic

/-!
# Undisturbed requests

A request that is neither answered nor dropped together with all others can go in one way only: it
is retired once its deadline has come. What an operation does to such a request is said here for one
move and then for a run, over which the request stays pending or expires, as its timer has it.
-/

namespace AttributeExchange.Inquirer

namespace Operation

/-- Whether an operation closes the request with an id at any time: an answer to it does, and so
does whatever drops all requests. -/
def Closes (id : RequestId) : Operation → Prop
  | .receive topic _ => Topic.parseId? Topic.responseBase topic = some id
  | .cancelAll | .reconnect => True
  | .submit _ | .retire => False

def tick? (now : Instant) : Operation → Option Instant
  | .retire => some now
  | .submit _ | .receive _ _ | .cancelAll | .reconnect => none

@[simp] theorem closes_labelled (id : RequestId) (label : Nat) (operation : Operation) :
    (operation.labelled label).Closes id ↔ operation.Closes id := by
  cases operation <;> rfl

@[simp] theorem tick?_labelled (now : Instant) (label : Nat) (operation : Operation) :
    (operation.labelled label).tick? now = operation.tick? now := by
  cases operation <;> rfl

end Operation

def ticks (history : List (Instant × Operation)) : List Instant :=
  history.filterMap fun entry => entry.2.tick? entry.1

/-! ## One move -/

section Move

variable {settings : Settings} {requests after : List OpenRequest} {now : Instant}
  {operation : Operation} {result : Result} {deeds : List Event}

/-- A request that a move does not close is kept, unless the move retires it. -/
theorem Move.fateOf?_of_not_closes
    (hmove : Move settings requests now operation result deeds after) (h : Orderly requests)
    {request : OpenRequest} (hmem : request ∈ requests) (hopen : ¬ operation.Closes request.id) :
    result.fateOf? request.id =
      if (operation.tick? now).any request.isDue then some .expired else none := by
  cases hmove with
  | refused => rfl
  | notSubscribed => rfl
  | noId => rfl
  | alreadyWaiting => rfl
  | opened => rfl
  | unknown => rfl
  | @answered topic document addressed haddressee =>
      obtain ⟨found, hparse, hfind⟩ := Option.bind_eq_some_iff.mp haddressee
      have hfound : addressed.id = found := by simpa using List.find?_some hfind
      have hother : addressed.id ≠ request.id := by
        intro hid
        apply hopen
        rw [Operation.Closes, hparse, ← hfound, hid]
      exact if_neg hother
  | idle hdue =>
      have hnot : ¬ request.isDue now = true := List.filter_eq_nil_iff.mp hdue request hmem
      simp [Result.fateOf?, Operation.tick?, hnot]
  | retired =>
      simp only [Result.fateOf?, OpenRequest.mem_ids_filter h.ids _ hmem]
      rfl
  | cancelled hall => rcases hall with rfl | rfl <;> exact absurd trivial hopen

end Move

/-! ## A run -/

section Run

variable {σ : Type} [Channel σ] [IdSource σ]

/-- An admitted submission has a record from then on, under its position as label. -/
theorem exists_record_of_admitted (settings : Settings) {history : List (Instant × Operation)}
    {results : List Result} {position : Nat} {now : Instant} {s : Submission} {result : Result}
    {id : RequestId} (hoperation : history[position]? = some (now, .submit s))
    (hresult : results[position]? = some result) (hadmitted : result.admitted? = some id) :
    ∃ fate?, record? settings (labelled history) results position =
      some ⟨({ s with inquiry.tag := position } : Submission).opening settings id now, fate?⟩ := by
  have hadmission : admissionAt? settings (labelled history) results position =
      some (({ s with inquiry.tag := position } : Submission).opening settings id now) := by
    simp [admissionAt?, labelled, List.getElem?_mapIdx, hoperation, hresult, Operation.labelled,
      admission?, hadmitted]
  exact ⟨_, by rw [record?, hadmission, Option.map_some]⟩

theorem any_isDue_opening_iff {s : Submission} {settings : Settings} {id : RequestId}
    {opened : Instant} {instants : List Instant} :
    instants.any (s.opening settings id opened).isDue = true ↔
      ∃ deadline, (s.inquiry.timeout.or settings.timeout).bind opened.add? = some deadline ∧
        ∃ now ∈ instants, deadline ≤ now := by
  have hdue : ∀ now, (s.opening settings id opened).isDue now = true ↔ ∃ deadline,
      (s.inquiry.timeout.or settings.timeout).bind opened.add? = some deadline ∧ deadline ≤ now :=
    fun now => Timer.isDue_iff _ now
  simp only [List.any_eq_true, hdue]
  constructor
  · rintro ⟨now, hnow, deadline, hdeadline, hle⟩
    exact ⟨deadline, hdeadline, now, hnow, hle⟩
  · rintro ⟨deadline, hdeadline, now, hnow, hle⟩
    exact ⟨now, hnow, deadline, hdeadline, hle⟩

theorem mem_pending_of_record? {settings : Settings} {history : List (Instant × Operation)}
    {results : List Result} {position : Nat} {record : Record}
    (h : record? settings history results position = some record) (hopen : record.fate? = none) :
    record.request ∈ pending settings history results := by
  have hposition : position < history.length := by
    by_contra hlast
    rw [record?_eq_none (by omega)] at h
    cases h
  refine List.mem_filterMap.mpr ⟨position, List.mem_range.mpr hposition, ?_⟩
  simp [h, Record.pending?, hopen]

theorem exists_move_concat (settings : Settings) (history : List (Instant × Operation))
    (now : Instant) (operation : Operation) (peers : σ) :
    let before := ((new settings).performAll (labelled history)).run peers
    let whole := ((new settings).performAll (labelled (history ++ [(now, operation)]))).run peers
    ∃ result deeds after, whole.value.1 = before.value.1 ++ [result] ∧
      Move settings (pending settings (labelled history) before.value.1) now
        (operation.labelled history.length) result deeds after := by
  intro before whole
  have haccounted : Accounted settings (labelled history) before :=
    accounted_performAll settings history peers
  obtain ⟨after, -, hmove⟩ := ends_perform settings haccounted.orderly now
    (operation.labelled history.length) before.peers
  rw [← haccounted.waiting] at hmove
  refine ⟨_, _, after, ?_, hmove⟩
  simp only [whole, labelled_concat, run_performAll_append]
  rfl

/-- One more operation extends the records that there are, and it may begin one. -/
theorem exists_move_of_record?_concat (settings : Settings) (history : List (Instant × Operation))
    (now : Instant) (operation : Operation) (peers : σ) {position : Nat} {record : Record} :
    let before := ((new settings).performAll (labelled history)).run peers
    let whole := ((new settings).performAll (labelled (history ++ [(now, operation)]))).run peers
    record? settings (labelled (history ++ [(now, operation)])) whole.value.1 position =
      some record →
    (position = history.length ∧ record.fate? = none) ∨
      ∃ earlier result deeds after,
        record? settings (labelled history) before.value.1 position = some earlier ∧
        record = earlier.after [result] ∧
        Move settings (pending settings (labelled history) before.value.1) now
          (operation.labelled history.length) result deeds after := by
  intro before whole hrecord
  have hlength : before.value.1.length = (labelled history).length :=
    (accounted_performAll settings history peers).length
  obtain ⟨result, deeds, after, hresults, hmove⟩ :=
    exists_move_concat settings history now operation peers
  rw [show whole.value.1 = _ from hresults, labelled_concat] at hrecord
  rcases Nat.lt_trichotomy position (labelled history).length with hlt | rfl | hgt
  · rw [record?_append hlength hlt] at hrecord
    obtain ⟨earlier, hearlier, rfl⟩ := Option.map_eq_some_iff.mp hrecord
    exact .inr ⟨earlier, result, deeds, after, hearlier, rfl, hmove⟩
  · rw [record?_concat hlength] at hrecord
    obtain ⟨request, -, rfl⟩ := Option.map_eq_some_iff.mp hrecord
    exact .inl ⟨length_labelled, rfl⟩
  · rw [record?_eq_none (by rw [List.length_append]; exact hgt)] at hrecord
    cases hrecord

/-- What becomes of a request that nobody closes: it expires if some later retirement finds it due,
and otherwise it is pending. -/
theorem fate?_of_undisturbed (settings : Settings) (earlier later : List (Instant × Operation))
    (entry : Instant × Operation) (peers : σ) {record : Record} :
    let history := earlier ++ entry :: later
    let outcome := ((new settings).performAll (labelled history)).run peers
    record? settings (labelled history) outcome.value.1 earlier.length = some record →
    (∀ other ∈ later, ¬ other.2.Closes record.request.id) →
    record.fate? =
      if (ticks later).any record.request.isDue then some .expired else none := by
  -- From the end: each operation extends the record that those before it left.
  induction later using List.reverseRecOn generalizing record with
  | nil =>
      intro history outcome hrecord _
      rcases exists_move_of_record?_concat settings earlier entry.1 entry.2 peers hrecord with
        ⟨-, hnew⟩ | ⟨before, _, _, _, hbefore, -⟩
      · exact hnew
      · rw [record?_eq_none (by rw [length_labelled])] at hbefore
        cases hbefore
  | append_singleton later last ih =>
      obtain ⟨now, operation⟩ := last
      intro history outcome hrecord hleft
      have hhistory : history = (earlier ++ entry :: later) ++ [(now, operation)] := by
        simp [history]
      simp only [outcome, hhistory] at hrecord
      rcases exists_move_of_record?_concat settings (earlier ++ entry :: later) now operation peers
        hrecord with ⟨hlast, -⟩ | ⟨before, result, deeds, after, hbefore, rfl, hmove⟩
      · rw [List.length_append, List.length_cons] at hlast
        omega
      have hfate := ih hbefore fun other hother => hleft other (List.mem_append_left _ hother)
      have hticks : (ticks (later ++ [(now, operation)])).any before.request.isDue =
          ((ticks later).any before.request.isDue ||
            (operation.tick? now).any before.request.isDue) := by
        cases htick : operation.tick? now <;> simp [ticks, htick]
      change _ = if (ticks (later ++ [(now, operation)])).any before.request.isDue then _ else _
      rw [hticks]
      cases hdue : (ticks later).any before.request.isDue with
      | true =>
          rw [hdue, if_pos rfl] at hfate
          simp [Record.after, hfate]
      | false =>
          rw [hdue, if_neg Bool.false_ne_true] at hfate
          have hopen : ¬ (operation.labelled (earlier ++ entry :: later).length).Closes
              before.request.id := by
            rw [Operation.closes_labelled]
            exact hleft (now, operation) (List.mem_append_right _ (List.mem_singleton_self _))
          have hlast := hmove.fateOf?_of_not_closes
            (accounted_performAll settings (earlier ++ entry :: later) peers).orderly
            (mem_pending_of_record? hbefore hfate) hopen
          rw [Operation.tick?_labelled] at hlast
          simp [Record.after, hfate, hlast]

end Run

/-!
## Keeping a request

An inquirer keeps a request from the submission that opened it through every operation that spares
it. The answer on its topic then runs the response handler of that request and closes no other.
-/

/-- Whether an operation leaves the request with this id and deadline alone: it does not close it,
and it does not retire what is due by then. -/
def Operation.Spares (id : RequestId) (deadline? : Option Instant) (now : Instant)
    (operation : Operation) : Prop :=
  ¬ operation.Closes id ∧
    ∀ instant ∈ operation.tick? now, ∀ deadline ∈ deadline?, ¬ deadline ≤ instant

def Keeps (settings : Settings) (request : OpenRequest) (q : Inquirer) : Prop :=
  ∃ requests, Orderly requests ∧ q = waitingFor settings requests ∧ request ∈ requests

variable {σ : Type} [Channel σ] [IdSource σ] {settings : Settings} {request : OpenRequest}
  {q : Inquirer}

theorem Reachable.keeps_opening (h : Reachable settings q) (s : Submission) (now : Instant)
    (peers : σ) {id : RequestId} (hresult : ((q.submit s now).run peers).value.1 = .ok id) :
    ((q.submit s now).run peers).value.2.Keeps settings (s.opening settings id now) := by
  obtain ⟨requests, horderly, rfl⟩ := h.exists_waitingFor
  obtain ⟨after, hafter, hmove⟩ := exists_move_submit settings requests now s peers
  rw [hresult] at hmove
  refine ⟨after, hmove.orderly horderly, hafter, ?_⟩
  rw [hmove.after_eq horderly]
  exact List.mem_append_right _ (List.mem_singleton_self _)

theorem Keeps.perform (h : q.Keeps settings request) (now : Instant) {operation : Operation}
    (hspares : operation.Spares request.id request.timer.deadline now) (peers : σ) :
    ((q.perform now operation).run peers).value.2.Keeps settings request := by
  obtain ⟨requests, horderly, rfl, hmem⟩ := h
  obtain ⟨after, hinorder, hafter, hmove⟩ :=
    exists_move_perform settings horderly now operation peers
  refine ⟨after, hinorder, hafter, ?_⟩
  have hdue : (operation.tick? now).any request.isDue = false := by
    rw [← Bool.not_eq_true, Option.any_eq_true]
    rintro ⟨instant, hinstant, hdue⟩
    obtain ⟨deadline, hdeadline, hle⟩ := (Timer.isDue_iff _ _).mp hdue
    exact hspares.2 instant hinstant deadline hdeadline hle
  have hopen := hmove.fateOf?_of_not_closes horderly hmem hspares.1
  rw [hdue, if_neg Bool.false_ne_true] at hopen
  rw [hmove.after_eq horderly]
  exact List.mem_append_left _ (List.mem_filter.mpr ⟨hmem, by rw [hopen]; rfl⟩)

theorem Orderly.find?_id {requests : List OpenRequest} (h : Orderly requests)
    (hmem : request ∈ requests) : requests.find? (·.id = request.id) = some request := by
  cases hfind : requests.find? (·.id = request.id) with
  | none => exact absurd (decide_eq_true rfl) (List.find?_eq_none.mp hfind request hmem)
  | some found =>
      have hid : found.id = request.id := by simpa using List.find?_some hfind
      rw [h.eq_of_id_eq (List.mem_of_find?_eq_some hfind) hmem hid]

theorem Keeps.receive (h : q.Keeps settings request) (document : Json) (peers : σ) :
    let outcome := (q.receive (Topic.response request.id) document).run peers
    Event.runs outcome.events =
        [.answered request.inquiry.tag (request.wanted document)] ∧
      outcome.value.2.outstanding.requests =
        q.outstanding.requests.filter (·.id ≠ request.id) := by
  intro outcome
  obtain ⟨requests, horderly, rfl, hmem⟩ := h
  -- The id in the topic finds this request, for no two have one id.
  have haddressee : addressee? requests (Topic.response request.id) = some request := by
    rw [addressee?, Topic.response, Topic.parseId?_ofId]
    exact horderly.find?_id hmem
  obtain ⟨after, hafter, hmove⟩ := ends_receive settings horderly.members .start
    (Topic.response request.id) document peers
  simp only [Inquirer.perform, Exchange.run_deeds, Exchange.run_bind, Exchange.run_pure,
    List.append_nil] at hafter hmove
  rw [← Event.runs_deeds, hafter]
  generalize Result.received _ = result at hmove
  generalize Event.deeds outcome.events = deeds at hmove ⊢
  cases hmove with
  | unknown hnone =>
      rw [haddressee] at hnone
      cases hnone
  | @answered _ _ addressed hsome passed accepted =>
      obtain rfl : request = addressed := Option.some.inj (haddressee.symm.trans hsome)
      refine ⟨?_, OpenRequest.eraseP_id horderly.ids request.id⟩
      rw [Event.runs_cons_answered, Event.runs_append, runs_forwardDeeds, runs_releaseDeeds]
      rfl
  | cancelled hall => rcases hall with hall | hall <;> cases hall

end AttributeExchange.Inquirer
