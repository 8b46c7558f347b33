import AttributeExchange.Proofs.Inquirer.Submission

/-!
# Records of a history

What a history and its results say about each submission, told by its position: whether it was
admitted, the request that it opened, and what became of that request. The first later result that
names the id decides, so two requests under one id are told apart.
-/

namespace AttributeExchange

inductive Inquiry.Handler where
  | response
  | expiry
  deriving DecidableEq, Repr

/-- Whether an inquiry brings a handler. Only the one for expiry may be missing. -/
def Inquiry.has (inquiry : Inquiry) : Inquiry.Handler → Bool
  | .response => true
  | .expiry => inquiry.hasExpiryHandler

def Event.isRunOf (handler : Inquiry.Handler) (tag : Nat) : Event → Bool
  | .answered other _ => handler = .response && other = tag
  | .lapsed other => handler = .expiry && other = tag
  | .called _ _ | .forwarded _ _ | .drew _ | .asked _ _ | .noted _ => false

theorem Event.countP_isRunOf_deeds (handler : Inquiry.Handler) (tag : Nat) (events : List Event) :
    (deeds events).countP (isRunOf handler tag) = events.countP (isRunOf handler tag) := by
  rw [deeds, List.countP_filter]
  congr 1
  funext event
  cases event <;> simp [isRunOf, isNotice]

theorem Event.countP_isRunOf_runs (handler : Inquiry.Handler) (tag : Nat) (events : List Event) :
    (runs events).countP (isRunOf handler tag) = events.countP (isRunOf handler tag) := by
  rw [runs, List.countP_filter]
  congr 1
  funext event
  cases event <;> simp [isRunOf, isRun]

namespace Inquirer

/-- What becomes of a request that is no longer waited for. -/
inductive Fate where
  | fulfilled
  | expired
  | cancelled
  deriving DecidableEq, Repr

def Fate.ofRun : Inquiry.Handler → Fate
  | .response => .fulfilled
  | .expiry => .expired

namespace Result

/-- The id under which a submission was admitted. A request that could not be sent is admitted all
the same. -/
def admitted? : Result → Option RequestId
  | .submitted (.ok id) | .submitted (.error (.notSent id)) => some id
  | .submitted (.error _) | .received _ | .retired _ | .cancelled _ => none

/-- What a result says became of the open request with an id, if it closed it. -/
def fateOf? (id : RequestId) : Result → Option Fate
  | .received (.answered other) => if other = id then some .fulfilled else none
  | .retired ids => if id ∈ ids then some .expired else none
  | .cancelled _ => some .cancelled
  | .submitted _ | .received _ => none

end Result

def admission? (settings : Settings) (now : Instant) (result : Result) :
    Operation → Option OpenRequest
  | .submit s => result.admitted?.map fun id => s.opening settings id now
  | .receive _ _ | .retire | .cancelAll | .reconnect => none

/-- An admitted submission: the request that it opened, and its fate unless it is pending. -/
structure Record where
  request : OpenRequest
  fate? : Option Fate

namespace Record

def pending? (record : Record) : Option OpenRequest :=
  if record.fate? = none then some record.request else none

def runs (record : Record) (handler : Inquiry.Handler) : Nat :=
  if record.fate? = some (.ofRun handler) ∧ record.request.inquiry.has handler then 1 else 0

end Record

/-- The request that the submission at a position opened, if there is one and it was admitted. -/
def admissionAt? (settings : Settings) (history : List (Instant × Operation))
    (results : List Result) (position : Nat) : Option OpenRequest :=
  history[position]?.bind fun entry =>
    results[position]?.bind fun result => admission? settings entry.1 result entry.2

/-- The record of the submission at a position, if there is one and it was admitted. -/
def record? (settings : Settings) (history : List (Instant × Operation)) (results : List Result)
    (position : Nat) : Option Record :=
  (admissionAt? settings history results position).map fun request =>
    ⟨request, (results.drop (position + 1)).findSome? (·.fateOf? request.id)⟩

/-- The requests of the pending submissions, in the order of submission. -/
def pending (settings : Settings) (history : List (Instant × Operation)) (results : List Result) :
    List OpenRequest :=
  (List.range history.length).filterMap fun position =>
    (record? settings history results position).bind Record.pending?

def Operation.labelled (label : Nat) : Operation → Operation
  | .submit s => .submit { s with inquiry.tag := label }
  | .receive topic document => .receive topic document
  | .retire => .retire
  | .cancelAll => .cancelAll
  | .reconnect => .reconnect

/-- A history in which every submission is labelled with its position. -/
def labelled (history : List (Instant × Operation)) : List (Instant × Operation) :=
  history.mapIdx fun position entry => (entry.1, entry.2.labelled position)

def Record.after (record : Record) (more : List Result) : Record :=
  { record with fate? := record.fate?.or (more.findSome? (·.fateOf? record.request.id)) }

section Records

variable {settings : Settings} {history later : List (Instant × Operation)}
  {results more : List Result} {position : Nat}

theorem record?_append (hlength : results.length = history.length)
    (hposition : position < history.length) :
    record? settings (history ++ later) (results ++ more) position =
      (record? settings history results position).map (·.after more) := by
  have hresults : position < results.length := by omega
  have hdrop : (results ++ more).drop (position + 1) = results.drop (position + 1) ++ more :=
    List.drop_append_of_le_length (by omega)
  simp only [record?, admissionAt?, List.getElem?_append_left hposition,
    List.getElem?_append_left hresults, hdrop, List.findSome?_append, Option.map_map]
  rfl

theorem record?_concat (hlength : results.length = history.length) (now : Instant)
    (operation : Operation) (result : Result) :
    record? settings (history ++ [(now, operation)]) (results ++ [result]) history.length =
      (admission? settings now result operation).map (⟨·, none⟩) := by
  have hresult : (results ++ [result])[history.length]? = some result := by
    rw [← hlength, List.getElem?_concat_length]
  have hdrop : (results ++ [result]).drop (history.length + 1) = [] :=
    List.drop_eq_nil_of_le (by simp [hlength])
  simp only [record?, admissionAt?, List.getElem?_concat_length, hresult, hdrop,
    Option.bind_some, List.findSome?_nil]

theorem record?_eq_none (hposition : history.length ≤ position) :
    record? settings history results position = none := by
  simp [record?, admissionAt?, List.getElem?_eq_none hposition]

theorem Record.after_eq_self {record : Record} (hclosed : record.pending? = none)
    (more : List Result) : record.after more = record := by
  obtain ⟨request, fate?⟩ := record
  cases fate? with
  | none => simp [Record.pending?] at hclosed
  | some fate => rfl

theorem record?_append_of_closed (hlength : results.length = history.length)
    (hposition : position < history.length)
    (hclosed : (record? settings history results position).bind Record.pending? = none) :
    record? settings (history ++ later) (results ++ more) position =
      record? settings history results position := by
  rw [record?_append hlength hposition]
  cases hrecord : record? settings history results position with
  | none => rfl
  | some record =>
      rw [hrecord, Option.bind_some] at hclosed
      rw [Option.map_some, Record.after_eq_self hclosed]

theorem Record.pending?_after (record : Record) (result : Result) :
    (record.after [result]).pending? =
      record.pending?.filter fun request => (result.fateOf? request.id).isNone := by
  obtain ⟨request, fate?⟩ := record
  cases fate? with
  | some fate => simp [Record.after, Record.pending?]
  | none =>
      cases hfate : result.fateOf? request.id <;>
        simp [Record.after, Record.pending?, hfate, Option.filter]

theorem Record.runs_after (record : Record) (result : Result) (handler : Inquiry.Handler) :
    (record.after [result]).runs handler =
      record.runs handler + record.pending?.toList.countP fun request =>
        request.inquiry.has handler &&
          result.fateOf? request.id = some (.ofRun handler) := by
  obtain ⟨request, fate?⟩ := record
  cases fate? with
  | some fate => simp [Record.after, Record.pending?, Record.runs]
  | none =>
      simp [Record.after, Record.pending?, Record.runs, List.countP_cons, and_comm]

/-- After one more operation those are pending that its result did not close, and last the request
that it opened. -/
theorem pending_concat (hlength : results.length = history.length) (now : Instant)
    (operation : Operation) (result : Result) :
    pending settings (history ++ [(now, operation)]) (results ++ [result]) =
      (pending settings history results).filter
          (fun request => (result.fateOf? request.id).isNone) ++
        (admission? settings now result operation).toList := by
  rw [pending, List.length_append, List.length_singleton, List.range_succ, List.filterMap_append,
    pending, List.filter_filterMap]
  congr 1
  · apply List.filterMap_congr
    intro position hmem
    have hposition : position < history.length := List.mem_range.mp hmem
    rw [record?_append hlength hposition]
    cases record? settings history results position with
    | none => rfl
    | some record => exact record.pending?_after result
  · rw [List.filterMap_cons, List.filterMap_nil, record?_concat hlength]
    cases admission? settings now result operation <;> rfl

end Records

section Labels

variable {settings : Settings} {history later : List (Instant × Operation)}
  {results : List Result} {position : Nat}

@[simp] theorem length_labelled : (labelled history).length = history.length :=
  List.length_mapIdx

theorem labelled_concat (now : Instant) (operation : Operation) :
    labelled (history ++ [(now, operation)]) =
      labelled history ++ [(now, operation.labelled history.length)] := by
  simp [labelled, List.mapIdx_concat]

theorem labelled_append : ∃ rest, labelled (history ++ later) = labelled history ++ rest :=
  ⟨_, List.mapIdx_append⟩

theorem tag_of_admission? {now : Instant} {operation : Operation} {result : Result}
    {request : OpenRequest} {label : Nat}
    (h : admission? settings now result (operation.labelled label) = some request) :
    request.inquiry.tag = label := by
  cases operation with
  | submit s =>
      obtain ⟨id, -, rfl⟩ := Option.map_eq_some_iff.mp h
      rfl
  | receive => cases h
  | retire => cases h
  | cancelAll => cases h
  | reconnect => cases h

theorem tag_of_record? {record : Record}
    (h : record? settings (labelled history) results position = some record) :
    record.request.inquiry.tag = position := by
  obtain ⟨request, hadmission, rfl⟩ := Option.map_eq_some_iff.mp h
  obtain ⟨entry, hentry, hadmission⟩ := Option.bind_eq_some_iff.mp hadmission
  obtain ⟨result, -, hadmission⟩ := Option.bind_eq_some_iff.mp hadmission
  rw [labelled, List.getElem?_mapIdx] at hentry
  obtain ⟨original, -, rfl⟩ := Option.map_eq_some_iff.mp hentry
  exact tag_of_admission? hadmission

theorem filterMap_range_of_eq {α : Type} (f : Nat → Option α) (position count : Nat) :
    (List.range count).filterMap (fun other => if other = position then f other else none) =
      if position < count then (f position).toList else [] := by
  induction count with
  | zero => rfl
  | succ count ih =>
      rw [List.range_succ, List.filterMap_append, ih, List.filterMap_cons, List.filterMap_nil]
      by_cases hlast : count = position
      · subst hlast
        cases f count <;> simp
      · have hlt : position < count + 1 ↔ position < count := by omega
        simp [hlast, hlt]

theorem filter_tag_pending :
    (pending settings (labelled history) results).filter (·.inquiry.tag = position) =
      ((record? settings (labelled history) results position).bind Record.pending?).toList := by
  have hkeep : ∀ other,
      ((record? settings (labelled history) results other).bind Record.pending?).filter
          (·.inquiry.tag = position) =
        if other = position then
          (record? settings (labelled history) results other).bind Record.pending?
        else none := by
    intro other
    cases hrecord : record? settings (labelled history) results other with
    | none => simp
    | some record =>
        have htag : record.request.inquiry.tag = other := tag_of_record? hrecord
        by_cases hfate : record.fate? = none <;>
          simp [Record.pending?, hfate, Option.filter, htag]
  rw [pending, List.filter_filterMap, List.filterMap_congr fun other _ => hkeep other,
    filterMap_range_of_eq]
  split
  · rfl
  · rw [record?_eq_none (by omega)]
    rfl

/-- One more result adds the runs of a handler whose request it closes with the fate for it. -/
theorem runs_record?_concat (hlength : results.length = (labelled history).length)
    (now : Instant) (operation : Operation) (result : Result) (handler : Inquiry.Handler) :
    (record? settings (labelled (history ++ [(now, operation)])) (results ++ [result])
        position).elim 0 (·.runs handler) =
      (record? settings (labelled history) results position).elim 0 (·.runs handler) +
        ((pending settings (labelled history) results).filter fun request =>
          result.fateOf? request.id = some (.ofRun handler)).countP fun request =>
            request.inquiry.has handler && request.inquiry.tag = position := by
  have hclosed : ((pending settings (labelled history) results).filter fun request =>
        result.fateOf? request.id = some (.ofRun handler)).countP (fun request =>
          request.inquiry.has handler && request.inquiry.tag = position) =
      ((record? settings (labelled history) results position).bind
        Record.pending?).toList.countP fun request =>
          request.inquiry.has handler && result.fateOf? request.id = some (.ofRun handler) := by
    rw [← filter_tag_pending, List.countP_filter, List.countP_filter]
    refine List.countP_congr fun request _ => ?_
    simp only [Bool.and_eq_true]
    tauto
  rw [hclosed, labelled_concat]
  -- A position before the last has a record already; at the last one a record begins.
  rcases Nat.lt_trichotomy position history.length with hlt | heq | hgt
  · rw [record?_append hlength (by simpa using hlt)]
    cases record? settings (labelled history) results position with
    | none => rfl
    | some record => exact record.runs_after result handler
  · have hnone : record? settings (labelled history) results position = none :=
      record?_eq_none (by simp [heq])
    have hconcat : record? settings _ _ _ = _ :=
      record?_concat hlength now (operation.labelled history.length) result
    rw [length_labelled] at hconcat
    rw [hnone, heq, hconcat]
    cases admission? settings now result (operation.labelled history.length) <;> rfl
  · rw [record?_eq_none (by simp; omega), record?_eq_none (by simp; omega)]
    rfl

end Labels

end Inquirer

end AttributeExchange
