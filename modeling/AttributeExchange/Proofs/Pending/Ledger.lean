import AttributeExchange.Pending
import Mathlib.Data.List.Induction
import Mathlib.Data.List.Nodup
import Mathlib.Data.List.Range

/-!
# The ledger of a collection

What happens to outstanding requests, told from the replies alone: which of them were taken in, and
which later change removed each of them. The first reply that concerns its id decides, so two
requests that have the same id, one after the other, are told apart. A collection holds exactly what
its ledger says it holds, and a change hands out exactly what the ledger says it removed.
-/

namespace AttributeExchange

namespace OpenRequest

/-! ## Requests with distinct ids -/

variable {requests : List OpenRequest}

theorem eraseP_id (h : (requests.map (·.id)).Nodup) (id : RequestId) :
    requests.eraseP (·.id = id) = requests.filter (·.id ≠ id) := by
  induction requests with
  | nil => rfl
  | cons request requests ih =>
      obtain ⟨hfirst, hrest⟩ := List.nodup_cons.mp h
      by_cases hid : request.id = id
      · have hothers : ∀ other ∈ requests, other.id ≠ id := by
          intro other hother heq
          exact hfirst (List.mem_map.mpr ⟨other, hother, heq.trans hid.symm⟩)
        rw [List.eraseP_cons_of_pos (by simpa using hid),
          List.filter_cons_of_neg (by simpa using hid)]
        exact (List.filter_eq_self.mpr fun other hother => by simpa using hothers other hother).symm
      · rw [List.eraseP_cons_of_neg (by simpa using hid),
          List.filter_cons_of_pos (by simpa using hid), ih hrest]

theorem mem_ids_filter (h : (requests.map (·.id)).Nodup) (p : OpenRequest → Bool)
    {request : OpenRequest} (hrequest : request ∈ requests) :
    request.id ∈ (requests.filter p).map (·.id) ↔ p request = true := by
  constructor
  · intro hid
    obtain ⟨other, hother, heq⟩ := List.mem_map.mp hid
    obtain ⟨hmem, hp⟩ := List.mem_filter.mp hother
    rw [← List.inj_on_of_nodup_map h hmem hrequest heq]
    exact hp
  · intro hp
    exact List.mem_map.mpr ⟨request, List.mem_filter.mpr ⟨hrequest, hp⟩, rfl⟩

theorem filter_id_eq_singleton (h : (requests.map (·.id)).Nodup) {request : OpenRequest}
    (hrequest : request ∈ requests) : requests.filter (·.id = request.id) = [request] := by
  have hsame : ∀ other ∈ requests, decide (other.id = request.id) = decide (other = request) := by
    intro other hother
    rw [decide_eq_decide]
    exact ⟨fun hid => List.inj_on_of_nodup_map h hother hrequest hid, fun heq => heq ▸ rfl⟩
  rw [List.filter_congr hsame, List.filter_eq, List.count_eq_one_of_mem h.of_map hrequest,
    List.replicate_one]

end OpenRequest

namespace Outstanding

/-! ## Changes and replies -/

inductive Change where
  | insert (request : OpenRequest)
  | take (id : RequestId)
  | takeDue (now : Instant)
  | clear

inductive Reply where
  | inserted (outcome : Except RequestFault Unit)
  | handedOut (requests : List OpenRequest)
  | dropped (count : Nat)

/-- Carries out a change. A request that is refused changes nothing. -/
def change (outstanding : Outstanding) : Change → Reply × Outstanding
  | .insert request =>
    match outstanding.insert request with
    | .ok after => (.inserted (.ok ()), after)
    | .error fault => (.inserted (.error fault), outstanding)
  | .take id =>
    match outstanding.take? id with
    | some taken => (.handedOut [taken.1], taken.2)
    | none => (.handedOut [], outstanding)
  | .takeDue now => (.handedOut (outstanding.takeDue now).1, (outstanding.takeDue now).2)
  | .clear => (.dropped outstanding.size, outstanding.clear)

structure Entry where
  change : Change
  reply : Reply

def changeAll (outstanding : Outstanding) : List Change → List Entry × Outstanding
  | [] => ([], outstanding)
  | change :: changes =>
    let first := outstanding.change change
    let rest := first.2.changeAll changes
    (⟨change, first.1⟩ :: rest.1, rest.2)

theorem changeAll_concat (outstanding : Outstanding) (changes : List Change) (last : Change) :
    let before := outstanding.changeAll changes
    outstanding.changeAll (changes ++ [last]) =
      (before.1 ++ [⟨last, (before.2.change last).1⟩], (before.2.change last).2) := by
  induction changes generalizing outstanding with
  | nil => rfl
  | cons change changes ih =>
      have hrest := ih (outstanding.change change).2
      simp only [List.cons_append, changeAll, hrest]

/-! ## What replies tell -/

def Entry.admitted? (entry : Entry) : Option OpenRequest :=
  match entry.change, entry.reply with
  | .insert request, .inserted (.ok ()) => some request
  | _, _ => none

def Reply.removes (id : RequestId) : Reply → Bool
  | .inserted _ => false
  | .handedOut requests => requests.any (·.id = id)
  | .dropped _ => true

/-- A request that was taken in, and the position of the change that removed it, unless it is
held. -/
structure Record where
  request : OpenRequest
  removed? : Option Nat
  deriving DecidableEq

def record? (ledger : List Entry) (position : Nat) : Option Record :=
  (ledger[position]?.bind Entry.admitted?).map fun request =>
    ⟨request, ((ledger.drop (position + 1)).findIdx? (·.reply.removes request.id)).map
      (position + 1 + ·)⟩

/-- The requests with the same fate, in the order in which they were taken in: those that the change
at a position removed, or those that are held. -/
def withFate (ledger : List Entry) (removed? : Option Nat) : List OpenRequest :=
  (List.range ledger.length).filterMap fun position =>
    (record? ledger position).bind fun record =>
      if record.removed? = removed? then some record.request else none

def Record.after (record : Record) (position : Nat) (reply : Reply) : Record :=
  { record with
    removed? := record.removed?.or
      (if reply.removes record.request.id then some position else none) }

section Ledger

variable {ledger : List Entry} {position : Nat}

theorem record?_append_of_lt (h : position < ledger.length) (entry : Entry) :
    record? (ledger ++ [entry]) position =
      (record? ledger position).map (·.after ledger.length entry.reply) := by
  have hdrop : (ledger ++ [entry]).drop (position + 1) = ledger.drop (position + 1) ++ [entry] :=
    List.drop_append_of_le_length h
  have hlength : position + 1 + (ledger.length - (position + 1)) = ledger.length := by omega
  rw [record?, record?, List.getElem?_append_left h, hdrop, Option.map_map]
  congr 1
  funext request
  rw [Function.comp_apply, Record.after, List.findIdx?_append]
  cases hfound : (ledger.drop (position + 1)).findIdx? (·.reply.removes request.id) with
  | some index => simp
  | none =>
      cases hlast : entry.reply.removes request.id <;>
        simp [List.findIdx?_cons, hlast, hlength]

theorem record?_concat (entry : Entry) :
    record? (ledger ++ [entry]) ledger.length = entry.admitted?.map (⟨·, none⟩) := by
  simp [record?]

theorem lt_length_of_record? {record : Record} (h : record? ledger position = some record) :
    position < ledger.length := by
  obtain ⟨request, hadmitted, -⟩ := Option.map_eq_some_iff.mp h
  obtain ⟨entry, hentry, -⟩ := Option.bind_eq_some_iff.mp hadmitted
  exact (List.getElem?_eq_some_iff.mp hentry).1

theorem lt_of_removed? {record : Record} {later : Nat} (h : record? ledger position = some record)
    (hremoved : record.removed? = some later) : later < ledger.length := by
  obtain ⟨request, -, rfl⟩ := Option.map_eq_some_iff.mp h
  obtain ⟨index, hindex, rfl⟩ := Option.map_eq_some_iff.mp hremoved
  obtain ⟨hlt, -⟩ := List.findIdx?_eq_some_iff_getElem.mp hindex
  rw [List.length_drop] at hlt
  omega

/-- After one more change those requests have a fate whose records come to it, and last the one that
was taken in if it is the fate of being held. -/
theorem withFate_concat (entry : Entry) (removed? : Option Nat) :
    withFate (ledger ++ [entry]) removed? =
      ((List.range ledger.length).filterMap fun position =>
        (record? ledger position).bind fun record =>
          if (record.after ledger.length entry.reply).removed? = removed? then some record.request
          else none) ++
        if removed? = none then entry.admitted?.toList else [] := by
  rw [withFate, List.length_append, List.length_singleton, List.range_succ, List.filterMap_append]
  congr 1
  · refine List.filterMap_congr fun position hmem => ?_
    rw [record?_append_of_lt (List.mem_range.mp hmem), Option.bind_map]
    rfl
  · rw [List.filterMap_cons, List.filterMap_nil, record?_concat]
    cases entry.admitted? <;> cases removed? <;> rfl

theorem withFate_concat_none (entry : Entry) :
    withFate (ledger ++ [entry]) none =
      (withFate ledger none).filter (fun request => !entry.reply.removes request.id) ++
        entry.admitted?.toList := by
  rw [withFate_concat, if_pos rfl, withFate, List.filter_filterMap]
  congr 1
  refine List.filterMap_congr fun position _ => ?_
  cases record? ledger position with
  | none => rfl
  | some record =>
      obtain ⟨request, removed?⟩ := record
      cases removed? <;> cases hlast : entry.reply.removes request.id <;>
        simp [Record.after, hlast, Option.filter]

theorem withFate_concat_last (entry : Entry) :
    withFate (ledger ++ [entry]) (some ledger.length) =
      (withFate ledger none).filter fun request => entry.reply.removes request.id := by
  rw [withFate_concat, if_neg (by simp), List.append_nil, withFate, List.filter_filterMap]
  refine List.filterMap_congr fun position _ => ?_
  cases hrecord : record? ledger position with
  | none => rfl
  | some record =>
      obtain ⟨request, removed?⟩ := record
      cases removed? with
      | some later =>
          have hlt : later < ledger.length := lt_of_removed? hrecord rfl
          simp [Record.after, hlt.ne]
      | none =>
          cases hlast : entry.reply.removes request.id <;>
            simp [Record.after, hlast, Option.filter]

theorem withFate_concat_of_lt (h : position < ledger.length) (entry : Entry) :
    withFate (ledger ++ [entry]) (some position) = withFate ledger (some position) := by
  rw [withFate_concat, if_neg (by simp), List.append_nil, withFate]
  refine List.filterMap_congr fun other _ => ?_
  cases record? ledger other with
  | none => rfl
  | some record =>
      obtain ⟨request, removed?⟩ := record
      cases removed? with
      | some later => simp [Record.after]
      | none => cases entry.reply.removes request.id <;> simp [Record.after, h.ne']

end Ledger

theorem mem_withFate_none {ledger : List Entry} {request : OpenRequest} :
    request ∈ withFate ledger none ↔
      ∃ position, record? ledger position = some ⟨request, none⟩ := by
  rw [withFate, List.mem_filterMap]
  constructor
  · rintro ⟨position, -, hposition⟩
    obtain ⟨record, hrecord, hheld⟩ := Option.bind_eq_some_iff.mp hposition
    obtain ⟨other, removed?⟩ := record
    cases removed? with
    | none =>
        simp only [if_true, Option.some.injEq] at hheld
        exact ⟨position, hheld ▸ hrecord⟩
    | some later => simp at hheld
  · rintro ⟨position, hrecord⟩
    exact ⟨position, List.mem_range.mpr (lt_length_of_record? hrecord), by simp [hrecord]⟩

theorem eq_of_held {ledger : List Entry} (h : ((withFate ledger none).map (·.id)).Nodup)
    {first second : Nat} {request other : OpenRequest}
    (hfirst : record? ledger first = some ⟨request, none⟩)
    (hsecond : record? ledger second = some ⟨other, none⟩) (hid : request.id = other.id) :
    first = second := by
  have hpairs : (List.range ledger.length).Pairwise fun first second =>
      ∀ request other, record? ledger first = some ⟨request, none⟩ →
        record? ledger second = some ⟨other, none⟩ → request.id ≠ other.id := by
    rw [List.Nodup, List.pairwise_map, withFate, List.pairwise_filterMap] at h
    refine h.imp fun hne request other hfirst hsecond => ?_
    exact hne request (by simp [hfirst]) other (by simp [hsecond])
  have hlt {first second : Nat} {request other : OpenRequest}
      (hfirst : record? ledger first = some ⟨request, none⟩)
      (hsecond : record? ledger second = some ⟨other, none⟩) (hlt : first < second) :
      request.id ≠ other.id := by
    have hlength := lt_length_of_record? hsecond
    have hpair := List.pairwise_iff_getElem.mp hpairs first second
      (by simpa using hlt.trans hlength) (by simpa using hlength) hlt
    simpa only [List.getElem_range] using
      hpair request other (by simpa using hfirst) (by simpa using hsecond)
  rcases Nat.lt_trichotomy first second with h | h | h
  · exact absurd hid (hlt hfirst hsecond h)
  · exact h
  · exact absurd hid.symm (hlt hsecond hfirst h)

/-! ## One change -/

/-- What a reply says of the requests that the change removed. -/
def Reply.Reports (removed : List OpenRequest) : Reply → Prop
  | .inserted _ => removed = []
  | .handedOut requests => requests = removed
  | .dropped count => count = removed.length

section Change

variable {outstanding : Outstanding}

theorem change_take (h : outstanding.ids.Nodup) (id : RequestId) :
    outstanding.change (.take id) =
      (.handedOut (outstanding.requests.filter (·.id = id)),
        { outstanding with requests := outstanding.requests.filter (·.id ≠ id) }) := by
  cases hfound : outstanding.requests.find? (·.id = id) with
  | none =>
      have hnone : ∀ request ∈ outstanding.requests, request.id ≠ id := by simpa using hfound
      have htaken : outstanding.requests.filter (·.id = id) = [] :=
        List.filter_eq_nil_iff.mpr fun request hrequest => by simpa using hnone request hrequest
      have hleft : outstanding.requests.filter (·.id ≠ id) = outstanding.requests :=
        List.filter_eq_self.mpr fun request hrequest => by simpa using hnone request hrequest
      rw [change, take?, hfound, htaken, hleft]
      rfl
  | some request =>
      have hid : request.id = id := by simpa using List.find?_some hfound
      have htaken : outstanding.requests.filter (·.id = id) = [request] :=
        hid ▸ OpenRequest.filter_id_eq_singleton h (List.mem_of_find?_eq_some hfound)
      rw [change, take?, hfound, htaken, OpenRequest.eraseP_id h]
      simp

theorem removes_filter (h : outstanding.ids.Nodup) (p : OpenRequest → Bool)
    {request : OpenRequest} (hrequest : request ∈ outstanding.requests) :
    (Reply.handedOut (outstanding.requests.filter p)).removes request.id = p request := by
  rw [Bool.eq_iff_iff, ← OpenRequest.mem_ids_filter h p hrequest, Reply.removes, List.any_eq_true,
    List.mem_map]
  simp

/-- A reply says what its change did: it reports the requests that it removed, and after it those
stand in the collection that it did not remove, and then the one that it took in. -/
theorem change_spec (h : outstanding.ids.Nodup) (change : Change) :
    (outstanding.change change).1.Reports (outstanding.requests.filter fun request =>
        (outstanding.change change).1.removes request.id) ∧
      (outstanding.change change).2.requests =
        outstanding.requests.filter
            (fun request => !(outstanding.change change).1.removes request.id) ++
          (⟨change, (outstanding.change change).1⟩ : Entry).admitted?.toList := by
  have hdivided (p : OpenRequest → Bool) :
      (Reply.handedOut (outstanding.requests.filter p)).Reports
          (outstanding.requests.filter fun request =>
            (Reply.handedOut (outstanding.requests.filter p)).removes request.id) ∧
        outstanding.requests.filter (!p ·) =
          outstanding.requests.filter fun request =>
            !(Reply.handedOut (outstanding.requests.filter p)).removes request.id := by
    constructor
    · exact (List.filter_congr fun request => removes_filter h p).symm
    · exact List.filter_congr fun request hrequest => by rw [removes_filter h p hrequest]
  cases change with
  | insert request =>
      cases hinsert : outstanding.insert request with
      | error fault =>
          simp [Outstanding.change, hinsert, Reply.removes, Reply.Reports, Entry.admitted?]
      | ok after =>
          simp [Outstanding.change, hinsert, Reply.removes, Reply.Reports, Entry.admitted?,
            requests_of_insert hinsert]
  | take id =>
      rw [change_take h]
      simpa only [Entry.admitted?, Option.toList_none, List.append_nil, decide_not] using
        hdivided (·.id = id)
  | takeDue now =>
      simpa only [Outstanding.change, takeDue, Entry.admitted?, Option.toList_none,
        List.append_nil] using hdivided (·.isDue now)
  | clear =>
      simp [Outstanding.change, Reply.removes, Reply.Reports, Entry.admitted?, size]

@[simp] theorem capacity_change (change : Change) :
    (outstanding.change change).2.capacity = outstanding.capacity := by
  cases change with
  | insert request =>
      simp only [Outstanding.change, insert]
      cases outstanding.checkRoom with
      | error fault => rfl
      | ok room => cases outstanding.contains request.id <;> rfl
  | take id =>
      simp only [Outstanding.change, take?]
      cases outstanding.requests.find? (·.id = id) <;> rfl
  | takeDue now => rfl
  | clear => rfl

theorem insert_eq
    (hbound : ∀ limit, outstanding.capacity = .atMost limit → outstanding.size ≤ limit)
    (request : OpenRequest) :
    outstanding.insert request =
      if outstanding.capacity = .atMost outstanding.size then .error (.noRoom outstanding.size)
      else if request.id ∈ outstanding.ids then
        .error (.invalid (.alreadyWaiting request.id))
      else .ok ⟨outstanding.capacity, outstanding.requests ++ [request]⟩ := by
  simp only [insert, checkRoom, outstanding.contains_iff_mem_ids request.id]
  cases hcapacity : outstanding.capacity with
  | unlimited => simp
  | atMost limit =>
      have hle : outstanding.size ≤ limit := hbound limit hcapacity
      by_cases hfull : limit = outstanding.size
      · simp [hfull]
      · have hroom : ¬ limit ≤ outstanding.size := by omega
        simp [hfull, hroom]

theorem of_admitted? {change : Change} {request : OpenRequest}
    (hbound : ∀ limit, outstanding.capacity = .atMost limit → outstanding.size ≤ limit)
    (h : (⟨change, (outstanding.change change).1⟩ : Entry).admitted? = some request) :
    outstanding.capacity ≠ .atMost outstanding.size ∧ request.id ∉ outstanding.ids := by
  cases change with
  | insert other =>
      have hinsert := insert_eq hbound other
      by_cases hfull : outstanding.capacity = .atMost outstanding.size
      · simp [Outstanding.change, Entry.admitted?, hinsert, hfull] at h
      · by_cases hid : other.id ∈ outstanding.ids
        · simp [Outstanding.change, Entry.admitted?, hinsert, hfull, hid] at h
        · obtain rfl : other = request := by
            simpa [Outstanding.change, Entry.admitted?, hinsert, hfull, hid] using h
          exact ⟨hfull, hid⟩
  | _ => simp [Entry.admitted?] at h

/-- The requests after a change are some of those before it and the one that was taken in. -/
theorem exists_kept_of_change (h : outstanding.ids.Nodup) (change : Change) :
    ∃ kept : List OpenRequest, kept.Sublist outstanding.requests ∧
      (outstanding.change change).2.requests =
        kept ++ (⟨change, (outstanding.change change).1⟩ : Entry).admitted?.toList :=
  ⟨_, List.filter_sublist, (change_spec h change).2⟩

theorem nodup_ids_change (h : outstanding.ids.Nodup)
    (hbound : ∀ limit, outstanding.capacity = .atMost limit → outstanding.size ≤ limit)
    (change : Change) : (outstanding.change change).2.ids.Nodup := by
  obtain ⟨kept, hkept, hafter⟩ := exists_kept_of_change h change
  rw [ids, hafter, List.map_append]
  refine List.nodup_append.mpr ⟨h.sublist (hkept.map _), ?_, ?_⟩
  · cases (⟨change, (outstanding.change change).1⟩ : Entry).admitted? <;> simp
  · intro id hid other hother heq
    obtain ⟨request, hadmitted, rfl⟩ := List.mem_map.mp hother
    have hnew := (of_admitted? hbound (Option.mem_toList.mp hadmitted)).2
    exact hnew (heq ▸ (hkept.map _).subset hid)

theorem size_change_le (h : outstanding.ids.Nodup)
    (hbound : ∀ limit, outstanding.capacity = .atMost limit → outstanding.size ≤ limit)
    (change : Change) (limit : Nat) (hlimit : outstanding.capacity = .atMost limit) :
    (outstanding.change change).2.size ≤ limit := by
  obtain ⟨kept, hkept, hafter⟩ := exists_kept_of_change h change
  have hle : kept.length ≤ outstanding.size := hkept.length_le
  have hlast := hbound limit hlimit
  rw [size, hafter, List.length_append]
  cases hadmitted : (⟨change, (outstanding.change change).1⟩ : Entry).admitted? with
  | none => simpa using hle.trans hlast
  | some request =>
      have hroom := (of_admitted? hbound hadmitted).1
      rw [hlimit] at hroom
      have hne : limit ≠ outstanding.size := fun heq => hroom (heq ▸ rfl)
      rw [Option.toList_some, List.length_singleton]
      omega

end Change

/-! ## All changes -/

/-- A collection is what its ledger says. -/
structure AccountedBy (capacity : Capacity) (ledger : List Entry) (outstanding : Outstanding) :
    Prop where
  capacity_eq : outstanding.capacity = capacity
  ids : outstanding.ids.Nodup
  bound : ∀ limit, outstanding.capacity = .atMost limit → outstanding.size ≤ limit
  held : outstanding.requests = withFate ledger none
  reports : ∀ position (entry : Entry), ledger[position]? = some entry →
    entry.reply.Reports (withFate ledger (some position))

theorem AccountedBy.new (capacity : Capacity) : AccountedBy capacity [] (new capacity) where
  capacity_eq := rfl
  ids := List.nodup_nil
  bound _ _ := Nat.zero_le _
  held := rfl
  reports position entry h := by simp at h

theorem AccountedBy.change {capacity : Capacity} {ledger : List Entry} {outstanding : Outstanding}
    (h : AccountedBy capacity ledger outstanding) (change : Change) :
    AccountedBy capacity (ledger ++ [⟨change, (outstanding.change change).1⟩])
      (outstanding.change change).2 := by
  obtain ⟨hreports, hafter⟩ := change_spec h.ids change
  refine ⟨by simpa using h.capacity_eq, nodup_ids_change h.ids h.bound change, ?_, ?_, ?_⟩
  · rw [capacity_change]
    exact size_change_le h.ids h.bound change
  · rw [hafter, withFate_concat_none, h.held]
  · intro position entry hentry
    rcases Nat.lt_trichotomy position ledger.length with hlt | rfl | hgt
    · rw [List.getElem?_append_left hlt] at hentry
      rw [withFate_concat_of_lt hlt]
      exact h.reports position entry hentry
    · obtain rfl : ⟨change, (outstanding.change change).1⟩ = entry := by simpa using hentry
      rw [withFate_concat_last, ← h.held]
      exact hreports
    · rw [List.getElem?_eq_none (by simpa using Nat.succ_le_of_lt hgt)] at hentry
      cases hentry

/-- However a collection is changed, it is what its ledger says. -/
theorem accountedBy_changeAll (capacity : Capacity) (changes : List Change) :
    AccountedBy capacity ((new capacity).changeAll changes).1
      ((new capacity).changeAll changes).2 := by
  induction changes using List.reverseRecOn with
  | nil => exact .new capacity
  | append_singleton changes last ih =>
      rw [changeAll_concat]
      exact ih.change last

section Accounted

variable {capacity : Capacity} {ledger : List Entry} {outstanding : Outstanding}

theorem AccountedBy.of_take? (h : AccountedBy capacity ledger outstanding) {id : RequestId}
    {request : OpenRequest} {rest : Outstanding}
    (htake : outstanding.take? id = some (request, rest)) :
    request.id = id ∧
      (∃ position, record? ledger position = some ⟨request, none⟩ ∧
        ∀ other twin, record? ledger other = some ⟨twin, none⟩ → twin.id = id →
          other = position) ∧
      rest.contains id = false ∧ rest.requests = outstanding.requests.filter (·.id ≠ id) := by
  obtain ⟨found, hfound, heq⟩ := Option.map_eq_some_iff.mp htake
  obtain ⟨rfl, rfl⟩ := Prod.mk.injEq .. ▸ heq
  have hid : found.id = id := by simpa using List.find?_some hfound
  obtain ⟨position, hposition⟩ :=
    mem_withFate_none.mp (h.held ▸ List.mem_of_find?_eq_some hfound)
  have hleft : outstanding.requests.eraseP (·.id = id) = outstanding.requests.filter (·.id ≠ id) :=
    OpenRequest.eraseP_id h.ids id
  refine ⟨hid, ⟨position, hposition, fun other twin hother htwin => ?_⟩, ?_, hleft⟩
  · exact eq_of_held (h.held ▸ h.ids) hother hposition (htwin.trans hid.symm)
  · simp [contains, hleft]

theorem take?_eq_none_iff {id : RequestId} :
    outstanding.take? id = none ↔ id ∉ outstanding.ids := by
  simp [take?, ids]

end Accounted

/-- Whatever is done to a collection, in any order and with ids that collide, no id is held twice,
the bound is kept, and what is held are the requests that were taken in and not removed, in the
order in which they came. What a change hands out are the requests whose record says that this
change removed them, so that none is handed out twice. A request is refused where the collection is
full, and otherwise where its id is held, and a refusal changes nothing. Taking an id gives the one
request that is held under it. Taking what is due divides the requests and keeps the order of both
parts. -/
theorem holds_admitted_until_removed (capacity : Capacity) (changes : List Change) :
    let ledger := ((new capacity).changeAll changes).1
    let after := ((new capacity).changeAll changes).2
    after.ids.Nodup ∧
    (∀ limit, capacity = .atMost limit → after.size ≤ limit) ∧
    after.requests = withFate ledger none ∧
    (∀ position (entry : Entry), ledger[position]? = some entry →
      entry.reply.Reports (withFate ledger (some position))) ∧
    (∀ request, after.insert request =
      if capacity = .atMost after.size then .error (.noRoom after.size)
      else if request.id ∈ after.ids then .error (.invalid (.alreadyWaiting request.id))
      else .ok ⟨capacity, after.requests ++ [request]⟩) ∧
    (∀ request fault, after.insert request = .error fault →
      after.change (.insert request) = (.inserted (.error fault), after)) ∧
    (∀ id, after.take? id = none ↔ id ∉ after.ids) ∧
    (∀ id request rest, after.take? id = some (request, rest) →
      request.id = id ∧
      (∃ position, record? ledger position = some ⟨request, none⟩ ∧
        ∀ other twin, record? ledger other = some ⟨twin, none⟩ → twin.id = id →
          other = position) ∧
      rest.contains id = false ∧ rest.requests = after.requests.filter (·.id ≠ id)) ∧
    ∀ now,
      (after.takeDue now).1.Sublist after.requests ∧
      (after.takeDue now).2.requests.Sublist after.requests ∧
      ((after.takeDue now).1 ++ (after.takeDue now).2.requests).Perm after.requests ∧
      (∀ request ∈ (after.takeDue now).1, request.isDue now = true) ∧
      ∀ request ∈ (after.takeDue now).2.requests, request.isDue now = false := by
  intro ledger after
  have h : AccountedBy capacity ledger after := accountedBy_changeAll capacity changes
  refine ⟨h.ids, h.capacity_eq ▸ h.bound, h.held, h.reports, fun request => ?_,
    fun request fault hfault => ?_, fun id => take?_eq_none_iff,
    fun id request rest htake => h.of_take? htake, fun now => ⟨?_, ?_, ?_, ?_, ?_⟩⟩
  · simpa only [h.capacity_eq] using insert_eq h.bound request
  · rw [change, hfault]
  · exact List.filter_sublist
  · exact List.filter_sublist
  · exact List.filter_append_perm _ _
  · exact fun request hrequest => (List.mem_filter.mp hrequest).2
  · exact fun request hrequest => by simpa using (List.mem_filter.mp hrequest).2

/-- Three requests of one id: the second is refused while the first is held and while there is no
room, and is taken in once the first is taken out; the others stay in order when it falls due. -/
theorem holds_admitted_until_removed_colliding :
    let request (tag : Nat) (id : RequestId) (deadline : Option Instant) : OpenRequest :=
      ⟨id, none, ⟨none, deadline⟩, ⟨tag, [], none, false, none⟩, .waiting⟩
    let first := request 0 7 none
    let second := request 1 7 (some .start)
    let third := request 2 8 none
    let fourth := request 3 9 (some ⟨⟨1, 0, by decide⟩⟩)
    let changes : List Change :=
      [.insert first, .insert second, .insert third, .insert second, .take 7, .insert second,
        .takeDue .start, .insert fourth]
    let ledger := ((new (.atMost 2)).changeAll changes).1
    let after := ((new (.atMost 2)).changeAll changes).2
    ledger.map (·.admitted?) =
        [some first, none, some third, none, none, some second, none, some fourth] ∧
      record? ledger 0 = some ⟨first, some 4⟩ ∧ record? ledger 5 = some ⟨second, some 6⟩ ∧
      withFate ledger (some 6) = [second] ∧ after.requests = [third, fourth] ∧
      after.insert third = .error (.noRoom 2) ∧ after.take? 7 = none ∧
      (after.takeDue ⟨⟨1, 0, by decide⟩⟩).1 = [fourth] := by
  intro request first second third fourth changes ledger after
  obtain ⟨-, -, hheld, hreports, hinsert, -, htake, -, -⟩ :=
    holds_admitted_until_removed (.atMost 2) changes
  have hafter : after.requests = [third, fourth] := hheld.trans (by decide +kernel)
  have hdue : Reply.Reports (withFate ledger (some 6)) (.handedOut [second]) :=
    hreports 6 ⟨.takeDue .start, .handedOut [second]⟩ rfl
  have hfull : after.insert third = .error (.noRoom 2) := (hinsert third).trans (by decide +kernel)
  exact ⟨by decide +kernel, by decide +kernel, by decide +kernel, hdue.symm, hafter, hfull,
    (htake 7).mpr (by decide +kernel), by decide +kernel⟩

end Outstanding

end AttributeExchange
