import AttributeExchange.Proofs.Inquirer.Waiting
import AttributeExchange.Proofs.KeyList.Joining

/-!
# What a submission comes to

The effect of a submission, said once from beginning to end: the checks in their order, of which the
first that fails decides, then the subscription, the id, the new request and its publication. The
checks that the inquirer makes a second time never fail, so they do not appear.
-/

namespace AttributeExchange

/-- Whether a fault is found before the channel is touched, by checks that need nobody else. -/
def RequestFault.isEarly : RequestFault → Bool
  | .invalid .noKeys | .invalid .membersMissing | .noRoom _ | .listOverLimit _ _
  | .keysOverLimit _ _ => true
  | .invalid _ | .notSubscribed _ | .notSent _ | .noId | .keyMissing _ => false

namespace Submission

def keys (s : Submission) : List String :=
  KeyList.usable s.inquiry.keys

def breach? (limit : Option UInt64) (broken : Nat → Bool) (fault : Nat → RequestFault) :
    Option RequestFault :=
  ((limit.map UInt64.toNat).filter broken).map fault

def ownFault? (s : Submission) (settings : Settings) : Option RequestFault :=
  [if s.keys = [] then some (.invalid .noKeys) else none,
    if s.requestMember = none ∨ s.responseMember = none then some (.invalid .membersMissing)
    else none,
    breach? settings.maxKeys (· < s.inquiry.keys.length)
      (.keysOverLimit s.inquiry.keys.length),
    breach? settings.maxLength (· < settings.layout.size s.keys)
      fun limit => .listOverLimit (settings.layout.sizeOver limit s.keys) limit].findSome? id

/-- What keeps a submission from being taken while so many requests wait. -/
def fault? (s : Submission) (settings : Settings) (waiting : Nat) : Option RequestFault :=
  (s.ownFault? settings).or (breach? settings.maxWaiting (· ≤ waiting) .noRoom)

theorem isEarly_of_fault? {s : Submission} {settings : Settings} {waiting : Nat}
    {fault : RequestFault} (h : s.fault? settings waiting = some fault) : fault.isEarly = true := by
  rcases Option.or_eq_some_iff.mp h with hown | ⟨-, hroom⟩
  · obtain ⟨found, hmem, hfound⟩ := List.exists_of_findSome?_eq_some hown
    subst hfound
    simp only [breach?, List.mem_cons, List.not_mem_nil, or_false] at hmem
    rcases hmem with hkeys | hmembers | hcount | hlength
    · split at hkeys <;> simp at hkeys
      rw [hkeys]
      rfl
    · split at hmembers <;> simp at hmembers
      rw [hmembers]
      rfl
    · obtain ⟨limit, -, rfl⟩ := Option.map_eq_some_iff.mp hcount.symm
      rfl
    · obtain ⟨limit, -, rfl⟩ := Option.map_eq_some_iff.mp hlength.symm
      rfl
  · obtain ⟨limit, -, rfl⟩ := Option.map_eq_some_iff.mp hroom
    rfl

def document (s : Submission) (settings : Settings) : Json :=
  .object (s.requestMember.toList.map fun name => (name, .string (settings.layout.text s.keys)))

def opening (s : Submission) (settings : Settings) (id : RequestId) (now : Instant) :
    OpenRequest where
  id := id
  member := s.responseMember
  timer :=
    ⟨s.inquiry.timeout.or settings.timeout,
      (s.inquiry.timeout.or settings.timeout).bind now.add?⟩
  inquiry := s.inquiry
  standing := .waiting

def checked (s : Submission) (settings : Settings) : Inquirer.Checked where
  draft :=
    settings.draft s.inquiry.keys (s.requestMember.getD "") (s.responseMember.getD "")
  member := s.responseMember.getD ""
  inquiry := s.inquiry

theorem breach?_maxKeys (s : Submission) (settings : Settings) :
    breach? settings.maxKeys (· < s.inquiry.keys.length) (.keysOverLimit s.inquiry.keys.length) =
      settings.excessKeys? s.inquiry.keys := by
  cases hlimit : settings.maxKeys with
  | none => simp [breach?, Settings.excessKeys?, hlimit]
  | some limit =>
      by_cases hover : limit.toNat < s.inquiry.keys.length <;>
        simp [breach?, Settings.excessKeys?, hlimit, hover, Option.filter]

theorem breach?_maxLength (s : Submission) (settings : Settings) :
    breach? settings.maxLength (· < settings.layout.size s.keys)
        (fun limit => .listOverLimit (settings.layout.sizeOver limit s.keys) limit) =
      settings.layout.overLimit? s.keys := by
  have hlayout : settings.layout.limit = settings.maxLength.map UInt64.toNat := rfl
  cases hlimit : settings.maxLength with
  | none => simp [breach?, KeyList.Layout.overLimit?, hlayout, hlimit]
  | some limit =>
      by_cases hover : limit.toNat < settings.layout.size s.keys <;>
        simp [breach?, KeyList.Layout.overLimit?, hlayout, hlimit, hover, Option.filter]

theorem checkRoom_eq (settings : Settings) (requests : List OpenRequest) :
    (Outstanding.mk settings.capacity requests).checkRoom =
      match breach? settings.maxWaiting (· ≤ requests.length) .noRoom with
      | none => .ok ()
      | some fault => .error fault := by
  cases hlimit : settings.maxWaiting with
  | none => simp [breach?, Outstanding.checkRoom, Settings.capacity, hlimit]
  | some limit =>
      by_cases hfull : limit.toNat ≤ requests.length <;>
        simp [breach?, Outstanding.checkRoom, Outstanding.size, Settings.capacity, hlimit, hfull,
          Option.filter]

theorem of_ownFault?_eq_none {s : Submission} {settings : Settings}
    (h : s.ownFault? settings = none) :
    (∃ requestMember responseMember, s.requestMember = some requestMember ∧
      s.responseMember = some responseMember) ∧
      settings.layout.joined s.keys = .ok (settings.layout.text s.keys) := by
  rw [ownFault?, breach?_maxKeys, breach?_maxLength, List.findSome?_eq_none_iff] at h
  simp only [List.mem_cons, List.not_mem_nil, or_false, id_eq, forall_eq_or_imp, forall_eq,
    ite_eq_right_iff, reduceCtorEq, imp_false, not_or] at h
  obtain ⟨hkeys, ⟨hrequest, hresponse⟩, -, hfits⟩ := h
  obtain ⟨requestMember, hrequest⟩ := Option.ne_none_iff_exists'.mp hrequest
  obtain ⟨responseMember, hresponse⟩ := Option.ne_none_iff_exists'.mp hresponse
  refine ⟨⟨requestMember, responseMember, hrequest, hresponse⟩, ?_⟩
  simp [KeyList.Layout.joined, hkeys, hfits]

end Submission

theorem Settings.payload_draft (settings : Settings) (s : Submission)
    (requestMember responseMember : String) :
    (settings.draft s.inquiry.keys requestMember responseMember).payload =
      (settings.layout.joined s.keys).map fun keys => .object [(requestMember, .string keys)] := by
  simp only [Draft.payload, Settings.draft, Draft.joined, KeyList.Layout.result_join,
    Submission.keys]

namespace Inquirer

variable {σ : Type}

theorem deeds_compose (draft : Draft) :
    Exchange.deeds (compose draft : Exchange σ (Except RequestFault Json)) =
      pure draft.payload := by
  simp [compose]

/-- The checks of a submission by itself touch nobody and find its first fault. -/
theorem deeds_check (settings : Settings) (s : Submission) :
    Exchange.deeds (check settings s : Exchange σ (Except RequestFault Checked)) =
      match s.ownFault? settings with
      | some fault => return .error fault
      | none => return .ok (s.checked settings) := by
  by_cases hkeys : s.keys = []
  · have husable : KeyList.anyUsable s.inquiry.keys = false := by
      rw [← Bool.not_eq_true, KeyList.anyUsable_iff]
      simpa [Submission.keys] using hkeys
    simp [check, husable, Submission.ownFault?, hkeys]
  have husable : KeyList.anyUsable s.inquiry.keys = true :=
    (KeyList.anyUsable_iff s.inquiry.keys).mpr hkeys
  rw [Submission.ownFault?, Submission.breach?_maxKeys, Submission.breach?_maxLength]
  cases hrequest : s.requestMember with
  | none => simp [check, husable, hkeys, hrequest]
  | some requestMember =>
      cases hresponse : s.responseMember with
      | none => simp [check, husable, hkeys, hrequest, hresponse]
      | some responseMember =>
          cases hcount : settings.excessKeys? s.inquiry.keys with
          | some fault => simp [check, husable, hkeys, hrequest, hresponse, hcount]
          | none =>
              have hpayload := settings.payload_draft s requestMember responseMember
              cases hover : settings.layout.overLimit? s.keys with
              | some fault =>
                  simp [check, husable, hkeys, hrequest, hresponse, hcount, hover,
                    deeds_compose, hpayload, KeyList.Layout.joined, Except.map]
              | none =>
                  simp [check, husable, hkeys, hrequest, hresponse, hcount, hover,
                    deeds_compose, hpayload, KeyList.Layout.joined, Except.map,
                    Submission.checked]

theorem publication_checked {s : Submission} {settings : Settings}
    (h : s.ownFault? settings = none) (id : RequestId) :
    { (s.checked settings).draft with id := some id }.publication =
      .ok ⟨id, Topic.request id, s.document settings⟩ := by
  obtain ⟨⟨requestMember, responseMember, hrequest, hresponse⟩, hjoined⟩ :=
    Submission.of_ownFault?_eq_none h
  have hpayload := settings.payload_draft s requestMember responseMember
  rw [hjoined] at hpayload
  simp only [Draft.publication, Submission.checked, Submission.document, hrequest, hresponse]
  change Except.map _ (settings.draft s.inquiry.keys requestMember responseMember).payload = _
  rw [hpayload]
  rfl

theorem start_checked {s : Submission} {settings : Settings} (h : s.ownFault? settings = none)
    (id : RequestId) (now : Instant) :
    OpenRequest.start id (some (s.checked settings).member) (settings.timeoutOf s.inquiry)
      s.inquiry now = s.opening settings id now := by
  obtain ⟨⟨_, responseMember, -, hresponse⟩, -⟩ := Submission.of_ownFault?_eq_none h
  simp [OpenRequest.start, Timer.new, Timer.start, Settings.timeoutOf, Submission.opening,
    Submission.checked, hresponse]

def opened (q : Inquirer) (request : OpenRequest) : Inquirer :=
  { q with
    outstanding := { q.outstanding with requests := q.outstanding.requests ++ [request] }
    subscription := { q.subscription with held := true } }

theorem opened_waitingFor (settings : Settings) (requests : List OpenRequest)
    (request : OpenRequest) :
    (waitingFor settings requests).opened request =
      waitingFor settings (requests ++ [request]) := by
  rw [waitingFor_eq_holding settings (List.append_ne_nil_of_right_ne_nil requests (by simp))]
  rfl

variable [Channel σ]

theorem deeds_commit {settings : Settings} {requests : List OpenRequest} {s : Submission}
    (h : s.fault? settings requests.length = none) (id : RequestId) (now : Instant) :
    Exchange.deeds ((holding settings requests).commit
        ⟨⟨id, Topic.request id, s.document settings⟩, (s.checked settings).member, s.inquiry⟩ now :
        Exchange σ (Except RequestFault RequestId × Inquirer)) =
      if id ∈ requests.map (·.id) then
        return (.error (.invalid (.alreadyWaiting id)), waitingFor settings requests)
      else do
        let accepted ← Exchange.call (.send (Topic.request id) (s.document settings))
        return (if accepted then .ok id else .error (.notSent id),
          waitingFor settings (requests ++ [s.opening settings id now])) := by
  obtain ⟨hown, hroom⟩ := Option.or_eq_none_iff.mp h
  have hroom : (Outstanding.mk settings.capacity requests).checkRoom = .ok () := by
    rw [Submission.checkRoom_eq, hroom]
  rw [commit, start_checked hown id now]
  by_cases hid : id ∈ requests.map (·.id)
  · have hcontains : (Outstanding.mk settings.capacity requests).contains id = true :=
      ((Outstanding.mk settings.capacity requests).contains_iff_mem_ids id).mpr hid
    have hrequests : requests ≠ [] := by
      rintro rfl
      simp at hid
    rw [if_pos hid]
    simp [Outstanding.insert, hroom, Submission.opening, hcontains, refuse, deeds_settle, release,
      hrequests]
  · have hcontains : (Outstanding.mk settings.capacity requests).contains id = false := by
      rw [← Bool.not_eq_true, Outstanding.contains_iff_mem_ids]
      exact hid
    rw [if_neg hid]
    simp only [Outstanding.insert, hroom, Submission.opening, hcontains]
    ext peers
    cases haccepted : (Channel.perform (Call.send (Topic.request id) (s.document settings)) peers).1
    all_goals simp [haccepted, waitingFor]

variable [IdSource σ]

/-- What a submission comes to. The first check that fails decides. Then the filter is subscribed
once and one id is drawn; without an id the filter is given up again if nothing waits. A new
request waits from then on, whether or not its publication is accepted. -/
def submissionEffect (q : Inquirer) (s : Submission) (now : Instant) :
    Exchange σ (Except RequestFault RequestId × Inquirer) :=
  match s.fault? q.settings q.outstanding.requests.length with
  | some fault => return (.error fault, q)
  | none => do
    if ← Exchange.call (.subscribe Topic.responseFilter) then
      match ← Exchange.draw with
      | none => do
        release q.outstanding.requests
        return (.error .noId, q)
      | some id =>
        if id ∈ q.waitingIds then return (.error (.invalid (.alreadyWaiting id)), q)
        else do
          let accepted ← Exchange.call (.send (Topic.request id) (s.document q.settings))
          return (if accepted then .ok id else .error (.notSent id),
            q.opened (s.opening q.settings id now))
    else return (.error (.notSubscribed Topic.responseFilter), q)

theorem deeds_identify {settings : Settings} (requests : List OpenRequest) {s : Submission}
    (h : s.ownFault? settings = none) :
    Exchange.deeds ((holding settings requests).identify (s.checked settings) :
        Exchange σ (Except RequestFault Ready × Inquirer)) = do
      match ← Exchange.draw with
      | none => do
        release requests
        return (.error .noId, waitingFor settings requests)
      | some id =>
        return (.ok ⟨⟨id, Topic.request id, s.document settings⟩, (s.checked settings).member,
          s.inquiry⟩, holding settings requests) := by
  rw [identify, Exchange.deeds_bind, Exchange.deeds_draw]
  congr 1
  funext drawn
  cases drawn with
  | none => simp [refuse, deeds_settle]
  | some id =>
      simp only [Exchange.deeds_bind, Exchange.deeds_noteTimes, publication_checked h id]
      rfl

theorem deeds_prepare (settings : Settings) (requests : List OpenRequest) (s : Submission) :
    Exchange.deeds ((waitingFor settings requests).prepare s :
        Exchange σ (Except RequestFault Ready × Inquirer)) =
      match s.fault? settings requests.length with
      | some fault => return (.error fault, waitingFor settings requests)
      | none => do
        if ← Exchange.call (.subscribe Topic.responseFilter) then
          Exchange.deeds ((holding settings requests).identify (s.checked settings))
        else
          return (.error (.notSubscribed Topic.responseFilter), waitingFor settings requests) := by
  have hsettings : (waitingFor settings requests).settings = settings := rfl
  rw [prepare, Exchange.deeds_bind, hsettings, deeds_check, Submission.fault?]
  cases hown : s.ownFault? settings with
  | some fault => simp
  | none =>
      cases hroom : Submission.breach? settings.maxWaiting (· ≤ requests.length) .noRoom with
      | some fault => simp [Submission.checkRoom_eq, hroom]
      | none =>
          simp only [pure_bind, outstanding_waitingFor, Submission.checkRoom_eq, hroom,
            Exchange.deeds_bind, Subscription.deeds_acquire, bind_assoc, Option.none_or]
          congr 1
          funext accepted
          cases accepted <;> simp [waitingFor]

theorem deeds_submit (settings : Settings) (requests : List OpenRequest) (s : Submission)
    (now : Instant) :
    Exchange.deeds ((waitingFor settings requests).submit s now :
        Exchange σ (Except RequestFault RequestId × Inquirer)) =
      (waitingFor settings requests).submissionEffect s now := by
  have hsettings : (waitingFor settings requests).settings = settings := rfl
  rw [submit, Exchange.deeds_bind, deeds_prepare, submissionEffect, hsettings]
  cases hfault : s.fault? settings requests.length with
  | some fault => simp [hfault]
  | none =>
      have hown : s.ownFault? settings = none := (Option.or_eq_none_iff.mp hfault).1
      simp only [outstanding_waitingFor, hfault, bind_assoc]
      congr 1
      funext accepted
      cases accepted with
      | false => simp
      | true =>
          simp only [if_true, deeds_identify requests hown, bind_assoc]
          congr 1
          funext drawn
          cases drawn with
          | none => simp
          | some id =>
              simp only [pure_bind, deeds_commit hfault, waitingIds_waitingFor,
                opened_waitingFor]

end Inquirer

end AttributeExchange
