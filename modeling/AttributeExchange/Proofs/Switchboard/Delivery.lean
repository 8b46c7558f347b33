import AttributeExchange.Switchboard

/-!
# Delivery of a message

A message goes to one handler only, the first in the order of registration that claims its topic.
What reaches it depends on the form in which it takes payloads: the bytes as they are, or the
document that they spell. Bytes that spell none reach nobody.
-/

namespace AttributeExchange.Switchboard

structure ClaimsFirst (switchboard : Switchboard) (topic : String) (handler : Handler)
    (position : Nat) : Prop where
  there : switchboard.handlers[position]? = some handler
  claims : handler.claims topic = true
  first : ∀ earlier < position, ∀ other, switchboard.handlers[earlier]? = some other →
    other.claims topic = false

theorem claimsFirst_append {topic : String} {handler : Handler} {earlier : List Handler}
    (hearlier : ∀ other ∈ earlier, other.claims topic = false)
    (hclaims : handler.claims topic = true) (later : List Handler) :
    ClaimsFirst ⟨earlier ++ handler :: later⟩ topic handler earlier.length where
  there := by simp
  claims := hclaims
  first := by
    intro place hplace other hother
    rw [List.getElem?_append_left hplace] at hother
    exact hearlier other (List.mem_of_getElem? hother)

theorem claimant?_eq_none_iff {switchboard : Switchboard} {topic : String} :
    switchboard.claimant? topic = none ↔
      ∀ handler ∈ switchboard.handlers, handler.claims topic = false := by
  rw [claimant?, List.find?_eq_none]
  constructor
  · intro hnone handler hmem
    obtain ⟨position, hposition⟩ := List.mem_iff_getElem?.mp hmem
    have hunclaimed := hnone (handler, position) (List.mk_mem_zipIdx_iff_getElem?.mpr hposition)
    simpa using hunclaimed
  · rintro hnone ⟨handler, position⟩ hmem
    have hhandler : handler ∈ switchboard.handlers :=
      List.mem_of_getElem? (List.mk_mem_zipIdx_iff_getElem?.mp hmem)
    simp [hnone handler hhandler]

theorem claimant?_eq_some_iff {switchboard : Switchboard} {topic : String} {handler : Handler}
    {position : Nat} :
    switchboard.claimant? topic = some (handler, position) ↔
      switchboard.ClaimsFirst topic handler position := by
  rw [claimant?, List.find?_eq_some_iff_getElem]
  constructor
  · rintro ⟨hclaims, found, hfound, hentry, hearlier⟩
    rw [List.getElem_zipIdx, Prod.mk.injEq, Nat.zero_add] at hentry
    obtain ⟨hhandler, rfl⟩ := hentry
    have hlength : found < switchboard.handlers.length := by simpa using hfound
    refine ⟨List.getElem?_eq_some_iff.mpr ⟨hlength, hhandler⟩, hclaims, ?_⟩
    intro earlier hlt other hother
    obtain ⟨_, rfl⟩ := List.getElem?_eq_some_iff.mp hother
    simpa using hearlier earlier hlt
  · rintro ⟨hthere, hclaims, hfirst⟩
    obtain ⟨hlength, rfl⟩ := List.getElem?_eq_some_iff.mp hthere
    refine ⟨hclaims, position, by simpa using hlength, by simp, ?_⟩
    intro earlier hlt
    have hother := hfirst earlier hlt _ (List.getElem?_eq_getElem (Nat.lt_trans hlt hlength))
    simp [hother]

variable {σ : Type} [Channel σ] {switchboard : Switchboard} {topic : String} {payload : Bytes}
  {inquirers : List Inquirer}

theorem run_deliver_of_unclaimed (hclaims : switchboard.claimant? topic = none) (peers : σ) :
    (switchboard.deliver topic payload inquirers).run peers =
      ⟨(.ok false, inquirers), peers, [.noted (.unclaimed topic)]⟩ := by
  simp [deliver, hclaims]

section Claimed

variable {handler : Handler} {position : Nat}

/-- A payload that is to be read and cannot be changes nothing for anybody. -/
theorem run_deliver_of_undecodable {cause : Json.ReadError}
    (hclaims : switchboard.claimant? topic = some (handler, position))
    (hform : handler.form = .document) (hread : Json.read payload = .error cause) (peers : σ) :
    (switchboard.deliver topic payload inquirers).run peers =
      ⟨(.error (.undecodable topic cause), inquirers), peers, [.noted (.undecodable topic)]⟩ := by
  simp [deliver, hclaims, hform, taskFor, hread]

theorem run_deliver_of_document {document : Json}
    (hclaims : switchboard.claimant? topic = some (handler, position))
    (hform : handler.form = .document) (hread : Json.read payload = .ok document) (peers : σ) :
    (switchboard.deliver topic payload inquirers).run peers =
      let outcome := (handler.carryOut (.takeDocument topic document) inquirers position).run peers
      ⟨(.ok true, outcome.value.2), outcome.peers, outcome.events⟩ := by
  simp [deliver, hclaims, hform, taskFor, hread]

/-- A handler of another component is asked once, with what the payload means to it. -/
theorem run_deliver_of_foreign {foreign : ForeignHandler} {task : HandlerTask}
    (hclaims : switchboard.claimant? topic = some (.component foreign, position))
    (htask : taskFor topic payload foreign.form = .ok task) (peers : σ) :
    (switchboard.deliver topic payload inquirers).run peers =
      ⟨(.ok true, inquirers), peers, [.asked position task]⟩ := by
  simp [deliver, hclaims, Handler.form, htask, Handler.carryOut]

theorem run_deliver_of_inquirer {document : Json} {index : Nat} {q : Inquirer}
    (hclaims : switchboard.claimant? topic = some (.inquirer index, position))
    (hread : Json.read payload = .ok document) (hq : inquirers[index]? = some q) (peers : σ) :
    (switchboard.deliver topic payload inquirers).run peers =
      let outcome := (q.receive topic document).run peers
      ⟨(.ok true, inquirers.set index outcome.value.2), outcome.peers, outcome.events⟩ := by
  simp [deliver, hclaims, taskFor, Handler.form, hread, Handler.carryOut, Handler.taskOfInquirer,
    Exchange.atIndex, hq]

theorem deliver_ne_ok_false (hclaims : switchboard.claimant? topic = some (handler, position))
    (peers : σ) :
    ((switchboard.deliver topic payload inquirers).run peers).value.1 ≠ .ok false := by
  cases htask : taskFor topic payload handler.form with
  | error fault => simp [deliver, hclaims, htask]
  | ok task => simp [deliver, hclaims, htask]

end Claimed

theorem deliver_eq_ok_false_iff (peers : σ) :
    ((switchboard.deliver topic payload inquirers).run peers).value.1 = .ok false ↔
      ∀ handler ∈ switchboard.handlers, handler.claims topic = false := by
  rw [← claimant?_eq_none_iff]
  constructor
  · intro hrefused
    cases hclaims : switchboard.claimant? topic with
    | none => rfl
    | some claimant => exact absurd hrefused (deliver_ne_ok_false hclaims peers)
  · intro hclaims
    rw [run_deliver_of_unclaimed hclaims]

end AttributeExchange.Switchboard
