import AttributeExchange.Proofs.Inquirer.Isolation
import AttributeExchange.Proofs.Inquirer.Neighbours
import AttributeExchange.Proofs.Inquirer.SharedCounter
import AttributeExchange.Proofs.Switchboard.Office

/-!
# Acts

Inquirers and their collaborators at work, told in two kinds of acts: an operation of one inquirer,
and a change that others make to the collaborators. The runs of inquirers side by side are runs of
acts. So is what happens at an office, where the switchboard says which inquirers a message or a
task makes act; only the handlers of other components and the notices are left out.
-/

namespace AttributeExchange

open Inquirer

/-- Something that happens to inquirers and their collaborators. -/
inductive Act (σ : Type) where
  | operate (index : Nat) (now : Instant) (operation : Operation)
  | others (change : σ → σ)

namespace Act

variable {σ : Type} [Channel σ] [IdSource σ]

def happen (inquirers : List Inquirer) : Act σ → Exchange σ (List Inquirer)
  | .operate index now operation =>
    (·.2) <$> Exchange.atIndex index (·.perform now operation) inquirers
  | .others change => do
    Exchange.disturb change
    return inquirers

def happenAll (inquirers : List Inquirer) : List (Act σ) → Exchange σ (List Inquirer)
  | [] => return inquirers
  | act :: acts => do happenAll (← act.happen inquirers) acts

variable {inquirers : List Inquirer} {index : Nat} {q : Inquirer} {now : Instant}
  {operation : Operation} {peers : σ}

theorem happenAll_singleton (inquirers : List Inquirer) (act : Act σ) :
    happenAll inquirers [act] = act.happen inquirers := by
  simp [happenAll]

theorem happenAll_append (inquirers : List Inquirer) (acts later : List (Act σ)) :
    happenAll inquirers (acts ++ later) = happenAll inquirers acts >>= (happenAll · later) := by
  induction acts generalizing inquirers with
  | nil => simp [happenAll]
  | cons act acts ih => simp [happenAll, ih]

theorem run_happen_operate (hq : inquirers[index]? = some q) :
    let outcome := (q.perform now operation).run peers
    (happen inquirers (.operate index now operation)).run peers =
      ⟨inquirers.set index outcome.value.2, outcome.peers, outcome.events⟩ := by
  simp [happen, Exchange.atIndex, hq]

theorem run_happen_operate_of_none (hq : inquirers[index]? = none) :
    (happen inquirers (.operate index now operation)).run peers = ⟨inquirers, peers, []⟩ := by
  simp [happen, Exchange.atIndex, hq]

/-! ## Inquirers that act are reachable -/

def AllReachable (settings : List Settings) (inquirers : List Inquirer) : Prop :=
  ∀ (index : Nat) (q : Inquirer), inquirers[index]? = some q →
    ∃ own, settings[index]? = some own ∧ Reachable own q

theorem allReachable_new (settings : List Settings) :
    AllReachable settings (settings.map Inquirer.new) := by
  intro index q hq
  rw [List.getElem?_map] at hq
  obtain ⟨own, hown, rfl⟩ := Option.map_eq_some_iff.mp hq
  exact ⟨own, hown, .new⟩

variable {settings : List Settings}

theorem AllReachable.happen (h : AllReachable settings inquirers) (act : Act σ) (peers : σ) :
    AllReachable settings ((act.happen inquirers).run peers).value := by
  cases act with
  | others change => exact h
  | operate acting now operation =>
      cases hacting : inquirers[acting]? with
      | none =>
          rw [run_happen_operate_of_none hacting]
          exact h
      | some before =>
          rw [run_happen_operate hacting]
          intro index q hq
          rcases eq_or_ne acting index with rfl | hne
          · obtain ⟨own, hown, hbefore⟩ := h acting before hacting
            rw [List.getElem?_set_self (List.getElem?_eq_some_iff.mp hacting).1] at hq
            obtain rfl := Option.some.inj hq
            exact ⟨own, hown, hbefore.perform peers now operation⟩
          · rw [List.getElem?_set_ne hne] at hq
            exact h index q hq

theorem AllReachable.happenAll (h : AllReachable settings inquirers) (acts : List (Act σ))
    (peers : σ) : AllReachable settings ((Act.happenAll inquirers acts).run peers).value := by
  induction acts generalizing inquirers peers with
  | nil => exact h
  | cons act acts ih => exact ih (h.happen act peers) _

/-! ## Collaborators that answer alike -/

section Alike

variable {τ : Type} [Channel τ] [IdSource τ] {R : σ → τ → Prop}

/-- That two acts are the same operation, or changes of related collaborators that keep them
related. -/
inductive Alike (R : σ → τ → Prop) : Act σ → Act τ → Prop where
  | operate (index : Nat) (now : Instant) (operation : Operation) :
      Alike R (.operate index now operation) (.operate index now operation)
  | others {change : σ → σ} {other : τ → τ}
      (h : ∀ peers others, R peers others → R (change peers) (other others)) :
      Alike R (.others change) (.others other)

theorem sameUpTo_happen (hR : Exchange.AnswersAlike R) {act : Act σ} {other : Act τ}
    (halike : Alike R act other) (inquirers : List Inquirer) {peers : σ} {others : τ}
    (hpeers : R peers others) :
    Exchange.SameUpTo R ((act.happen inquirers).run peers)
      ((other.happen inquirers).run others) := by
  cases halike with
  | others hchange => exact ⟨rfl, hchange peers others hpeers, rfl⟩
  | operate index now operation =>
      have hmatched : Exchange.Matched
          ((Act.operate index now operation : Act σ).happen inquirers)
          ((Act.operate index now operation : Act τ).happen inquirers) :=
        (Exchange.Matched.atIndex (fun q => matched_perform q now operation) index inquirers).map _
      exact hmatched.sameUpTo hR hpeers

/-- Inquirers do the same in acts that are alike, whatever their collaborators are made of. -/
theorem sameUpTo_happenAll (hR : Exchange.AnswersAlike R) {acts : List (Act σ)}
    {others : List (Act τ)} (halike : List.Forall₂ (Alike R) acts others)
    (inquirers : List Inquirer) {peers : σ} {otherPeers : τ} (hpeers : R peers otherPeers) :
    Exchange.SameUpTo R ((happenAll inquirers acts).run peers)
      ((happenAll inquirers others).run otherPeers) := by
  induction halike generalizing inquirers peers otherPeers with
  | nil => exact ⟨rfl, hpeers, rfl⟩
  | @cons act other acts others hact _ ih =>
      have hfirst := sameUpTo_happen hR hact inquirers hpeers
      rw [happenAll, happenAll, Exchange.run_bind, Exchange.run_bind, ← hfirst.value,
        ← hfirst.events]
      have hrest := ih ((act.happen inquirers).run peers).value hfirst.peers
      exact ⟨hrest.value, hrest.peers, congrArg (_ ++ ·) hrest.events⟩

end Alike

/-! ## Runs of inquirers side by side -/

/-- Operations of several inquirers and nothing in between. -/
theorem map_stepAll (inquirers : List Inquirer) (history : List (Nat × Instant × Operation)) :
    (·.2) <$> (stepAll inquirers history : Exchange σ _) =
      happenAll inquirers (history.map fun entry => .operate entry.1 entry.2.1 entry.2.2) := by
  induction history generalizing inquirers with
  | nil => simp [stepAll, happenAll]
  | cons entry history ih =>
      obtain ⟨index, now, operation⟩ := entry
      have hfirst : (·.2) <$> Exchange.atIndex index
          (fun q => (fun step => (step, step.after)) <$> q.step now operation) inquirers =
            (Act.operate index now operation : Act σ).happen inquirers := by
        ext peers
        cases hq : inquirers[index]? with
        | none => simp [Exchange.atIndex, happen, hq]
        | some q => simp [Exchange.atIndex, happen, hq, run_step]
      rw [List.map_cons, happenAll, ← hfirst, bind_map_left]
      simp only [← ih, stepAll, map_bind, bind_pure_comp, Functor.map_map]

/-- The operations among acts as rounds; what others do before an operation belongs to its round. -/
def rounds (change : σ → σ) : List (Act σ) → List (Nat × Round σ)
  | [] => []
  | .operate index now operation :: acts => (index, ⟨change, now, operation⟩) :: rounds id acts
  | .others other :: acts => rounds (other ∘ change) acts

theorem takeTurns_rounds {ι : Type} [IdSource ι] (inquirers : List Inquirer)
    (acts : List (Act (Peers Recorder ι))) (change : Peers Recorder ι → Peers Recorder ι)
    (peers : Peers Recorder ι) :
    let outcome := (happenAll inquirers acts).run (change peers)
    let shared := takeTurns inquirers peers (rounds change acts)
    shared.2 = outcome.value ∧ eventsOf shared.1 = outcome.events := by
  induction acts generalizing inquirers change peers with
  | nil => exact ⟨rfl, rfl⟩
  | cons act acts ih =>
      cases act with
      | others other => exact ih inquirers (other ∘ change) peers
      | operate index now operation =>
          rw [rounds, happenAll, Exchange.run_bind]
          cases hq : inquirers[index]? with
          | none =>
              rw [takeTurns_cons_of_none hq, run_happen_operate_of_none hq]
              exact ih inquirers id (change peers)
          | some q =>
              rw [takeTurns_cons hq, run_happen_operate hq]
              obtain ⟨hvalue, hevents⟩ := ih (inquirers.set index
                ((q.perform now operation).run (change peers)).value.2) id _
              exact ⟨hvalue, congrArg (_ ++ ·) hevents⟩

end Act

/-- An incident around an inquirer as an act of the only one there is. -/
def Incident.act {ι : Type} [IdSource ι] : Incident → Act (Peers Recorder ι)
  | .operate now operation => .operate 0 now operation
  | .fail send subscribe unsubscribe => .others fun peers =>
    { peers with channel.failing := peers.channel.failing.change send subscribe unsubscribe }
  | .call c _ _ => .others fun peers => { peers with channel := peers.channel.perform c }
  | .draw => .others fun peers => { peers with ids := (IdSource.next peers.ids).2 }
  | .forgetCalls => .others fun peers => { peers with channel := peers.channel.forgetCalls }

theorem Incident.map_happenAll {ι : Type} [IdSource ι] (q : Inquirer) (incidents : List Incident) :
    ([·]) <$> (happenAll q incidents : Exchange (Peers Recorder ι) Inquirer) =
      Act.happenAll [q] (incidents.map act) := by
  induction incidents generalizing q with
  | nil => simp [happenAll, Act.happenAll]
  | cons incident incidents ih =>
      have hfirst : (incident.act.happen [q] : Exchange (Peers Recorder ι) (List Inquirer)) =
          ([·]) <$> incident.happen q := by
        ext peers
        cases incident <;> simp [act, happen, Act.happen, Exchange.atIndex] <;> rfl
      rw [List.map_cons, Act.happenAll, hfirst, bind_map_left]
      simp only [← ih, happenAll, map_bind]

namespace Company

variable {τ : Type}

def Turn.act : Turn τ → Act (Peers τ SharedCounter)
  | .operate index now operation => .operate index now operation
  | .draw => .others fun peers => { peers with ids := peers.ids.next.2 }
  | .clone => .others fun peers => { peers with ids := peers.ids.clone.2 }
  | .disturb change => .others fun peers => { peers with channel := change peers.channel }

theorem run_happenAll_acts [Channel τ] (company : Company τ) (turns : List (Turn τ)) :
    let after := company.takeAll turns
    (Act.happenAll company.inquirers (turns.map Turn.act)).run company.peers =
      ⟨after.2.inquirers, after.2.peers, after.1.flatMap (·.events)⟩ := by
  induction turns generalizing company with
  | nil => rfl
  | cons turn turns ih =>
      have hfirst : (turn.act.happen company.inquirers).run company.peers =
          ⟨(company.take turn).2.inquirers, (company.take turn).2.peers,
            (company.take turn).1.toList.flatMap (·.events)⟩ := by
        cases turn with
        | operate index now operation =>
            cases hq : company.inquirers[index]? with
            | none =>
                rw [take_operate_of_none hq]
                exact Act.run_happen_operate_of_none hq
            | some q =>
                rw [take_operate hq]
                simpa [Turn.act] using Act.run_happen_operate hq
        | draw => rfl
        | clone => rfl
        | disturb change => rfl
      rw [List.map_cons, Act.happenAll, Exchange.run_bind, hfirst, ih]
      simp [takeAll, List.flatMap_append]

end Company

/-! ## Offices -/

/-- Whether an event tells what an inquirer or a handler of an inquiry did. -/
def Event.isOwn : Event → Bool
  | .called _ _ | .forwarded _ _ | .drew _ | .answered _ _ | .lapsed _ => true
  | .asked _ _ | .noted _ => false

def HandlerTask.acts {σ : Type} (index : Nat) : HandlerTask → List (Act σ)
  | .takeDocument topic document => [.operate index .start (.receive topic document)]
  | .poll now => [.operate index now .retire]
  | .disconnect => [.operate index .start .cancelAll]
  | .reconnect => [.operate index .start .reconnect]
  | .takeBytes _ _ | .start => []

def Handler.acts {σ : Type} (task : HandlerTask) : Handler → List (Act σ)
  | .inquirer index => task.acts index
  | .component _ => []

/-- What a message makes the inquirer do that is the first to claim its topic. -/
def Switchboard.acts {σ : Type} (switchboard : Switchboard) (topic : String) (payload : Bytes) :
    List (Act σ) :=
  match switchboard.claimant? topic with
  | none => []
  | some (handler, _) =>
    match taskFor topic payload handler.form with
    | .error _ => []
    | .ok task => handler.acts task

namespace Office

variable {σ : Type}

def Occasion.acts (switchboard : Switchboard) : Occasion σ → List (Act σ)
  | .operate index now operation => [.operate index now operation]
  | .carryOut index task => task.acts index
  | .deliver topic payload => switchboard.acts topic payload
  | .broadcast task => switchboard.handlers.flatMap (·.acts task)
  | .register _ => []
  | .others change => [.others change]

def Occasion.switchboardAfter (switchboard : Switchboard) : Occasion σ → Switchboard
  | .register handler => ⟨switchboard.handlers ++ [handler]⟩
  | .operate _ _ _ | .carryOut _ _ | .deliver _ _ | .broadcast _ | .others _ => switchboard

def acts (switchboard : Switchboard) : List (Occasion σ) → List (Act σ)
  | [] => []
  | occasion :: occasions =>
    occasion.acts switchboard ++ acts (occasion.switchboardAfter switchboard) occasions

end Office

/-! ### Where acts come from -/

section Origin

variable {σ : Type} {act : Act σ}

theorem HandlerTask.exists_of_mem_acts {task : HandlerTask} {index : Nat}
    (h : act ∈ task.acts index) : ∃ now operation, act = .operate index now operation := by
  cases task with
  | takeDocument | poll | disconnect | reconnect =>
      exact ⟨_, _, List.mem_singleton.mp h⟩
  | takeBytes | start => cases h

theorem Handler.exists_of_mem_acts {handler : Handler} {task : HandlerTask}
    (h : act ∈ handler.acts task) : ∃ index now operation, act = .operate index now operation := by
  cases handler with
  | inquirer index => exact ⟨index, task.exists_of_mem_acts h⟩
  | component foreign => cases h

theorem Switchboard.exists_of_mem_acts {switchboard : Switchboard} {topic : String}
    {payload : Bytes} (h : act ∈ switchboard.acts topic payload) :
    ∃ index now operation, act = .operate index now operation := by
  unfold acts at h
  split at h
  · cases h
  · split at h
    · cases h
    · exact Handler.exists_of_mem_acts h

namespace Office

/-- What is no operation of an inquirer is a change that was an occasion by itself. -/
theorem Occasion.exists_of_mem_acts {switchboard : Switchboard} {occasion : Occasion σ}
    (h : act ∈ occasion.acts switchboard) :
    (∃ index now operation, act = .operate index now operation) ∨
      ∃ change, occasion = .others change ∧ act = .others change := by
  cases occasion with
  | operate index now operation => exact .inl ⟨index, now, operation, List.mem_singleton.mp h⟩
  | carryOut index task => exact .inl ⟨index, HandlerTask.exists_of_mem_acts h⟩
  | deliver topic payload => exact .inl (Switchboard.exists_of_mem_acts h)
  | broadcast task =>
      obtain ⟨handler, -, hact⟩ := List.mem_flatMap.mp h
      exact .inl (Handler.exists_of_mem_acts hact)
  | register handler => cases h
  | others change => exact .inr ⟨change, rfl, List.mem_singleton.mp h⟩

theorem exists_occasion_of_mem_acts {switchboard : Switchboard} {occasions : List (Occasion σ)}
    (h : act ∈ acts switchboard occasions) :
    ∃ occasion ∈ occasions, ∃ switchboard, act ∈ occasion.acts switchboard := by
  induction occasions generalizing switchboard with
  | nil => cases h
  | cons occasion occasions ih =>
      rcases List.mem_append.mp h with h | h
      · exact ⟨occasion, List.mem_cons_self, switchboard, h⟩
      · obtain ⟨later, hlater, hact⟩ := ih h
        exact ⟨later, List.mem_cons_of_mem _ hlater, hact⟩

end Office

end Origin

/-! ### Occasions as acts -/

namespace Exchange

variable {σ α β γ : Type} {p : Event → Bool} {step : β → Exchange σ (α × β)}

theorem map_keep_atIndex {other : β → Exchange σ (γ × β)}
    (h : ∀ b, (·.2) <$> keep p (step b) = (·.2) <$> keep p (other b)) (index : Nat)
    (values : List β) :
    (·.2) <$> keep p (atIndex index step values) =
      (·.2) <$> keep p (atIndex index other values) := by
  cases hvalue : values[index]? with
  | none => simp [atIndex, hvalue]
  | some value =>
      have hset := congrArg ((values.set index ·) <$> ·) (h value)
      simpa [atIndex, hvalue, Functor.map_map] using hset

theorem map_keep_atIndex_of_idle (h : ∀ b, (·.2) <$> keep p (step b) = pure b) (index : Nat)
    (values : List β) : (·.2) <$> keep p (atIndex index step values) = pure values := by
  cases hvalue : values[index]? with
  | none => simp [atIndex, hvalue]
  | some value =>
      obtain ⟨hindex, rfl⟩ := List.getElem?_eq_some_iff.mp hvalue
      have hset := congrArg ((values.set index ·) <$> ·) (h values[index])
      simpa [atIndex, hvalue, Functor.map_map] using hset

end Exchange

section Own

open Exchange (keep)

variable {σ : Type} [Channel σ] [IdSource σ]

theorem HandlerTask.map_keep_atIndex (task : HandlerTask) (index : Nat)
    (inquirers : List Inquirer) :
    (·.2) <$> keep Event.isOwn (Exchange.atIndex index (Handler.taskOfInquirer · task) inquirers) =
      keep Event.isOwn (Act.happenAll inquirers (task.acts index) : Exchange σ _) := by
  have hoperate (now : Instant) (operation : Operation)
      (htask : ∀ q, (·.2) <$> (Handler.taskOfInquirer q task : Exchange σ (Bool × Inquirer)) =
        (·.2) <$> q.perform now operation) :
      (·.2) <$> keep Event.isOwn
          (Exchange.atIndex index (Handler.taskOfInquirer · task) inquirers : Exchange σ _) =
        keep Event.isOwn (Act.happenAll inquirers [.operate index now operation]) := by
    rw [Act.happenAll_singleton, Act.happen, Exchange.keep_map]
    refine Exchange.map_keep_atIndex (fun q => ?_) index inquirers
    rw [← Exchange.keep_map, htask q, Exchange.keep_map]
  cases task with
  | takeBytes topic payload =>
      exact Exchange.map_keep_atIndex_of_idle (fun _ => rfl) index inquirers
  | takeDocument topic document =>
      exact hoperate .start (.receive topic document) fun q => by
        simp [Handler.taskOfInquirer, Inquirer.perform]
  | start => exact Exchange.map_keep_atIndex_of_idle (fun _ => rfl) index inquirers
  | poll now =>
      exact hoperate now .retire fun q => by simp [Handler.taskOfInquirer, Inquirer.perform]
  | disconnect =>
      exact hoperate .start .cancelAll fun q => by simp [Handler.taskOfInquirer, Inquirer.perform]
  | reconnect =>
      exact hoperate .start .reconnect fun q => by simp [Handler.taskOfInquirer, Inquirer.perform]

theorem Handler.map_keep_carryOut (handler : Handler) (task : HandlerTask)
    (inquirers : List Inquirer) (position : Nat) :
    (·.2) <$> keep Event.isOwn (handler.carryOut task inquirers position) =
      keep Event.isOwn (Act.happenAll inquirers (handler.acts task) : Exchange σ _) := by
  cases handler with
  | component foreign => rfl
  | inquirer index =>
      rw [acts, ← task.map_keep_atIndex index inquirers]
      simp [carryOut]

namespace Switchboard

theorem map_keep_carryOutFrom (task : HandlerTask) (position : Nat) (handlers : List Handler)
    (inquirers : List Inquirer) :
    (·.2) <$> keep Event.isOwn (carryOutFrom task position handlers inquirers) =
      keep Event.isOwn
        (Act.happenAll inquirers (handlers.flatMap (·.acts task)) : Exchange σ _) := by
  induction handlers generalizing position inquirers with
  | nil => rfl
  | cons handler handlers ih =>
      rw [List.flatMap_cons, Act.happenAll_append, Exchange.keep_bind,
        ← handler.map_keep_carryOut task inquirers position, bind_map_left]
      simp only [carryOutFrom, Exchange.keep_bind, Exchange.keep_map, map_bind, bind_pure_comp,
        Functor.map_map, ← ih (position + 1)]

theorem map_keep_deliver (switchboard : Switchboard) (topic : String) (payload : Bytes)
    (inquirers : List Inquirer) :
    (·.2) <$> keep Event.isOwn (switchboard.deliver topic payload inquirers) =
      keep Event.isOwn
        (Act.happenAll inquirers (switchboard.acts topic payload) : Exchange σ _) := by
  cases hclaimant : switchboard.claimant? topic with
  | none =>
      simp only [deliver, acts, hclaimant]
      rfl
  | some claimant =>
      obtain ⟨handler, position⟩ := claimant
      cases htask : taskFor topic payload handler.form with
      | error fault =>
          simp only [deliver, acts, hclaimant, htask]
          rfl
      | ok task =>
          have hturn := handler.map_keep_carryOut task inquirers position (σ := σ)
          simpa [deliver, acts, hclaimant, htask] using hturn

end Switchboard

namespace Office

/-- What inquirers do on an occasion is a run of acts. -/
theorem map_keep_occur (office : Office) (occasion : Occasion σ) :
    keep Event.isOwn (office.occur occasion) =
      (⟨·, occasion.switchboardAfter office.switchboard⟩) <$>
        keep Event.isOwn (Act.happenAll office.inquirers (occasion.acts office.switchboard)) := by
  cases occasion with
  | operate index now operation =>
      simp [occur, Occasion.acts, Act.happenAll, Act.happen, Occasion.switchboardAfter]
  | carryOut index task =>
      rw [Occasion.acts, ← task.map_keep_atIndex index office.inquirers]
      simp [occur, Handler.carryOut, Occasion.switchboardAfter]
  | deliver topic payload =>
      rw [Occasion.acts, ← office.switchboard.map_keep_deliver topic payload office.inquirers]
      simp [occur, Occasion.switchboardAfter]
  | broadcast task =>
      have hturns := Switchboard.map_keep_carryOutFrom (σ := σ) task 0
        office.switchboard.handlers office.inquirers
      rw [Occasion.acts, ← hturns]
      simp [occur, Switchboard.broadcast, Occasion.switchboardAfter]
  | register handler =>
      -- To be told to start makes nobody act.
      have hnone : handler.acts .start = ([] : List (Act σ)) := by cases handler <;> rfl
      have hstart : _ = keep Event.isOwn (Act.happenAll office.inquirers _ : Exchange σ _) :=
        handler.map_keep_carryOut .start office.inquirers office.switchboard.handlers.length
      rw [hnone] at hstart
      rw [Occasion.acts, ← hstart]
      simp [occur, Switchboard.register, Occasion.switchboardAfter]
  | others change => rfl

theorem map_keep_occurAll (office : Office) (occasions : List (Occasion σ)) :
    (·.inquirers) <$> keep Event.isOwn (office.occurAll occasions) =
      keep Event.isOwn (Act.happenAll office.inquirers (acts office.switchboard occasions)) := by
  induction occasions generalizing office with
  | nil => rfl
  | cons occasion occasions ih =>
      rw [acts, Act.happenAll_append, occurAll, Exchange.keep_bind, map_keep_occur, map_bind,
        bind_map_left, Exchange.keep_bind]
      simp only [ih]

theorem allReachable_occurAll {settings : List Settings} {office : Office}
    (h : Act.AllReachable settings office.inquirers) (occasions : List (Occasion σ)) (peers : σ) :
    Act.AllReachable settings ((office.occurAll occasions).run peers).value.inquirers := by
  have hacts := congrArg (fun step => (step.run peers).value) (map_keep_occurAll office occasions)
  rw [show ((office.occurAll occasions).run peers).value.inquirers = _ from hacts]
  exact h.happenAll (acts office.switchboard occasions) peers

end Office

end Own

end AttributeExchange
