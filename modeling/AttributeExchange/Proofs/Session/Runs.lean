import AttributeExchange.Proofs.Switchboard.Acts
import AttributeExchange.Proofs.Time
import AttributeExchange.Session.Step

/-!
# Runs of a session

Every step of a session is one occasion at its office, so a run of a session is a run of that office
and, but for the handlers of other components, one of acts of its inquirers. When the occasions
happen is settled beforehand: neither the clock nor the numbers of the submissions hang on what the
channel and the source of ids answer. A run fails only by a clock that cannot be read.
-/

namespace AttributeExchange

open Inquirer

/-- What does not need the time comes to the same at every instant. -/
theorem Inquirer.run_perform_eq {σ : Type} [Channel σ] [IdSource σ] {q : Inquirer}
    {operation : Operation} {peers : σ} (h : q.needsTime peers operation = false)
    (now other : Instant) :
    (q.perform now operation).run peers = (q.perform other operation).run peers := by
  cases operation with
  | submit s =>
      simp only [perform, submit, Exchange.run_bind]
      generalize hprepared : (q.prepare s).run peers = prepared
      obtain ⟨⟨outcome, q⟩, peers, events⟩ := prepared
      cases outcome with
      | ok ready => simp [needsTime, hprepared, Except.isOk, Except.toBool] at h
      | error fault => rfl
  | retire => cases h
  | receive | cancelAll | reconnect => rfl

namespace Session

/-- What is settled of a session before its steps are taken. -/
structure Agenda where
  clock : Clock
  submissions : Nat
  switchboard : Switchboard

def agenda (session : Session) : Agenda :=
  ⟨session.clock, session.submissions, session.switchboard⟩

def office (session : Session) : Office :=
  ⟨session.inquirers, session.switchboard⟩

namespace Agenda

/-- The instant at which a step is taken. No step that succeeds reads a clock past its limit. -/
def now (agenda : Agenda) : Instant :=
  agenda.clock.now.toOption.getD .start

def after (agenda : Agenda) : Step → Agenda
  | .operate _ (.submit _) => { agenda with submissions := agenda.submissions + 1 }
  | .advance span => { agenda with clock := agenda.clock.advance span }
  | _ => agenda

def afterAll (agenda : Agenda) (steps : List Step) : Agenda :=
  steps.foldl after agenda

/-- What a step is to the office. One that only looks leaves everything as it is. -/
def occasion (agenda : Agenda) : Step → Office.Occasion LocalPeers
  | .operate index operation => .operate index agenda.now (operation.labelled agenda.submissions)
  | .carryOut index task => .carryOut index task
  | .poll index => .carryOut index (.poll agenda.now)
  | .deliver topic payload => .deliver topic payload
  | .broadcast task => .broadcast task
  | .pollHandlers =>
    .broadcast (.poll (if agenda.switchboard.hasInquirer then agenda.now else .start))
  | .fail send subscribe unsubscribe => .others fun peers =>
    { peers with channel.failing := peers.channel.failing.change send subscribe unsubscribe }
  | .draw => .others fun peers => { peers with ids := (IdSource.next peers.ids).2 }
  | .forgetCalls => .others fun peers => { peers with channel := peers.channel.forgetCalls }
  | .form _ | .claims _ _ | .awaits _ _ | .describe _ | .advance _ | .holds _ | .counts =>
    .others id

def occasions (agenda : Agenda) : List Step → List (Office.Occasion LocalPeers)
  | [] => []
  | step :: steps => agenda.occasion step :: (agenda.after step).occasions steps

end Agenda

/-- That a session has come to this agenda, and its events are those of an outcome at its office. -/
structure Tells (events : List Event) (last : Session) (agenda : Agenda)
    (outcome : Outcome LocalPeers Office) : Prop where
  office : last.office = outcome.value
  peers : last.peers = outcome.peers
  events : events = outcome.events
  agenda : last.agenda = agenda

variable {session : Session} {step : Step} {report : Report}

theorem now_agenda {now : Instant} (h : session.clock.now = .ok now) :
    session.agenda.now = now := by
  simp [Agenda.now, agenda, h, Except.toOption]

theorem number_eq (session : Session) (index : Nat) (operation : Operation) :
    session.number operation =
      ({ session with
          submissions := (session.agenda.after (.operate index operation)).submissions },
        operation.labelled session.submissions) := by
  cases operation <;> rfl

theorem instant_eq {needed : Bool} {now : Instant} (h : session.instant needed = .ok now) :
    now = if needed then session.agenda.now else .start := by
  cases needed with
  | false => exact (Except.ok.inj h).symm
  | true => exact (now_agenda h).symm

theorem run_atIndex_perform {inquirers : List Inquirer} {index : Nat} {operation : Operation}
    {peers : LocalPeers} {now other : Instant}
    (h : inquirers[index]?.any (·.needsTime peers operation) = true → now = other) :
    (Exchange.atIndex index (·.perform now operation) inquirers).run peers =
      (Exchange.atIndex index (·.perform other operation) inquirers).run peers := by
  cases hq : inquirers[index]? with
  | none => simp [Exchange.atIndex, hq]
  | some q =>
      cases hneeds : q.needsTime peers operation with
      | true => rw [h (by simp [hq, hneeds])]
      | false => simp [Exchange.atIndex, hq, run_perform_eq hneeds now other]

theorem tells_report {α : Type} (session : Session) (reply : α → Reply)
    (step : Exchange LocalPeers (α × List Inquirer)) :
    Tells (session.report reply step).events (session.report reply step).session session.agenda
      ((do return { session.office with inquirers := (← step).2 }).run session.peers) :=
  ⟨rfl, rfl, (List.append_nil _).symm, rfl⟩

theorem tells_operate {index : Nat} {operation : Operation}
    (h : session.operate index operation = .ok report) :
    Tells report.events report.session (session.agenda.after (.operate index operation))
      ((session.office.occur (session.agenda.occasion (.operate index operation))).run
        session.peers) := by
  rw [operate, number_eq session index] at h
  obtain ⟨now, hnow, hreport⟩ := exists_of_bind_eq_ok h
  obtain rfl := Except.ok.inj hreport
  have hsame : (Exchange.atIndex index
      (·.perform now (operation.labelled session.submissions)) session.inquirers).run
        session.peers = _ :=
    run_atIndex_perform fun hneeded => (instant_eq hnow).trans (if_pos hneeded)
  have hagenda : ({ session with
      submissions := (session.agenda.after (.operate index operation)).submissions } :
        Session).agenda = session.agenda.after (.operate index operation) := by
    cases operation <;> rfl
  simp only [report, exchange, Agenda.occasion, Office.occur, Exchange.run_bind, Exchange.run_pure,
    hsame]
  exact ⟨rfl, rfl, (List.append_nil _).symm, hagenda⟩

theorem tells_take (h : session.take step = .ok report) :
    Tells report.events report.session (session.agenda.after step)
      ((session.office.occur (session.agenda.occasion step)).run session.peers) := by
  cases step with
  | operate index operation => exact tells_operate h
  | carryOut index task =>
      obtain rfl := Except.ok.inj h
      exact tells_report session .flag
        ((Handler.inquirer index).carryOut task session.inquirers index)
  | poll index =>
      obtain ⟨now, hnow, hreport⟩ := exists_of_bind_eq_ok h
      obtain rfl := Except.ok.inj hreport
      rw [instant_eq hnow]
      exact tells_report session .flag _
  | deliver topic payload =>
      obtain rfl := Except.ok.inj h
      exact tells_report session .delivered _
  | broadcast task =>
      obtain rfl := Except.ok.inj h
      exact tells_report session .flag _
  | pollHandlers =>
      obtain ⟨now, hnow, hreport⟩ := exists_of_bind_eq_ok h
      obtain rfl := Except.ok.inj hreport
      rw [instant_eq hnow]
      exact tells_report session .flag _
  | form | claims | awaits | describe | advance | fail | draw | holds | counts | forgetCalls =>
      obtain rfl := Except.ok.inj h
      exact ⟨rfl, rfl, rfl, rfl⟩

def last (session : Session) : List Report → Session
  | [] => session
  | report :: reports => report.session.last reports

variable {steps : List Step} {reports : List Report}

/-- The run of a session is the run of its office. -/
theorem tells_takeAll (h : session.takeAll steps = .ok reports) :
    Tells (reports.flatMap (·.events)) (session.last reports) (session.agenda.afterAll steps)
      ((session.office.occurAll (session.agenda.occasions steps)).run session.peers) := by
  induction steps generalizing session reports with
  | nil =>
      obtain rfl := Except.ok.inj h
      exact ⟨rfl, rfl, rfl, rfl⟩
  | cons step steps ih =>
      obtain ⟨report, hreport, hrest⟩ := exists_of_bind_eq_ok h
      obtain ⟨later, hlater, hreports⟩ := exists_of_bind_eq_ok hrest
      obtain rfl := Except.ok.inj hreports
      have hfirst := tells_take hreport
      have hall := ih hlater
      rw [hfirst.office, hfirst.peers, hfirst.agenda] at hall
      rw [Agenda.occasions, Office.occurAll, Exchange.run_bind, List.flatMap_cons, hfirst.events]
      exact ⟨hall.office, hall.peers, congrArg (_ ++ ·) hall.events, hall.agenda⟩

theorem map_registerAll {σ : Type} [Channel σ] [IdSource σ] (switchboard : Switchboard)
    (inquirers : List Inquirer) (handlers : List Handler) :
    (fun registered => ⟨registered.2, registered.1⟩) <$>
        (switchboard.registerAll inquirers handlers : Exchange σ (Switchboard × List Inquirer)) =
      (Office.mk inquirers switchboard).occurAll (handlers.map .register) := by
  induction handlers generalizing switchboard inquirers with
  | nil => simp [Switchboard.registerAll, Office.occurAll]
  | cons handler handlers ih =>
      simp [Switchboard.registerAll, Office.occurAll, Office.occur, ih]

theorem tells_registerAll (session : Session) (handlers : List Handler) :
    Tells (session.registerAll handlers).1 (session.registerAll handlers).2
      { session.agenda with switchboard := (session.registerAll handlers).2.switchboard }
      ((session.office.occurAll (handlers.map .register)).run session.peers) := by
  rw [office, ← map_registerAll, Exchange.run_map]
  exact ⟨rfl, rfl, rfl, rfl⟩

/-! ## Runs that succeed -/

theorem exists_instant {now : Instant} (hnow : session.clock.now = .ok now) (needed : Bool) :
    ∃ read, session.instant needed = .ok read := by
  cases needed with
  | false => exact ⟨.start, rfl⟩
  | true => exact ⟨now, hnow⟩

theorem exists_take {now : Instant} (hnow : session.clock.now = .ok now) (step : Step) :
    ∃ report, session.take step = .ok report := by
  have hread (numbered : Session) (hclock : numbered.clock = session.clock) (needed : Bool)
      (next : Instant → Report) :
      ∃ report, (do return next (← numbered.instant needed)) = Except.ok report := by
    obtain ⟨read, hread⟩ := exists_instant (hclock ▸ hnow : numbered.clock.now = .ok now) needed
    exact ⟨next read, by rw [hread]; rfl⟩
  cases step with
  | operate index operation =>
      rw [take, operate, number_eq session index]
      exact hread _ rfl _ _
  | poll index => exact hread session rfl true _
  | pollHandlers => exact hread session rfl _ _
  | carryOut | form | claims | awaits | describe | advance | fail | draw | holds | counts
  | forgetCalls | deliver | broadcast => exact ⟨_, rfl⟩

theorem Agenda.totalNanos_le_afterAll (agenda : Agenda) (steps : List Step) :
    agenda.clock.offset.totalNanos ≤ (agenda.afterAll steps).clock.offset.totalNanos := by
  induction steps generalizing agenda with
  | nil => exact Nat.le_refl _
  | cons step steps ih =>
      refine Nat.le_trans ?_ (ih (agenda.after step))
      cases step with
      | advance span =>
          rw [after, Clock.advance, Duration.totalNanos_add]
          exact Nat.le_add_right _ _
      | operate index operation => cases operation <;> exact Nat.le_refl _
      | _ => exact Nat.le_refl _

/-- A run succeeds if the clock can still be read at its end. -/
theorem exists_takeAll {now : Instant}
    (hnow : (session.agenda.afterAll steps).clock.now = .ok now) :
    ∃ reports, session.takeAll steps = .ok reports := by
  induction steps generalizing session with
  | nil => exact ⟨[], rfl⟩
  | cons step steps ih =>
      have hle := session.agenda.totalNanos_le_afterAll (step :: steps)
      have hlimit := (Clock.exists_now_iff _).mp ⟨now, hnow⟩
      obtain ⟨first, hfirst⟩ := (Clock.exists_now_iff _).mpr (Nat.lt_of_le_of_lt hle hlimit)
      obtain ⟨report, hreport⟩ := exists_take hfirst step
      have hrest : (report.session.agenda.afterAll steps).clock.now = .ok now := by
        rw [(tells_take hreport).agenda]
        exact hnow
      obtain ⟨reports, hreports⟩ := ih hrest
      refine ⟨report :: reports, ?_⟩
      rw [takeAll, hreport]
      change (report.session.takeAll steps >>= fun later => .ok (report :: later)) = _
      rw [hreports]
      rfl

/-! ## Runs as acts -/

def acts (session : Session) (steps : List Step) : List (Act LocalPeers) :=
  Office.acts session.switchboard (session.agenda.occasions steps)

/-- That a session has come to the inquirers and collaborators of an outcome, and that its events
tell the same of its inquirers. -/
structure TellsOwn (events : List Event) (last : Session)
    (outcome : Outcome LocalPeers (List Inquirer)) : Prop where
  inquirers : last.inquirers = outcome.value
  peers : last.peers = outcome.peers
  own : events.filter Event.isOwn = outcome.events.filter Event.isOwn

/-- What comes to the inquirers of a session is a run of acts, also where it comes through the
switchboard. -/
theorem tellsOwn_takeAll (h : session.takeAll steps = .ok reports) :
    TellsOwn (reports.flatMap (·.events)) (session.last reports)
      ((Act.happenAll session.inquirers (session.acts steps)).run session.peers) := by
  have htells := tells_takeAll h
  have hacts := congrArg (·.run session.peers)
    (Office.map_keep_occurAll session.office (session.agenda.occasions steps))
  simp only [Exchange.run_map, Exchange.run_keep, Outcome.mk.injEq] at hacts
  obtain ⟨hvalue, hpeers, hevents⟩ := hacts
  constructor
  · exact (congrArg (·.inquirers) htells.office).trans hvalue
  · exact htells.peers.trans hpeers
  · rw [htells.events]
    exact hevents

/-- Whatever handlers a new session registers and whatever steps it takes, its inquirers stay
reachable. -/
theorem allReachable_takeAll_new (settings : List Settings) (ids : IdSupply)
    (handlers : List Handler)
    (h : ((new settings ids).registerAll handlers).2.takeAll steps = .ok reports) :
    Act.AllReachable settings
      (((new settings ids).registerAll handlers).2.last reports).inquirers := by
  have hregistered := tells_registerAll (new settings ids) handlers
  generalize ((new settings ids).registerAll handlers).2 = session at *
  have hbefore : Act.AllReachable settings session.office.inquirers := by
    rw [hregistered.office]
    exact Office.allReachable_occurAll (Act.allReachable_new settings) _ _
  have hafter : Act.AllReachable settings (session.last reports).office.inquirers := by
    rw [(tells_takeAll h).office]
    exact Office.allReachable_occurAll hbefore _ _
  exact hafter

/-- The inquirers of a session take turns, and each turn begins with what was done to the
collaborators before it. -/
theorem turns_takeAll (h : session.takeAll steps = .ok reports) :
    let shared := takeTurns session.inquirers session.peers (Act.rounds id (session.acts steps))
    (session.last reports).inquirers = shared.2 ∧
      (reports.flatMap (·.events)).filter Event.isOwn =
        (eventsOf shared.1).filter Event.isOwn := by
  intro shared
  have htells := tellsOwn_takeAll h
  obtain ⟨hvalue, hevents⟩ :=
    Act.takeTurns_rounds session.inquirers (session.acts steps) id session.peers
  refine ⟨htells.inquirers.trans hvalue.symm, ?_⟩
  rw [htells.own]
  exact congrArg (·.filter Event.isOwn) hevents.symm

/-! ## Sessions and companies -/

/-- That collaborators that draw from a counter agree with those that share one. -/
def SameCounter (peers : LocalPeers) (shared : Peers Recorder SharedCounter) : Prop :=
  peers.channel = shared.channel ∧ peers.ids = .counter shared.ids.counter

theorem answersAlike_sameCounter : Exchange.AnswersAlike SameCounter where
  perform call peers shared h := by
    obtain ⟨channel, ids⟩ := peers
    obtain ⟨rfl, rfl⟩ := h
    exact ⟨rfl, rfl, rfl⟩
  next peers shared h := by
    obtain ⟨channel, ids⟩ := peers
    obtain ⟨rfl, rfl⟩ := h
    exact ⟨rfl, rfl, rfl⟩

theorem Agenda.exists_of_mem_occasions {agenda : Agenda} {occasion : Office.Occasion LocalPeers}
    (h : occasion ∈ agenda.occasions steps) :
    ∃ (at' : Agenda) (step : Step), occasion = at'.occasion step := by
  induction steps generalizing agenda with
  | nil => cases h
  | cons step steps ih =>
      rcases List.mem_cons.mp h with rfl | h
      · exact ⟨agenda, step, rfl⟩
      · exact ih h

/-- Every act of a session is like a turn of a company. -/
theorem exists_turn_of_mem_acts {act : Act LocalPeers} (hact : act ∈ session.acts steps) :
    ∃ turn : Company.Turn Recorder, Act.Alike SameCounter act turn.act := by
  obtain ⟨occasion, hoccasion, switchboard, hact⟩ := Office.exists_occasion_of_mem_acts hact
  rcases Office.Occasion.exists_of_mem_acts hact with ⟨index, now, operation, rfl⟩ | hchange
  · exact ⟨.operate index now operation, .operate index now operation⟩
  · obtain ⟨change, rfl, rfl⟩ := hchange
    obtain ⟨agenda, step, hstep⟩ := Agenda.exists_of_mem_occasions hoccasion
    have hdisturb (change : Recorder → Recorder) : Act.Alike SameCounter
        (.others fun peers => { peers with channel := change peers.channel })
        (Company.Turn.disturb change).act :=
      .others fun _ _ h => ⟨congrArg change h.1, h.2⟩
    cases step with
    | fail send subscribe unsubscribe =>
        cases hstep
        exact ⟨_, hdisturb fun channel =>
          { channel with failing := channel.failing.change send subscribe unsubscribe }⟩
    | forgetCalls =>
        cases hstep
        exact ⟨_, hdisturb Recorder.forgetCalls⟩
    | draw =>
        cases hstep
        exact ⟨.draw, .others fun peers shared h =>
          (answersAlike_sameCounter.next peers shared h).2⟩
    | form | claims | awaits | describe | advance | holds | counts =>
        cases hstep
        exact ⟨_, hdisturb id⟩
    | operate | carryOut | poll | deliver | broadcast | pollHandlers => cases hstep

theorem exists_turns_of_alike {acts : List (Act LocalPeers)}
    (h : ∀ act ∈ acts, ∃ turn : Company.Turn Recorder, Act.Alike SameCounter act turn.act) :
    ∃ turns : List (Company.Turn Recorder),
      List.Forall₂ (Act.Alike SameCounter) acts (turns.map Company.Turn.act) := by
  induction acts with
  | nil => exact ⟨[], .nil⟩
  | cons act acts ih =>
      obtain ⟨turn, hturn⟩ := h act List.mem_cons_self
      obtain ⟨turns, hturns⟩ := ih fun other hother => h other (List.mem_cons_of_mem _ hother)
      exact ⟨turn :: turns, .cons hturn hturns⟩

/-- A session whose ids come from a counter goes like a company. -/
theorem exists_company_of_takeAll {counter : Counter}
    (hids : session.peers.ids = .counter counter) (h : session.takeAll steps = .ok reports) :
    ∃ turns, let company : Company Recorder :=
        ⟨session.inquirers, ⟨session.peers.channel, .new counter⟩⟩
      let after := (company.takeAll turns).2
      (session.last reports).inquirers = after.inquirers ∧
        SameCounter (session.last reports).peers after.peers ∧
        (reports.flatMap (·.events)).filter Event.isOwn =
          ((company.takeAll turns).1.flatMap (·.events)).filter Event.isOwn := by
  obtain ⟨turns, hturns⟩ :=
    exists_turns_of_alike fun _ hact => exists_turn_of_mem_acts (hact : _ ∈ session.acts steps)
  refine ⟨turns, ?_⟩
  intro company after
  have hpeers : SameCounter session.peers company.peers := ⟨rfl, hids⟩
  have hsame := Act.sameUpTo_happenAll answersAlike_sameCounter hturns session.inquirers hpeers
  have hcompany := company.run_happenAll_acts turns
  have htells := tellsOwn_takeAll h
  rw [show session.inquirers = company.inquirers from rfl, hcompany] at hsame
  refine ⟨htells.inquirers.trans hsame.value, ?_, ?_⟩
  · rw [htells.peers]
    exact hsame.peers
  · rw [htells.own]
    exact congrArg (·.filter Event.isOwn) hsame.events

end Session

end AttributeExchange
