import AttributeExchange.Exchange.Basic
import Mathlib.Data.List.Basic

/-!
# Deeds of a step

What a step does apart from its notices: its result, what it leaves of the collaborators, and the
calls, ids and handler runs in their order. To keep some kinds of events and leave the others out
respects the composition of steps, so a step with many notices is compared with a plainer one by
rewriting.
-/

namespace AttributeExchange

namespace Event

def isNotice : Event → Bool
  | .noted _ => true
  | .called _ _ | .forwarded _ _ | .drew _ | .answered _ _ | .lapsed _ | .asked _ _ => false

def deeds (events : List Event) : List Event :=
  events.filter fun event => !event.isNotice

@[simp] theorem deeds_append (events later : List Event) :
    deeds (events ++ later) = deeds events ++ deeds later := by
  simp [deeds]

theorem calls_deeds (events : List Event) : calls (deeds events) = calls events := by
  rw [calls, calls, deeds, List.filterMap_filter]
  apply List.filterMap_congr
  intro event _
  cases event <;> rfl

/-- The calls that inquirers made themselves among events, in order. -/
def made (events : List Event) : List Call :=
  events.filterMap fun
    | .called call _ => some call
    | .forwarded _ _ | .drew _ | .answered _ _ | .lapsed _ | .asked _ _ | .noted _ => none

theorem made_append (events later : List Event) :
    made (events ++ later) = made events ++ made later :=
  List.filterMap_append

theorem made_deeds (events : List Event) : made (deeds events) = made events := by
  rw [made, made, deeds, List.filterMap_filter]
  apply List.filterMap_congr
  intro event _
  cases event <;> rfl

def isRun : Event → Bool
  | .answered _ _ | .lapsed _ | .asked _ _ => true
  | .called _ _ | .forwarded _ _ | .drew _ | .noted _ => false

def runs (events : List Event) : List Event :=
  events.filter isRun

@[simp] theorem runs_append (events later : List Event) :
    runs (events ++ later) = runs events ++ runs later :=
  List.filter_append ..

@[simp] theorem runs_cons_answered (tag : Nat) (value : Json) (events : List Event) :
    runs (.answered tag value :: events) = .answered tag value :: runs events := rfl

theorem runs_deeds (events : List Event) : runs (deeds events) = runs events := by
  rw [runs, deeds, List.filter_filter]
  refine List.filter_congr fun event _ => ?_
  cases event <;> rfl

end Event

namespace Exchange

variable {σ α β : Type}

def keep (p : Event → Bool) (step : Exchange σ α) : Exchange σ α := fun peers =>
  { step.run peers with events := (step.run peers).events.filter p }

@[simp] theorem run_keep (p : Event → Bool) (step : Exchange σ α) (peers : σ) :
    (keep p step).run peers =
      ⟨(step.run peers).value, (step.run peers).peers, (step.run peers).events.filter p⟩ := rfl

section Keep

variable (p : Event → Bool)

@[simp] theorem keep_pure (a : α) : keep p (pure a : Exchange σ α) = pure a := rfl

@[simp] theorem keep_bind (step : Exchange σ α) (next : α → Exchange σ β) :
    keep p (step >>= next) = keep p step >>= fun a => keep p (next a) := by
  ext peers
  simp

@[simp] theorem keep_ite (c : Prop) [Decidable c] (step other : Exchange σ α) :
    keep p (if c then step else other) = if c then keep p step else keep p other := by
  split <;> rfl

@[simp] theorem keep_map (f : α → β) (step : Exchange σ α) :
    keep p (f <$> step) = f <$> keep p step := by
  ext peers
  simp

end Keep

def deeds (step : Exchange σ α) : Exchange σ α := fun peers =>
  { step.run peers with events := Event.deeds (step.run peers).events }

@[simp] theorem run_deeds (step : Exchange σ α) (peers : σ) :
    (deeds step).run peers =
      ⟨(step.run peers).value, (step.run peers).peers, Event.deeds (step.run peers).events⟩ := rfl

@[simp] theorem deeds_pure (a : α) : deeds (pure a : Exchange σ α) = pure a := rfl

@[simp] theorem deeds_bind (step : Exchange σ α) (next : α → Exchange σ β) :
    deeds (step >>= next) = deeds step >>= fun a => deeds (next a) :=
  keep_bind _ step next

@[simp] theorem deeds_ite (c : Prop) [Decidable c] (step other : Exchange σ α) :
    deeds (if c then step else other) = if c then deeds step else deeds other :=
  keep_ite _ c step other

@[simp] theorem deeds_map (f : α → β) (step : Exchange σ α) :
    deeds (f <$> step) = f <$> deeds step :=
  keep_map _ f step

@[simp] theorem deeds_emit_answered (tag : Nat) (value : Json) :
    deeds (emit (.answered tag value) : Exchange σ Unit) = emit (.answered tag value) := rfl

@[simp] theorem deeds_emit_lapsed (tag : Nat) :
    deeds (emit (.lapsed tag) : Exchange σ Unit) = emit (.lapsed tag) := rfl

@[simp] theorem deeds_note (notice : Notice) : deeds (note notice : Exchange σ Unit) = pure () :=
  rfl

@[simp] theorem deeds_noteTimes (count : Nat) (notice : Notice) :
    deeds (noteTimes count notice : Exchange σ Unit) = pure () := by
  ext peers
  simp [Event.deeds, Event.isNotice]

@[simp] theorem deeds_call [Channel σ] (c : Call) : deeds (call c : Exchange σ Bool) = call c := rfl

@[simp] theorem deeds_forward [Channel σ] (c : Call) :
    deeds (forward c : Exchange σ Bool) = forward c := rfl

@[simp] theorem deeds_draw [IdSource σ] : deeds (draw : Exchange σ _) = draw := rfl

end Exchange

end AttributeExchange
