import Mathlib.Data.List.Basic

/-!
# Parts

What succeeds as a whole has succeeded in its parts, and the parts of a split list are free of what
it was split at.
-/

namespace AttributeExchange

variable {ε α β : Type}

theorem exists_of_map_eq_ok {result : Except ε α} {f : α → β} {b : β}
    (h : result.map f = .ok b) : ∃ a, result = .ok a ∧ f a = b := by
  cases result with
  | error fault => cases h
  | ok a => exact ⟨a, rfl, Except.ok.inj h⟩

theorem eq_ok_of_mapError_eq_ok {φ : Type} {result : Except ε α} {f : ε → φ} {a : α}
    (h : result.mapError f = .ok a) : result = .ok a := by
  cases result with
  | error fault => cases h
  | ok a => exact congrArg Except.ok (Except.ok.inj h)

theorem exists_of_bind_eq_ok {result : Except ε α} {f : α → Except ε β} {b : β}
    (h : result >>= f = .ok b) : ∃ a, result = .ok a ∧ f a = .ok b := by
  cases result with
  | error fault => cases h
  | ok a => exact ⟨a, rfl, h⟩

theorem not_mem_of_mem_splitOn {c : Char} {text part : List Char} (h : part ∈ text.splitOn c) :
    c ∉ part := by
  induction text generalizing part with
  | nil =>
      rw [List.splitOn_nil, List.mem_singleton] at h
      simp [h]
  | cons first text ih =>
      rw [List.splitOn_cons_eq_if_modifyHead] at h
      split at h
      · rcases List.mem_cons.mp h with rfl | hpart
        · exact List.not_mem_nil
        · exact ih hpart
      · rename_i hfirst
        obtain ⟨head, rest, hsplit⟩ := List.exists_cons_of_ne_nil (List.splitOn_ne_nil c text)
        rw [hsplit, List.modifyHead_cons] at h
        rcases List.mem_cons.mp h with rfl | hpart
        · have hhead : c ∉ head := ih (hsplit ▸ List.mem_cons_self)
          have hne : c ≠ first := fun heq => hfirst (by simp [heq])
          simp [hne, hhead]
        · exact ih (hsplit ▸ List.mem_cons_of_mem head hpart)

end AttributeExchange
