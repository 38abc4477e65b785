import Mathlib.Data.Option.Basic

/-!
# Partial maps

What is found in a map after one entry has been set or removed.
-/

namespace FStack.Maps

open Function

variable {α β : Type} [DecidableEq α] {map : α → Option β} {key other : α} {new value : β}

theorem update_none_iff :
    update map key none other = some value ↔ other ≠ key ∧ map other = some value := by
  rw [update_apply, ite_eq_iff]
  simp

theorem update_some_iff :
    update map key (some new) other = some value ↔
      other = key ∧ new = value ∨ other ≠ key ∧ map other = some value := by
  rw [update_apply, ite_eq_iff, Option.some.injEq]

end FStack.Maps
