import Mathlib.Algebra.BigOperators.Group.List.Basic
import Mathlib.Algebra.Ring.Nat

/-!
# Ranges of addresses

A range is some bytes from an address on. Ranges that are laid out one behind the other
from the start of a region stay inside it exactly if their lengths sum up to no more
than its length.
-/

namespace FStack

/-- `len` bytes from `addr` on. -/
structure Range where
  addr : Nat
  len : Nat
deriving DecidableEq, Repr

namespace Range

/-- A range lies inside another. -/
def Within (range region : Range) : Prop :=
  region.addr ≤ range.addr ∧ range.addr + range.len ≤ region.addr + region.len

instance (range region : Range) : Decidable (range.Within region) :=
  inferInstanceAs (Decidable (_ ∧ _))

/-- Ranges of given lengths, one behind the other. -/
def consecutive : (addr : Nat) → (lens : List Nat) → List Range
  | _, [] => []
  | addr, len :: lens => ⟨addr, len⟩ :: consecutive (addr + len) lens

variable {region : Range} {lens : List Nat}

/-- Ranges one after the other stay inside a region that has room for their sum. -/
theorem within_consecutive {addr : Nat} (start : region.addr ≤ addr)
    (fits : addr + lens.sum ≤ region.addr + region.len) :
    ∀ range ∈ consecutive addr lens, range.Within region := by
  induction lens generalizing addr with
  | nil => exact fun _ member => absurd member List.not_mem_nil
  | cons len lens ih =>
    rw [List.sum_cons] at fits
    rw [consecutive, List.forall_mem_cons]
    refine ⟨⟨start, ?_⟩, ih (by omega) (by omega)⟩
    change addr + len ≤ _
    omega

theorem sum_le_of_within {addr : Nat} (start : addr ≤ region.addr + region.len)
    (within : ∀ range ∈ consecutive addr lens, range.Within region) :
    addr + lens.sum ≤ region.addr + region.len := by
  induction lens generalizing addr with
  | nil => exact start
  | cons len lens ih =>
    obtain ⟨⟨-, first⟩, rest⟩ := List.forall_mem_cons.mp within
    rw [List.sum_cons, ← Nat.add_assoc]
    exact ih first rest

/-- Consecutive ranges from the start of a region stay inside it exactly if their lengths
do. -/
theorem forall_within_consecutive_iff :
    (∀ range ∈ consecutive region.addr lens, range.Within region) ↔ lens.sum ≤ region.len := by
  constructor
  · intro within
    exact Nat.le_of_add_le_add_left (sum_le_of_within (Nat.le_add_right ..) within)
  · intro fits
    exact within_consecutive (Nat.le_refl _) (Nat.add_le_add_left fits _)

end Range

end FStack
