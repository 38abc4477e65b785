import Mathlib.Algebra.BigOperators.Group.List.Basic
import Mathlib.Algebra.Ring.Nat

/-!
# Facts about lists

Where a value stands in a list for the last time, and counting in lists made of parts.
-/

namespace FStack.Lists

open List

variable {Value : Type}

/-- A list splits at the last place of any of its members. -/
theorem eq_append_cons_of_mem_last {value : Value} {values : List Value}
    (member : value ∈ values) :
    ∃ before after, values = before ++ value :: after ∧ value ∉ after := by
  obtain ⟨after, before, reversed, last⟩ :=
    eq_append_cons_of_mem (mem_reverse.mpr member)
  refine ⟨before.reverse, after.reverse, ?_, by rwa [mem_reverse]⟩
  rw [← reverse_reverse values, reversed]
  simp

variable {Element : Type}

/-- Only one part of a list over a range holds elements that count. -/
theorem countP_flatMap_range {P : Element → Bool} {part : Nat → List Element} (index : Nat)
    (others : ∀ other, other ≠ index → (part other).countP P = 0) (size : Nat) :
    ((range size).flatMap part).countP P =
      if index < size then (part index).countP P else 0 := by
  induction size with
  | zero => rfl
  | succ size ih =>
    rw [range_succ, flatMap_append, countP_append, ih, flatMap_singleton]
    rcases Nat.lt_trichotomy index size with before | rfl | after
    · rw [if_pos before, if_pos (by omega), others size (by omega), Nat.add_zero]
    · rw [if_neg (by omega), if_pos (by omega), Nat.zero_add]
    · rw [if_neg (by omega), if_neg (by omega), others size (by omega)]

theorem sum_map_ite_const (P : Element → Bool) (worth : Nat) (elements : List Element) :
    (elements.map fun element => if P element then worth else 0).sum =
      worth * elements.countP P := by
  induction elements with
  | nil => rfl
  | cons element rest ih =>
    rw [map_cons, sum_cons, countP_cons, Nat.mul_add]
    split_ifs <;> omega

end FStack.Lists
