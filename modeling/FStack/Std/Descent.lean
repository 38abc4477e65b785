import Mathlib.Logic.Basic

/-!
# Chains of calls

A function that calls itself at most once has, for each of its arguments, the argument of the
next call or none. `after` follows the calls. If each call is made with a smaller argument, the
calls end, and there are no more of them than the size of the first argument.
-/

namespace FStack.Descent

variable {α : Type} {next : α → Option α} {size : α → Nat} {start : α}

/-- The argument of the call that is so many calls inside the first one. -/
def after (next : α → Option α) (start : α) : Nat → Option α
  | 0 => some start
  | depth + 1 => (after next start depth).bind next

theorem after_succ {second : α} (first : next start = some second) (depth : Nat) :
    after next start (depth + 1) = after next second depth := by
  induction depth with
  | zero => exact first
  | succ depth ih =>
    rw [after, ih]
    rfl

/-- A call that makes no other is the last one. -/
theorem after_last (last : next start = none) (depth : Nat) :
    after next start (depth + 1) = none := by
  induction depth with
  | zero => exact last
  | succ depth ih =>
    rw [after, ih]
    rfl

/-- What holds of all calls holds of the first one and of those inside the second. -/
theorem forall_after_iff {P : Nat → α → Prop} :
    (∀ depth call, after next start depth = some call → P depth call) ↔
      P 0 start ∧ ∀ second, next start = some second →
        ∀ depth call, after next second depth = some call → P (depth + 1) call := by
  constructor
  · intro all
    refine ⟨all 0 start rfl, fun second first depth call here => all (depth + 1) call ?_⟩
    rw [after_succ first, here]
  · rintro ⟨here, inside⟩ depth call there
    obtain _ | depth := depth
    · cases there
      exact here
    · cases first : next start with
      | none =>
        rw [after_last first] at there
        cases there
      | some second => exact inside second first depth call (after_succ first depth ▸ there)

/-- Every call is made with a smaller argument. -/
def Shrinks (next : α → Option α) (size : α → Nat) (start : α) : Prop :=
  ∀ depth outer inner, after next start depth = some outer → next outer = some inner →
    size inner < size outer

variable (shrinks : Shrinks next size start)

include shrinks

theorem Shrinks.second {second : α} (first : next start = some second) :
    Shrinks next size second := by
  intro depth outer inner here
  exact shrinks (depth + 1) outer inner ((after_succ first depth).trans here)

/-- The deeper a call is, the smaller its argument. -/
theorem Shrinks.size_le {depth : Nat} {inner : α} (here : after next start depth = some inner) :
    size inner + depth ≤ size start := by
  induction depth generalizing inner with
  | zero =>
    cases here
    exact Nat.le_refl _
  | succ depth ih =>
    obtain ⟨outer, there, call⟩ := Option.bind_eq_some_iff.mp here
    have smaller := shrinks depth outer inner there call
    have bound := ih there
    omega

/-- There is no call that is deeper than the size of the first argument. -/
theorem Shrinks.depth_le {depth : Nat} (deep : size start < depth) :
    after next start depth = none := by
  cases here : after next start depth with
  | none => rfl
  | some inner =>
    have bound := shrinks.size_le here
    omega

end FStack.Descent
