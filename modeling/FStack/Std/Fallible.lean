import Mathlib.Data.List.Basic

/-!
# Computations that may fail

Rules for loops of fallible steps, `Except` computations over a list: a loop that
succeeds has succeeded in every step, keeps what each step keeps, and is
simulated by another loop when each of its steps is.
-/

namespace FStack.Fallible

variable {Fault State Result Item : Type}

/-- A sequence that succeeds has a first part that succeeds. -/
theorem bind_eq_ok {first : Except Fault State} {next : State → Except Fault Result}
    {result : Result} (done : (first >>= next) = .ok result) :
    ∃ state, first = .ok state ∧ next state = .ok result := by
  cases first with
  | error _ => cases done
  | ok state => exact ⟨state, rfl, done⟩

variable {body : State → Item → Except Fault State} {final state : State} {items : List Item}

/-- A loop that succeeds made its first step and then the others. -/
theorem foldlM_cons_eq_ok {item : Item} {rest : List Item}
    (done : (item :: rest).foldlM body state = .ok final) :
    ∃ middle, body state item = .ok middle ∧ rest.foldlM body middle = .ok final := by
  exact bind_eq_ok done

/-- What every successful step keeps, a successful loop keeps. -/
theorem foldlM_keeps {Keeps : State → Prop}
    (step : ∀ state item next, Keeps state → body state item = .ok next → Keeps next)
    (start : Keeps state) (done : items.foldlM body state = .ok final) : Keeps final := by
  induction items generalizing state with
  | nil =>
    obtain rfl := Except.ok.inj done
    exact start
  | cons item rest ih =>
    obtain ⟨middle, first, others⟩ := foldlM_cons_eq_ok done
    exact ih (step state item middle start first) others

/-- A loop whose steps are matched by those of another loop is matched by it. -/
theorem foldlM_simulates {Other : Type} {Related : State → Other → Prop}
    {other : Other → Item → Except Fault Other}
    (step : ∀ state image item next, Related state image → body state item = .ok next →
      ∃ next', other image item = .ok next' ∧ Related next next') {image : Other}
    (start : Related state image) (done : items.foldlM body state = .ok final) :
    ∃ final', items.foldlM other image = .ok final' ∧ Related final final' := by
  induction items generalizing state image with
  | nil =>
    obtain rfl := Except.ok.inj done
    exact ⟨image, rfl, start⟩
  | cons item rest ih =>
    obtain ⟨middle, first, others⟩ := foldlM_cons_eq_ok done
    obtain ⟨middle', first', related⟩ := step state image item middle start first
    obtain ⟨final', others', ends⟩ := ih related others
    refine ⟨final', ?_, ends⟩
    rw [List.foldlM_cons, first']
    exact others'

/-- A loop of checks that succeeds passed every check. -/
theorem forM_eq_ok {check : Item → Except Fault Unit} (done : items.forM check = .ok ()) :
    ∀ item ∈ items, check item = .ok () := by
  induction items with
  | nil => simp
  | cons item rest ih =>
    obtain ⟨_, first, others⟩ := bind_eq_ok done
    rw [List.forall_mem_cons]
    exact ⟨first, ih others⟩

end FStack.Fallible
