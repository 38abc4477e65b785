import Mathlib.Logic.Basic

/-!
# Conditions along the steps of a machine

A machine takes an input at every step. `Along` says that a condition on the state
and the input holds at every step of a run. Under an invariant one condition may stand
for another: `Along.imp` and `along_iff` pass from steps to runs.
-/

namespace FStack.Steps

variable {State Input : Type}

/-- A condition holds at every step of a run. -/
def Along (step : State → Input → State) (P : State → Input → Prop) :
    State → List Input → Prop
  | _, [] => True
  | state, input :: rest => P state input ∧ Along step P (step state input) rest

variable {step : State → Input → State} {P Q : State → Input → Prop}

instance Along.decidable [∀ state input, Decidable (P state input)] :
    ∀ (state : State) (inputs : List Input), Decidable (Along step P state inputs)
  | _, [] => inferInstanceAs (Decidable True)
  | state, input :: rest =>
    have := Along.decidable (step state input) rest
    inferInstanceAs (Decidable (_ ∧ _))

variable {inputs : List Input} {state : State}

section

variable (Keeps : State → Prop)

/-- A condition that keeps an invariant carries whatever the two give at one step. -/
theorem Along.imp
    (one : ∀ state input, Keeps state → P state input → Q state input ∧ Keeps (step state input))
    (holds : Keeps state) (along : Along step P state inputs) : Along step Q state inputs := by
  induction inputs generalizing state with
  | nil => trivial
  | cons input rest ih =>
    obtain ⟨here, later⟩ := along
    obtain ⟨now, kept⟩ := one state input holds here
    exact ⟨now, ih kept later⟩

/-- The state at the end of a run. -/
theorem Along.last (one : ∀ state input, Keeps state → P state input → Keeps (step state input))
    (holds : Keeps state) (along : Along step P state inputs) :
    Keeps (inputs.foldl step state) := by
  induction inputs generalizing state with
  | nil => exact holds
  | cons input rest ih => exact ih (one state input holds along.1) along.2

/-- Conditions that agree at one step agree along a run. -/
theorem along_iff (one : ∀ state input, Keeps state → (P state input ↔ Q state input))
    (kept : ∀ state input, Keeps state → P state input → Keeps (step state input))
    (holds : Keeps state) : Along step P state inputs ↔ Along step Q state inputs := by
  constructor
  · exact Along.imp Keeps (fun state input holds here =>
      ⟨(one state input holds).mp here, kept state input holds here⟩) holds
  · exact Along.imp Keeps (fun state input holds here =>
      have here := (one state input holds).mpr here
      ⟨here, kept state input holds here⟩) holds

end

/-- A condition on the inputs alone. -/
theorem along_inputs_iff {P : Input → Prop} :
    Along step (fun _ input => P input) state inputs ↔ ∀ input ∈ inputs, P input := by
  induction inputs generalizing state with
  | nil => exact iff_of_true trivial fun _ member => absurd member List.not_mem_nil
  | cons input rest ih => rw [Along, ih, List.forall_mem_cons]

end FStack.Steps
