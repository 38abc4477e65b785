import Mathlib.Order.WellFounded

/-!
# Fair runs of interleaved agents

A run is an infinite sequence of moves, one agent at a time. `invariant` carries
a property along a run; `leadsTo` shows that a run that is fair to an agent
reaches a goal when that agent's moves lower a well-founded measure and nobody
else's moves change it.
-/

namespace FStack.Fair

variable {State Agent Choice : Type}

/-- A system of agents that move by choices. -/
structure Interleaved (State Agent Choice : Type) where
  agent : Choice → Agent
  move : Choice → State → State

namespace Interleaved

variable (system : Interleaved State Agent Choice) (start : State) (choices : Nat → Choice)

/-- The state of a run after a number of moves. -/
def stateAt : Nat → State
  | 0 => start
  | time + 1 => system.move (choices time) (stateAt time)

/-- Every agent among `agents` moves again and again. -/
def FairTo (agents : Agent → Prop) : Prop :=
  ∀ agent, agents agent → ∀ time, ∃ later, time ≤ later ∧ system.agent (choices later) = agent

variable {system start choices}

/-- What holds at some time and is kept by every move holds from then on. -/
theorem invariant_from (Keeps : State → Prop) {time later : Nat}
    (holds : Keeps (system.stateAt start choices time))
    (kept : ∀ choice state, Keeps state → Keeps (system.move choice state))
    (after : time ≤ later) : Keeps (system.stateAt start choices later) := by
  induction later, after using Nat.le_induction with
  | base => exact holds
  | succ later _ ih => exact kept (choices later) _ ih

section LeadsTo

variable {Measure : Type} (measure : State → Measure) (helper : Agent) (Always Waits : State → Prop)
  {Goal : State → Prop} (always : ∀ time, Always (system.stateAt start choices time))
  (other : ∀ choice state, system.agent choice ≠ helper → Always state → Waits state →
    Goal (system.move choice state) ∨
      Waits (system.move choice state) ∧ measure (system.move choice state) = measure state)

include always other

/-- Moves of other agents leave a waiting state as it is until the helper moves. -/
theorem waits_until {time later : Nat} (after : time ≤ later)
    (waits : Waits (system.stateAt start choices time)) :
    (∃ reached, time ≤ reached ∧ Goal (system.stateAt start choices reached)) ∨
      (∃ moved, time ≤ moved ∧ moved < later ∧ system.agent (choices moved) = helper ∧
        Waits (system.stateAt start choices moved) ∧
        measure (system.stateAt start choices moved) =
          measure (system.stateAt start choices time)) ∨
      Waits (system.stateAt start choices later) ∧
        measure (system.stateAt start choices later) =
          measure (system.stateAt start choices time) := by
  induction later, after using Nat.le_induction with
  | base => exact .inr (.inr ⟨waits, rfl⟩)
  | succ later after ih =>
    rcases ih with reached | ⟨moved, since, before, helps⟩ | ⟨still, same⟩
    · exact .inl reached
    · exact .inr (.inl ⟨moved, since, by omega, helps⟩)
    · by_cases helps : system.agent (choices later) = helper
      · exact .inr (.inl ⟨later, after, by omega, helps, still, same⟩)
      · rcases other (choices later) _ helps (always later) still with goal | ⟨waits', same'⟩
        · exact .inl ⟨later + 1, by omega, goal⟩
        · exact .inr (.inr ⟨waits', same'.trans same⟩)

/-- A run that is fair to the helper leads from waiting to the goal. -/
theorem leadsTo {less : Measure → Measure → Prop} (wellFounded : WellFounded less)
    (own : ∀ choice state, system.agent choice = helper → Always state → Waits state →
      Always (system.move choice state) → Goal (system.move choice state) ∨
        Waits (system.move choice state) ∧ less (measure (system.move choice state)) (measure state))
    (fair : ∀ time, ∃ later, time ≤ later ∧ system.agent (choices later) = helper)
    {time : Nat} (waits : Waits (system.stateAt start choices time)) :
    ∃ reached, time ≤ reached ∧ Goal (system.stateAt start choices reached) := by
  -- Induction on the measure at the time of waiting.
  generalize level : measure (system.stateAt start choices time) = bound
  induction bound using wellFounded.induction generalizing time with
  | h bound ih =>
    have helped : ∀ moved, time ≤ moved → system.agent (choices moved) = helper →
        Waits (system.stateAt start choices moved) →
        measure (system.stateAt start choices moved) = bound →
        ∃ reached, time ≤ reached ∧ Goal (system.stateAt start choices reached) := by
      intro moved since helps still same
      rcases own (choices moved) _ helps (always moved) still (always (moved + 1)) with
        goal | ⟨waits', lower⟩
      · exact ⟨moved + 1, by omega, goal⟩
      · rw [same] at lower
        have still' : Waits (system.stateAt start choices (moved + 1)) := waits'
        obtain ⟨reached, later, goal⟩ := ih _ lower still' rfl
        exact ⟨reached, by omega, goal⟩
    obtain ⟨later, after, helps⟩ := fair time
    rcases waits_until measure helper Always Waits always other after waits with
      reached | ⟨moved, since, -, moves, still, same⟩ | ⟨still, same⟩
    · exact reached
    · exact helped moved since moves still (same.trans level)
    · exact helped later after helps still (same.trans level)

end LeadsTo

end Interleaved

end FStack.Fair
