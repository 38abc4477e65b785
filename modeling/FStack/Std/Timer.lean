import Mathlib.Data.List.Induction
import Mathlib.Data.List.Basic

/-!
# What a timer facility does

Keys are armed with a deadline, stopped, and run. A log of these events is on time if
every run is of the last arming of its key, and one tick after its deadline; it is kept
up if no deadline has been passed over.
-/

namespace FStack.Timer

open List

/-- An event of a timer facility; `what` is what is to be run. -/
inductive Event (Key What : Type) where
  | armed (key : Key) (due : Nat) (what : What)
  | stopped (key : Key)
  | ran (key : Key) (time : Nat) (what : What)
deriving DecidableEq, Repr

variable {Key What : Type}

namespace Event

/-- The key of an event. -/
def key : Event Key What → Key
  | armed key _ _ | stopped key | ran key _ _ => key

/-- What is armed after an event of the key. -/
def settle : Event Key What → Option (Nat × What)
  | armed _ due what => some (due, what)
  | _ => none

/-- The time of a run. -/
def runTime : Event Key What → Option Nat
  | ran _ time _ => some time
  | _ => none

/-- Whether an event ends an arming before it runs. -/
def ends : Event Key What → Bool
  | ran .. => false
  | _ => true

end Event

open Timer.Event

/-- The runs of a log, by time. -/
def runTimes (log : List (Event Key What)) : List Nat := log.filterMap runTime

variable [DecidableEq Key]

/-- What a key is armed with at the end of a log. -/
def armedAt (log : List (Event Key What)) (key : Key) : Option (Nat × What) :=
  log.foldl (fun current event => if event.key = key then event.settle else current) none

/-- A run of a key. -/
def Event.runOf (key : Key) : Event Key What → Option (Nat × What)
  | ran other time what => if other = key then some (time, what) else none
  | _ => none

/-- The runs of a key. -/
def runsOf (key : Key) (log : List (Event Key What)) : List (Nat × What) :=
  log.filterMap (runOf key)

theorem mem_runTimes {log : List (Event Key What)} {key : Key} {time : Nat} {what : What}
    (within : (time, what) ∈ runsOf key log) : time ∈ runTimes log := by
  obtain ⟨event, member, isRun⟩ := mem_filterMap.mp within
  refine mem_filterMap.mpr ⟨event, member, ?_⟩
  cases event with
  | ran other time' what' =>
    rw [runOf] at isRun
    split_ifs at isRun
    exact congrArg (Option.map Prod.fst) isRun
  | _ => cases isRun

section

variable (key : Key) (log : List (Event Key What)) (event : Event Key What)

@[simp] theorem runsOf_concat :
    runsOf key (log ++ [event]) = runsOf key log ++ (event.runOf key).toList := by
  cases run : event.runOf key <;> simp [runsOf, run]

@[simp] theorem armedAt_concat :
    armedAt (log ++ [event]) key = if event.key = key then event.settle else armedAt log key := by
  simp [armedAt]

end

/-- Every run is of the last arming of its key, one tick after its deadline. -/
inductive OnTime : List (Event Key What) → Prop where
  | nil : OnTime []
  | quiet {log : List (Event Key What)} {event : Event Key What} (onTime : OnTime log)
      (noRun : event.ends = true) : OnTime (log ++ [event])
  | ran {log : List (Event Key What)} {key : Key} {due : Nat} {what : What} (onTime : OnTime log)
      (armed : armedAt log key = some (due, what)) : OnTime (log ++ [.ran key (due + 1) what])

variable {log : List (Event Key What)} {key : Key} {due : Nat} {what : What}

/-- A key that is armed was armed last. -/
theorem armedAt_eq_some (armed : armedAt log key = some (due, what)) :
    ∃ early late, log = early ++ .armed key due what :: late ∧ ∀ event ∈ late, event.key ≠ key := by
  induction log using reverseRecOn with
  | nil => cases armed
  | append_singleton log event ih =>
    rw [armedAt_concat] at armed
    split_ifs at armed with own
    · cases event with
      | armed other due' what' =>
        obtain rfl : other = key := own
        obtain ⟨rfl, rfl⟩ := Prod.mk.inj (Option.some.inj armed)
        exact ⟨log, [], rfl, fun _ within => absurd within not_mem_nil⟩
      | stopped | ran => cases armed
    · obtain ⟨early, late, rfl, quiet⟩ := ih armed
      refine ⟨early, late ++ [event], by simp, fun other within => ?_⟩
      rcases mem_append.mp within with before | last
      · exact quiet other before
      · obtain rfl := mem_singleton.mp last
        exact own

namespace OnTime

/-- What a log on time says about its last event. -/
theorem concat_inv {event : Event Key What} (onTime : OnTime (log ++ [event])) :
    OnTime log ∧ ∀ key time what, event = .ran key time what →
      ∃ due, time = due + 1 ∧ armedAt log key = some (due, what) := by
  generalize whole : log ++ [event] = longer at onTime
  cases onTime with
  | nil => simp at whole
  | quiet onTime noRun =>
    obtain ⟨rfl, same⟩ := append_inj' whole rfl
    obtain rfl := singleton_inj.mp same
    refine ⟨onTime, fun key time what isRun => ?_⟩
    subst isRun
    cases noRun
  | ran onTime armed =>
    obtain ⟨rfl, same⟩ := append_inj' whole rfl
    obtain rfl := singleton_inj.mp same
    refine ⟨onTime, fun key time what isRun => ?_⟩
    cases isRun
    exact ⟨_, rfl, armed⟩

variable {early late : List (Event Key What)}

theorem of_append (onTime : OnTime (early ++ late)) : OnTime early := by
  induction late using reverseRecOn with
  | nil => simpa using onTime
  | append_singleton late event ih =>
    rw [← append_assoc] at onTime
    exact ih onTime.concat_inv.1

/-- A run is of the last arming of its key. -/
theorem ran_inv {time : Nat} (onTime : OnTime (early ++ .ran key time what :: late)) :
    ∃ due, time = due + 1 ∧ armedAt early key = some (due, what) := by
  have split : early ++ Event.ran key time what :: late =
      (early ++ [.ran key time what]) ++ late := by simp
  rw [split] at onTime
  exact onTime.of_append.concat_inv.2 key time what rfl

/-- An arming that nothing ends is still there, or has run once. -/
theorem runsOf_of_armed (onTime : OnTime (early ++ late))
    (armed : armedAt early key = some (due, what))
    (lasts : ∀ event ∈ late, event.ends = true → event.key ≠ key) :
    runsOf key late = [] ∧ armedAt (early ++ late) key = some (due, what) ∨
      runsOf key late = [(due + 1, what)] ∧ armedAt (early ++ late) key = none := by
  induction late using reverseRecOn with
  | nil => exact .inl ⟨rfl, by simpa using armed⟩
  | append_singleton late event ih =>
    rw [← append_assoc] at onTime ⊢
    obtain ⟨before, last⟩ := onTime.concat_inv
    have earlier := ih before fun event within => lasts event (mem_append_left _ within)
    have ends := lasts event (mem_append_right _ (mem_singleton_self event))
    rw [armedAt_concat]
    cases event with
    | armed other | stopped other =>
      have another : other ≠ key := ends rfl
      simpa [Event.key, Event.runOf, another] using earlier
    | ran other time what' =>
      rcases eq_or_ne other key with rfl | another
      · obtain ⟨due', rfl, there⟩ := last other time what' rfl
        rcases earlier with ⟨none_yet, still⟩ | ⟨-, gone⟩
        · obtain ⟨rfl, rfl⟩ := Prod.mk.inj (Option.some.inj (there.symm.trans still))
          exact .inr ⟨by simp [runOf, none_yet], by simp [key, settle]⟩
        · rw [gone] at there
          cases there
      · simpa [Event.key, Event.runOf, another] using earlier

end OnTime

/-- A log that is on time at `now`, with no deadline before `since` left armed. -/
structure Kept (log : List (Event Key What)) (now since : Nat) : Prop where
  onTime : OnTime log
  ordered : (runTimes log).Pairwise (· ≤ ·)
  past : ∀ time ∈ runTimes log, time ≤ now
  ahead : ∀ key due what, armedAt log key = some (due, what) → since ≤ due

/-- What a timer facility promises at `now`. -/
structure Exact (log : List (Event Key What)) (now : Nat) : Prop where
  /-- An arming that is neither stopped nor replaced runs once, when it is due. -/
  runsOnce : ∀ early late key due what, log = early ++ .armed key due what :: late →
    (∀ event ∈ late, event.ends = true → event.key ≠ key) →
      runsOf key late = if due < now then [(due + 1, what)] else []
  /-- What runs was armed, and neither stopped nor replaced nor run since. -/
  onlyArmed : ∀ early late key time what, log = early ++ .ran key time what :: late →
    ∃ before due since, early = before ++ .armed key due what :: since ∧ time = due + 1 ∧
      ∀ event ∈ since, event.key ≠ key
  /-- Runs come in the order of their deadlines. -/
  ordered : (runTimes log).Pairwise (· ≤ ·)

namespace Kept

variable {now since : Nat}

theorem nil (now since : Nat) : Kept ([] : List (Event Key What)) now since where
  onTime := .nil
  ordered := .nil
  past _ within := absurd within not_mem_nil
  ahead _ _ _ armed := nomatch armed

/-- An event that is no run, and arms nothing early, keeps the log. -/
theorem quiet (kept : Kept log now since) {event : Event Key What} (noRun : event.ends = true)
    (later : ∀ due what, event.settle = some (due, what) → since ≤ due) :
    Kept (log ++ [event]) now since := by
  have same : runTimes (log ++ [event]) = runTimes log := by
    cases event with
    | ran => cases noRun
    | _ => simp [runTimes, runTime]
  refine ⟨kept.onTime.quiet noRun, same ▸ kept.ordered, same ▸ kept.past, ?_⟩
  intro key due what armed
  rw [armedAt_concat] at armed
  split_ifs at armed with own
  · exact later due what armed
  · exact kept.ahead key due what armed

theorem arm (kept : Kept log now since) (key : Key) {due : Nat} (what : What) (later : since ≤ due) :
    Kept (log ++ [.armed key due what]) now since := by
  refine kept.quiet rfl fun due' what' settled => ?_
  obtain ⟨rfl, -⟩ := Prod.mk.inj (Option.some.inj settled)
  exact later

theorem stop (kept : Kept log now since) (key : Key) : Kept (log ++ [.stopped key]) now since :=
  kept.quiet rfl fun _ _ settled => nomatch settled

/-- Running what is due now keeps the log. -/
theorem run (kept : Kept log (due + 1) since) (armed : armedAt log key = some (due, what)) :
    Kept (log ++ [.ran key (due + 1) what]) (due + 1) since := by
  have times : runTimes (log ++ [.ran key (due + 1) what]) = runTimes log ++ [due + 1] := by
    simp [runTimes, runTime]
  refine ⟨kept.onTime.ran armed, ?_, ?_, ?_⟩
  · rw [times, pairwise_append]
    refine ⟨kept.ordered, pairwise_singleton _ _, fun time within last isLast => ?_⟩
    obtain rfl := mem_singleton.mp isLast
    exact kept.past time within
  · intro time within
    rw [times, mem_append] at within
    rcases within with before | last
    · exact kept.past time before
    · exact Nat.le_of_eq (mem_singleton.mp last)
  · intro other due' what' armed'
    rw [armedAt_concat] at armed'
    split_ifs at armed' with own
    · cases armed'
    · exact kept.ahead other due' what' armed'

theorem tick (kept : Kept log now since) : Kept log (now + 1) since :=
  { kept with past := fun time within => Nat.le_succ_of_le (kept.past time within) }

/-- Nothing is armed before `since'` any more. -/
theorem advance (kept : Kept log now since) {since' : Nat}
    (ahead : ∀ key due what, armedAt log key = some (due, what) → since' ≤ due) :
    Kept log now since' :=
  { kept with ahead := ahead }

/-- A log kept up to now is exact. -/
theorem exact (kept : Kept log now now) : Exact log now where
  runsOnce := by
    rintro early late key due what rfl lasts
    have split : early ++ Event.armed key due what :: late =
        (early ++ [.armed key due what]) ++ late := by simp
    have armed : armedAt (early ++ [.armed key due what]) key = some (due, what) := by
      simp [Event.key, Event.settle]
    have cases_ := (split ▸ kept.onTime).runsOf_of_armed armed lasts
    rcases cases_ with ⟨noRuns, still⟩ | ⟨once, -⟩
    · rw [noRuns, if_neg (Nat.not_lt.mpr (kept.ahead key due what (split ▸ still)))]
    · have within : due + 1 ∈ runTimes (early ++ Event.armed key due what :: late) := by
        have own : (due + 1, what) ∈ runsOf key late := once ▸ mem_singleton_self _
        have late_time := mem_runTimes own
        simp only [runTimes, filterMap_append] at late_time ⊢
        exact mem_append_right _ late_time
      have passed : due < now := kept.past _ within
      rw [once, if_pos passed]
  onlyArmed := by
    rintro early late key time what rfl
    obtain ⟨due, rfl, armed⟩ := kept.onTime.ran_inv
    obtain ⟨before, between, rfl, quiet⟩ := armedAt_eq_some armed
    exact ⟨before, due, between, rfl, rfl, quiet⟩
  ordered := kept.ordered

end Kept

end FStack.Timer
