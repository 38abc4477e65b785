import Mathlib.Data.List.Nodup
import Mathlib.Data.List.Perm.Basic
import FStack.Std.Maps

/-!
# Custody of objects

Objects are kept in places. Custody is linear if every object is in exactly one place,
and there only once. Handing an object over from one place to another keeps it so.
-/

namespace FStack.Custody

open Function List

variable {Place Obj : Type}

/-- Every object is in exactly one place, and only once there. -/
structure Linear (objs : List Obj) (contents : Place → List Obj) : Prop where
  nodup : ∀ place, (contents place).Nodup
  once : ∀ obj ∈ objs, ∃! place, obj ∈ contents place
  known : ∀ place, ∀ obj ∈ contents place, obj ∈ objs

namespace Linear

variable {objs : List Obj} {contents : Place → List Obj} {source target : Place} {obj : Obj}

theorem place_eq (linear : Linear objs contents) (here : obj ∈ contents source)
    (there : obj ∈ contents target) : source = target :=
  (linear.once obj (linear.known source obj here)).unique here there

variable [DecidableEq Place]

/-- All objects are in one place. -/
theorem start (nodup : objs.Nodup) (place : Place) :
    Linear objs (update (fun _ => []) place objs) where
  nodup other := by
    rcases eq_or_ne other place with rfl | different
    · rwa [update_self]
    · rw [update_of_ne different]
      exact nodup_nil
  once obj member := by
    refine ⟨place, ?_, fun other found => ?_⟩
    · dsimp only
      rwa [update_self]
    · by_contra different
      dsimp only at found
      rw [update_of_ne different] at found
      exact not_mem_nil found
  known other obj found := by
    rcases eq_or_ne other place with rfl | different
    · rwa [update_self] at found
    · rw [update_of_ne different] at found
      exact absurd found not_mem_nil

/-- An object is handed over. -/
theorem transfer (linear : Linear objs contents) (obj : Obj) (apart : source ≠ target)
    {rest added : List Obj} (taken : (contents source).Perm (obj :: rest)) (put : added.Perm (obj :: contents target)) :
    Linear objs (update (update contents source rest) target added) := by
  have here : obj ∈ contents source := taken.mem_iff.mpr mem_cons_self
  have gone : obj ∉ contents target := fun there => apart (linear.place_eq here there)
  obtain ⟨left, restNodup⟩ := nodup_cons.mp (taken.nodup_iff.mp (linear.nodup source))
  -- the contents of a place, by the three cases
  have atTarget : update (update contents source rest) target added target =
      added := update_self ..
  have atSource : update (update contents source rest) target added source =
      rest := by rw [update_of_ne apart, update_self]
  have elsewhere {place : Place} (noSource : place ≠ source) (noTarget : place ≠ target) :
      update (update contents source rest) target added place = contents place := by
    rw [update_of_ne noTarget, update_of_ne noSource]
  have others {place : Place} {other : Obj} (different : other ≠ obj) :
      other ∈ update (update contents source rest) target added place ↔
        other ∈ contents place := by
    by_cases isTarget : place = target
    · rw [isTarget, atTarget, put.mem_iff, mem_cons, or_iff_right different]
    · by_cases isSource : place = source
      · rw [isSource, atSource, taken.mem_iff, mem_cons, or_iff_right different]
      · rw [elsewhere isSource isTarget]
  have moved {place : Place} :
      obj ∈ update (update contents source rest) target added place ↔
        place = target := by
    by_cases isTarget : place = target
    · rw [isTarget, atTarget, put.mem_iff]
      exact iff_of_true mem_cons_self rfl
    · refine iff_of_false (fun found => ?_) isTarget
      by_cases isSource : place = source
      · rw [isSource, atSource] at found
        exact left found
      · rw [elsewhere isSource isTarget] at found
        exact isSource (linear.place_eq found here)
  refine ⟨fun place => ?_, fun other member => ?_, fun place other found => ?_⟩
  · by_cases isTarget : place = target
    · rw [isTarget, atTarget, put.nodup_iff]
      exact nodup_cons.mpr ⟨gone, linear.nodup target⟩
    · by_cases isSource : place = source
      · rwa [isSource, atSource]
      · rw [elsewhere isSource isTarget]
        exact linear.nodup place
  · rcases eq_or_ne other obj with rfl | different
    · exact ⟨target, moved.mpr rfl, fun place found => moved.mp found⟩
    · obtain ⟨place, found, unique⟩ := linear.once other member
      exact ⟨place, (others different).mpr found, fun place' found' =>
        unique place' ((others different).mp found')⟩
  · rcases eq_or_ne other obj with rfl | different
    · exact linear.known source other here
    · exact linear.known place other ((others different).mp found)

end Linear

section Location

variable {contains contains' : Obj → Prop} {location : Obj → Place} {place target : Place}
  {obj : Obj}

/-- A place contains the objects that are located there. -/
def Fits (contains : Obj → Prop) (location : Obj → Place) (place : Place) : Prop :=
  ∀ obj, contains obj ↔ location obj = place

variable [DecidableEq Obj]

section

variable (fits : Fits contains location place)

include fits

/-- An object moves between other places. -/
theorem Fits.elsewhere (before : location obj ≠ place) (after : target ≠ place) :
    Fits contains (update location obj target) place := by
  intro other
  rcases eq_or_ne other obj with rfl | different
  · rw [update_self, fits]
    exact iff_of_false before after
  · rw [update_of_ne different]
    exact fits other

/-- An object that enters a place is located there. -/
theorem Fits.enter (entered : ∀ other, contains' other ↔ contains other ∨ other = obj) :
    Fits contains' (update location obj place) place := by
  intro other
  rw [entered]
  rcases eq_or_ne other obj with rfl | different
  · rw [update_self]
    exact iff_of_true (.inr rfl) rfl
  · rw [update_of_ne different, or_iff_left different]
    exact fits other

/-- An object that leaves a place is located elsewhere. -/
theorem Fits.leave (left : ∀ other, contains' other ↔ contains other ∧ other ≠ obj)
    (after : target ≠ place) : Fits contains' (update location obj target) place := by
  intro other
  rw [left]
  rcases eq_or_ne other obj with rfl | different
  · rw [update_self]
    exact iff_of_false (fun both => both.2 rfl) after
  · rw [update_of_ne different, and_iff_left different]
    exact fits other

end

end Location

end FStack.Custody
