import Mathlib.Data.List.Nodup
import Mathlib.Data.List.Perm.Subperm
import Mathlib.Data.Set.Insert
import Mathlib.Logic.Equiv.Basic

/-!
# Binary heaps whose entries know their places

A heap keeps entries at the places `1` to `count`; the parent of place `p` is `p / 2`.
Every entry records the place it is at. `up` and `down` move one entry until it is in
order with its parent, or with its children.

Swaps keep the entries that a heap `Holds`, so both loops do, whether or not the keys are in
order. They bring the order about if the moving entry is the only one that is out of order.
-/

namespace FStack

open Equiv Function List

/-- The places behind `count` are not used. -/
structure Heap (α : Type) where
  count : Nat
  slot : Nat → α
  index : α → Nat

namespace Heap

variable {α : Type} {heap : Heap α} {kept : Set α} {key : α → Nat} {p q pos fuel : Nat}

section Loops

variable [DecidableEq α]

/-- Two entries change places. -/
def swap (heap : Heap α) (p q : Nat) : Heap α where
  count := heap.count
  slot := update (update heap.slot p (heap.slot q)) q (heap.slot p)
  index := update (update heap.index (heap.slot q) p) (heap.slot p) q

/-- The entry at a place moves up while it is less than its parent. -/
def up (key : α → Nat) : Nat → Nat → Heap α → Heap α
  | 0, _, heap => heap
  | fuel + 1, pos, heap =>
    if pos / 2 < 1 then heap
    else if key (heap.slot pos) < key (heap.slot (pos / 2)) then
      up key fuel (pos / 2) (heap.swap pos (pos / 2))
    else heap

omit [DecidableEq α] in
/-- The lesser of the children of a place that has one. -/
def minSon (key : α → Nat) (heap : Heap α) (pos : Nat) : Nat :=
  if pos * 2 = heap.count then pos * 2
  else if key (heap.slot (pos * 2 + 1)) < key (heap.slot (pos * 2)) then pos * 2 + 1
  else pos * 2

/-- The entry at a place moves down while it is greater than its lesser child. -/
def down (key : α → Nat) : Nat → Nat → Heap α → Heap α
  | 0, _, heap => heap
  | fuel + 1, pos, heap =>
    if heap.count < pos * 2 then heap
    else
      let son := minSon key heap pos
      if key (heap.slot son) < key (heap.slot pos) then down key fuel son (heap.swap pos son)
      else heap

end Loops

section Members

/-- The entries of a heap are `kept`, and each is at the place it records. -/
structure Holds (heap : Heap α) (kept : Set α) : Prop where
  index_slot : ∀ p, 0 < p → p ≤ heap.count → heap.index (heap.slot p) = p
  member : ∀ p, 0 < p → p ≤ heap.count → heap.slot p ∈ kept
  placed : ∀ entry ∈ kept, 0 < heap.index entry ∧ heap.index entry ≤ heap.count ∧
    heap.slot (heap.index entry) = entry

/-- What is not in a heap records no place. -/
def Clear (heap : Heap α) (kept : Set α) : Prop :=
  ∀ entry, entry ∉ kept → heap.index entry = 0

theorem Holds.slot_injective (holds : heap.Holds kept) (p0 : 0 < p) (pc : p ≤ heap.count)
    (q0 : 0 < q) (qc : q ≤ heap.count) (same : heap.slot p = heap.slot q) : p = q := by
  rw [← holds.index_slot p p0 pc, same, holds.index_slot q q0 qc]

/-- The entries that record a place. -/
def members (heap : Heap α) : Set α := { entry | heap.index entry ≠ 0 }

/-- The entries that record a place are those of the heap. -/
def Valid (heap : Heap α) : Prop := heap.Holds heap.members

theorem Holds.members_eq (holds : heap.Holds kept) (clear : heap.Clear kept) :
    heap.members = kept := by
  ext entry
  refine ⟨fun recorded => ?_, fun member => ?_⟩
  · by_contra free
    exact recorded (clear entry free)
  · exact (holds.placed entry member).1.ne'

theorem Holds.valid (holds : heap.Holds kept) (clear : heap.Clear kept) : heap.Valid := by
  rw [Valid, holds.members_eq clear]
  exact holds

/-- The entries of a heap, place by place. -/
def entries (heap : Heap α) : List α := (range heap.count).map fun i => heap.slot (i + 1)

/-- The entries of a heap are the ones that it holds. -/
theorem Holds.mem_entries (holds : heap.Holds kept) {entry : α} :
    entry ∈ heap.entries ↔ entry ∈ kept := by
  unfold entries
  rw [mem_map]
  constructor
  · rintro ⟨i, inside, rfl⟩
    exact holds.member (i + 1) (by omega) (by rw [mem_range] at inside; omega)
  · intro member
    obtain ⟨positive, bounded, there⟩ := holds.placed entry member
    refine ⟨heap.index entry - 1, mem_range.mpr (by omega), ?_⟩
    rw [Nat.sub_add_cancel positive, there]

theorem Holds.nodup_entries (holds : heap.Holds kept) : heap.entries.Nodup := by
  refine List.Nodup.map_on (fun i left j right same => ?_) nodup_range
  rw [mem_range] at left right
  exact Nat.succ_inj.mp (holds.slot_injective (by omega) (by omega) (by omega) (by omega) same)

/-- A heap has no more entries than there are objects. -/
theorem Holds.count_le (holds : heap.Holds kept) {objs : List α}
    (known : ∀ entry ∈ kept, entry ∈ objs) : heap.count ≤ objs.length := by
  have fewer : heap.entries.length ≤ objs.length :=
    (subperm_of_subset holds.nodup_entries fun entry found =>
      known entry (holds.mem_entries.mp found)).length_le
  rwa [entries, length_map, length_range] at fewer

/-- The entries are the same, and nothing else has a new index. -/
structure Rearranged (heap heap' : Heap α) (kept : Set α) : Prop where
  count : heap'.count = heap.count
  holds : heap'.Holds kept
  outside : ∀ entry, entry ∉ kept → heap'.index entry = heap.index entry

theorem Holds.rearranged (holds : heap.Holds kept) : Rearranged heap heap kept :=
  ⟨rfl, holds, fun _ _ => rfl⟩

theorem Rearranged.trans {heap' heap'' : Heap α} (first : Rearranged heap heap' kept)
    (second : Rearranged heap' heap'' kept) : Rearranged heap heap'' kept where
  count := second.count.trans first.count
  holds := second.holds
  outside entry free := (second.outside entry free).trans (first.outside entry free)

theorem minSon_cases (key : α → Nat) (heap : Heap α) (pos : Nat) :
    minSon key heap pos = pos * 2 ∨ pos * 2 ≠ heap.count ∧ minSon key heap pos = pos * 2 + 1 := by
  unfold minSon
  split_ifs with last less
  · exact .inl rfl
  · exact .inr ⟨last, rfl⟩
  · exact .inl rfl

variable [DecidableEq α]

section

variable (heap : Heap α)

@[simp] theorem swap_count (p q : Nat) : (heap.swap p q).count = heap.count := rfl

theorem swap_slot_left (different : p ≠ q) : (heap.swap p q).slot p = heap.slot q := by
  simp only [swap, update_of_ne different, update_self]

theorem swap_slot_right (p q : Nat) : (heap.swap p q).slot q = heap.slot p := by
  simp only [swap, update_self]

theorem swap_slot_other {r : Nat} (left : r ≠ p) (right : r ≠ q) :
    (heap.swap p q).slot r = heap.slot r := by
  simp only [swap, update_of_ne right, update_of_ne left]

end

section

variable (holds : heap.Holds kept)

include holds

omit [DecidableEq α] in
theorem Holds.index_eq_iff {entry : α} (member : entry ∈ kept) (p0 : 0 < p) (pc : p ≤ heap.count) :
    entry = heap.slot p ↔ heap.index entry = p := by
  constructor
  · rintro rfl
    exact holds.index_slot p p0 pc
  · rintro rfl
    exact (holds.placed entry member).2.2.symm

/-- The places of two entries are exchanged, and what the entries record. -/
theorem Holds.swap (p0 : 0 < p) (pc : p ≤ heap.count) (q0 : 0 < q) (qc : q ≤ heap.count) :
    Rearranged heap (heap.swap p q) kept := by
  have slot (r : Nat) : (heap.swap p q).slot r = heap.slot (Equiv.swap p q r) := by
    simp only [Heap.swap, update_apply, swap_apply_def]
    grind
  have index {entry : α} (member : entry ∈ kept) :
      (heap.swap p q).index entry = Equiv.swap p q (heap.index entry) := by
    simp only [Heap.swap, update_apply, swap_apply_def,
      holds.index_eq_iff member p0 pc, holds.index_eq_iff member q0 qc]
  have inside {r : Nat} (r0 : 0 < r) (rc : r ≤ heap.count) :
      0 < Equiv.swap p q r ∧ Equiv.swap p q r ≤ heap.count := by
    rw [swap_apply_def]
    split_ifs <;> exact ⟨by assumption, by assumption⟩
  refine ⟨rfl, ⟨fun r r0 rc => ?_, fun r r0 rc => ?_, fun entry member => ?_⟩,
    fun entry free => ?_⟩
  · obtain ⟨positive, bounded⟩ := inside r0 rc
    rw [slot, index (holds.member _ positive bounded), holds.index_slot _ positive bounded,
      swap_apply_self]
  · rw [slot]
    exact holds.member _ (inside r0 rc).1 (inside r0 rc).2
  · obtain ⟨positive, bounded, there⟩ := holds.placed entry member
    rw [index member, slot, swap_apply_self]
    exact ⟨(inside positive bounded).1, (inside positive bounded).2, there⟩
  · have other {r : Nat} (r0 : 0 < r) (rc : r ≤ heap.count) : entry ≠ heap.slot r :=
      fun same => free (same ▸ holds.member r r0 rc)
    simp only [Heap.swap, update_of_ne (other p0 pc), update_of_ne (other q0 qc)]

/-- What an entry outside of a heap records does not matter. -/
theorem Holds.setIndex {entry : α} (free : entry ∉ kept) (value : Nat) :
    Holds { heap with index := update heap.index entry value } kept := by
  have others {other : α} (member : other ∈ kept) :
      update heap.index entry value other = heap.index other := by
    refine update_of_ne ?_ ..
    rintro rfl
    exact free member
  refine ⟨fun p p0 bounded => ?_, holds.member, fun other member => ?_⟩
  · exact (others (holds.member p p0 bounded)).trans (holds.index_slot p p0 bounded)
  · dsimp only
    rw [others member]
    exact holds.placed other member

/-- Sifting up only exchanges entries. -/
theorem Holds.up (pc : pos ≤ heap.count) : Rearranged heap (up key fuel pos heap) kept := by
  induction fuel generalizing heap pos with
  | zero => exact holds.rearranged
  | succ fuel ih =>
    rw [Heap.up]
    split_ifs with root less
    · exact holds.rearranged
    · have swapped := holds.swap (q := pos / 2) (by omega) pc (by omega) (by omega)
      exact swapped.trans (ih swapped.holds (by rw [swapped.count]; omega))
    · exact holds.rearranged

/-- Sifting down only exchanges entries. -/
theorem Holds.down (p0 : 0 < pos) : Rearranged heap (down key fuel pos heap) kept := by
  induction fuel generalizing heap pos with
  | zero => exact holds.rearranged
  | succ fuel ih =>
    rw [Heap.down]
    dsimp only
    split_ifs with leaf less
    · exact holds.rearranged
    · have son := minSon_cases key heap pos
      have swapped := holds.swap (q := minSon key heap pos) p0 (by omega) (by omega) (by omega)
      exact swapped.trans (ih swapped.holds (by omega))
    · exact holds.rearranged

end

end Members

section Order

/-- No entry is less than its parent. -/
def Ordered (key : α → Nat) (heap : Heap α) : Prop :=
  ∀ p, 1 < p → p ≤ heap.count → key (heap.slot (p / 2)) ≤ key (heap.slot p)

theorem Ordered.congr {key' : α → Nat} (ordered : heap.Ordered key) (valid : heap.Valid)
    (same : ∀ entry ∈ heap.members, key' entry = key entry) : heap.Ordered key' := by
  intro p p1 bounded
  rw [same _ (valid.member p (by omega) bounded),
    same _ (valid.member (p / 2) (by omega) (by omega))]
  exact ordered p p1 bounded

theorem Ordered.root_le (ordered : heap.Ordered key) (p0 : 0 < p) (pc : p ≤ heap.count) :
    key (heap.slot 1) ≤ key (heap.slot p) := by
  induction p using Nat.strongRecOn with
  | ind p ih =>
    rcases eq_or_ne p 1 with rfl | notRoot
    · exact le_rfl
    · exact (ih (p / 2) (by omega) (by omega) (by omega)).trans (ordered p (by omega) pc)

/-- The entry at a place may be less than its parent; its children are not less than
either. -/
structure OrderedBelow (key : α → Nat) (heap : Heap α) (pos : Nat) : Prop where
  others : ∀ p, 1 < p → p ≤ heap.count → p ≠ pos → key (heap.slot (p / 2)) ≤ key (heap.slot p)
  grand : ∀ p, 1 < p → p ≤ heap.count → p / 2 = pos → 1 < pos →
    key (heap.slot (pos / 2)) ≤ key (heap.slot p)

/-- The entry at a place may be greater than its children; they are not less than its
parent. -/
structure OrderedAbove (key : α → Nat) (heap : Heap α) (pos : Nat) : Prop where
  others : ∀ p, 1 < p → p ≤ heap.count → p / 2 ≠ pos →
    key (heap.slot (p / 2)) ≤ key (heap.slot p)
  grand : ∀ p, 1 < p → p ≤ heap.count → p / 2 = pos → 1 < pos →
    key (heap.slot (pos / 2)) ≤ key (heap.slot p)

variable [DecidableEq α]

/-- An entry that goes up leaves order behind, but for its new place. -/
theorem OrderedBelow.swap (below : heap.OrderedBelow key pos) (pc : pos ≤ heap.count)
    (inner : 1 < pos) (less : key (heap.slot pos) < key (heap.slot (pos / 2))) :
    (heap.swap pos (pos / 2)).OrderedBelow key (pos / 2) := by
  have atPos := heap.swap_slot_left (p := pos) (q := pos / 2) (by omega)
  have atParent := heap.swap_slot_right pos (pos / 2)
  constructor
  · intro p p1 (bounded : p ≤ heap.count) other
    rcases eq_or_ne p pos with rfl | notPos
    · rw [atPos, atParent]
      exact less.le
    · rw [heap.swap_slot_other notPos other]
      have inOrder := below.others p p1 bounded notPos
      by_cases child : p / 2 = pos
      · rw [child, atPos]
        exact below.grand p p1 bounded child inner
      · by_cases sibling : p / 2 = pos / 2
        · rw [sibling, atParent]
          exact less.le.trans (sibling ▸ inOrder)
        · rwa [heap.swap_slot_other child sibling]
  · intro p p1 (bounded : p ≤ heap.count) child inner'
    rw [heap.swap_slot_other (r := pos / 2 / 2) (by omega) (by omega)]
    have parent := below.others (pos / 2) inner' (by omega) (by omega)
    rcases eq_or_ne p pos with rfl | notPos
    · rwa [atPos]
    · rw [heap.swap_slot_other notPos (by omega)]
      exact parent.trans (child ▸ below.others p p1 bounded notPos)

omit [DecidableEq α] in
/-- The order is restored when the entry has stopped. -/
theorem OrderedBelow.finish (below : heap.OrderedBelow key pos)
    (stopped : 1 < pos → key (heap.slot (pos / 2)) ≤ key (heap.slot pos)) :
    heap.Ordered key := by
  intro p p1 bounded
  rcases eq_or_ne p pos with rfl | notPos
  · exact stopped p1
  · exact below.others p p1 bounded notPos

/-- With enough fuel, sifting up puts the whole heap in order. -/
theorem OrderedBelow.up (below : heap.OrderedBelow key pos) (pc : pos ≤ heap.count)
    (enough : pos ≤ fuel) : (up key fuel pos heap).Ordered key := by
  induction fuel generalizing heap pos with
  | zero => exact below.finish fun inner => by omega
  | succ fuel ih =>
    rw [Heap.up]
    split_ifs with root less
    · exact below.finish fun inner => by omega
    · exact ih (below.swap pc (by omega) less) (by rw [swap_count]; omega) (by omega)
    · exact below.finish fun _ => not_lt.mp less

omit [DecidableEq α] in
/-- The smaller child is at most the other one. -/
theorem minSon_le (key : α → Nat) (heap : Heap α) (bounded : p ≤ heap.count)
    (child : p / 2 = pos) : key (heap.slot (minSon key heap pos)) ≤ key (heap.slot p) := by
  have which : p = pos * 2 ∨ p = pos * 2 + 1 := by omega
  unfold minSon
  split_ifs with last less
  · have first : p = pos * 2 := by omega
    rw [first]
  · rcases which with rfl | rfl
    · exact less.le
    · exact le_rfl
  · rcases which with rfl | rfl
    · exact le_rfl
    · exact not_lt.mp less

/-- An entry that goes down leaves order behind, but for its new place. -/
theorem OrderedAbove.swap (above : heap.OrderedAbove key pos) (p0 : 0 < pos)
    (parent : pos * 2 ≤ heap.count)
    (less : key (heap.slot (minSon key heap pos)) < key (heap.slot pos)) :
    (heap.swap pos (minSon key heap pos)).OrderedAbove key (minSon key heap pos) := by
  have cases := minSon_cases key heap pos
  have least (p : Nat) (bounded : p ≤ heap.count) (child : p / 2 = pos) :=
    minSon_le key heap bounded child
  generalize minSon key heap pos = son at *
  have ofSon : son / 2 = pos := by omega
  have atPos := heap.swap_slot_left (p := pos) (q := son) (by omega)
  have atSon := heap.swap_slot_right pos son
  constructor
  · intro p p1 (bounded : p ≤ heap.count) other
    rcases eq_or_ne p pos with rfl | notPos
    · rw [atPos, heap.swap_slot_other (r := p / 2) (by omega) (by omega)]
      exact above.grand son (by omega) (by omega) ofSon p1
    · rcases eq_or_ne p son with rfl | notSon
      · rw [ofSon, atPos, atSon]
        exact less.le
      · rw [heap.swap_slot_other notPos notSon]
        by_cases sibling : p / 2 = pos
        · rw [sibling, atPos]
          exact least p bounded sibling
        · rw [heap.swap_slot_other sibling other]
          exact above.others p p1 bounded sibling
  · intro p p1 (bounded : p ≤ heap.count) child _
    rw [ofSon, atPos, heap.swap_slot_other (r := p) (by omega) (by omega)]
    exact child ▸ above.others p p1 bounded (by omega)

omit [DecidableEq α] in
theorem OrderedAbove.finish (above : heap.OrderedAbove key pos)
    (stopped : ∀ p, 1 < p → p ≤ heap.count → p / 2 = pos →
      key (heap.slot pos) ≤ key (heap.slot p)) : heap.Ordered key := by
  intro p p1 bounded
  by_cases child : p / 2 = pos
  · rw [child]
    exact stopped p p1 bounded child
  · exact above.others p p1 bounded child

/-- With enough fuel, sifting down puts the whole heap in order. -/
theorem OrderedAbove.down (above : heap.OrderedAbove key pos) (p0 : 0 < pos)
    (enough : heap.count < pos + fuel) : (down key fuel pos heap).Ordered key := by
  induction fuel generalizing heap pos with
  | zero => exact above.finish fun p _ bounded child => by omega
  | succ fuel ih =>
    rw [Heap.down]
    dsimp only
    split_ifs with leaf less
    · exact above.finish fun p _ bounded child => by omega
    · have son := minSon_cases key heap pos
      exact ih (above.swap p0 (by omega) less) (by omega) (by rw [swap_count]; omega)
    · exact above.finish fun p _ bounded child =>
        (not_lt.mp less).trans (minSon_le key heap bounded child)

end Order

end Heap

end FStack
