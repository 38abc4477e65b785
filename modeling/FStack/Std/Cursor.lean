import Mathlib.Data.List.Nodup

/-!
# Walking a list that changes

A walk goes through a linked list with a cursor. Between its steps elements may
be unlinked, with the cursor moved on if it stood there, and put in at the head,
with the cursor moved back to the head. `Walks` says that the elements the walk
is after are still ahead of the cursor.
-/

namespace FStack.Cursor

open List

variable {Item : Type} [DecidableEq Item]

/-- The elements from the cursor on. -/
def ahead (items : List Item) : Option Item → List Item
  | none => []
  | some item => items.dropWhile (· ≠ item)

/-- The element behind `item`. -/
def next (items : List Item) (item : Item) : Option Item :=
  (ahead items (some item)).tail.head?

/-- Where the cursor stands once `item` is unlinked. -/
def moveOff (items : List Item) (item : Item) (cursor : Option Item) : Option Item :=
  if cursor = some item then next items item else cursor

variable {before items : List Item} {item : Item} {after : List Item}

theorem ahead_split (first : item ∉ before) :
    ahead (before ++ item :: after) (some item) = item :: after := by
  induction before with
  | nil => simp [ahead]
  | cons other rest ih =>
    rw [mem_cons, not_or] at first
    simpa [ahead, Ne.symm first.1] using ih first.2

theorem next_split (first : item ∉ before) : next (before ++ item :: after) item = after.head? := by
  rw [next, ahead_split first, tail_cons]

/-- A cursor at the head of the rest has the rest ahead. -/
theorem ahead_head? {rest : List Item} (nodup : (before ++ rest).Nodup) :
    ahead (before ++ rest) rest.head? = rest := by
  cases rest with
  | nil => rfl
  | cons item rest =>
    refine ahead_split fun within => ?_
    exact (nodup_append.mp nodup).2.2 item within item mem_cons_self rfl

theorem ahead_subset (items : List Item) (cursor : Option Item) : ahead items cursor ⊆ items := by
  cases cursor with
  | none => exact nil_subset _
  | some item => exact (dropWhile_suffix _).subset

theorem ahead_next (nodup : items.Nodup) (member : item ∈ items) :
    ahead items (next items item) = (ahead items (some item)).tail := by
  obtain ⟨before, after, rfl, first⟩ := eq_append_cons_of_mem member
  rw [next_split first, ahead_split first]
  have shifted : before ++ item :: after = (before ++ [item]) ++ after := by simp
  rw [shifted] at nodup ⊢
  exact ahead_head? nodup

theorem length_next_lt (nodup : items.Nodup) (member : item ∈ items) :
    (ahead items (next items item)).length < (ahead items (some item)).length := by
  rw [ahead_next nodup member]
  obtain ⟨before, after, rfl, first⟩ := eq_append_cons_of_mem member
  rw [ahead_split first]
  exact Nat.lt_succ_self _

theorem mem_of_next {other : Item} (found : next items item = some other) : other ∈ items := by
  have within : other ∈ (ahead items (some item)).tail := mem_of_head? found
  exact ahead_subset items _ (mem_of_mem_tail within)

/-- What is ahead of the cursor is unlinked there too. -/
theorem ahead_erase (nodup : items.Nodup) (item : Item) {cursor : Option Item}
    (on : ∀ place, cursor = some place → place ∈ items) :
    ahead (items.erase item) (moveOff items item cursor) = (ahead items cursor).erase item := by
  cases cursor with
  | none => rfl
  | some place =>
    obtain ⟨before, after, rfl, first⟩ := eq_append_cons_of_mem (on place rfl)
    rcases eq_or_ne place item with rfl | elsewhere
    · have unlinked : (before ++ place :: after).erase place = before ++ after := by
        rw [erase_append_right _ first, erase_cons_head]
      rw [moveOff, if_pos rfl, next_split first, ahead_split first, erase_cons_head, unlinked]
      exact ahead_head? (unlinked ▸ nodup.erase place)
    · rw [moveOff, if_neg (by simpa using elsewhere), ahead_split first]
      by_cases early : item ∈ before
      · have notLate : item ∉ place :: after := fun late =>
          (nodup_append.mp nodup).2.2 item early item late rfl
        rw [erase_append_left _ early, erase_of_not_mem notLate]
        exact ahead_split fun within => first (mem_of_mem_erase within)
      · rw [erase_append_right _ early, erase_cons_tail (by simpa using elsewhere)]
        exact ahead_split first

/-- The walk stands on the list, and what it is after is ahead of it. -/
structure Walks (items : List Item) (cursor : Option Item) (After : Item → Prop) : Prop where
  on : ∀ place, cursor = some place → place ∈ items
  covers : ∀ item ∈ items, After item → item ∈ ahead items cursor

namespace Walks

variable {items : List Item} {cursor : Option Item} {item place : Item} {After : Item → Prop}

theorem head (nodup : items.Nodup) : Walks items items.head? After where
  on _ found := mem_of_head? found
  covers item member _ := by
    have all : ahead ([] ++ items) items.head? = [] ++ items := ahead_head? nodup
    rw [nil_append] at all
    rwa [all]

/-- A walk goes on from what it is not after. -/
theorem skip (walks : Walks items (some place) After) (nodup : items.Nodup) (not : ¬After place) :
    Walks items (next items place) After where
  on _ found := mem_of_next found
  covers item member after := by
    have within := walks.covers item member after
    obtain ⟨before, rest, rfl, first⟩ := eq_append_cons_of_mem (walks.on place rfl)
    rw [ahead_next nodup (walks.on place rfl)]
    rw [ahead_split first] at within ⊢
    rcases mem_cons.mp within with rfl | later
    · exact absurd after not
    · exact later

/-- Unlinking an element keeps the walk. -/
theorem erase (walks : Walks items cursor After) (nodup : items.Nodup) (item : Item) :
    Walks (items.erase item) (moveOff items item cursor) After where
  on place found := by
    unfold moveOff at found
    split_ifs at found with here
    · obtain ⟨before, after, rfl, first⟩ := eq_append_cons_of_mem (walks.on item here)
      rw [next_split first] at found
      rw [erase_append_right _ first, erase_cons_head]
      exact mem_append_right _ (mem_of_head? found)
    · exact (mem_erase_of_ne fun same => here (found.trans (congrArg some same))).mpr
        (walks.on place found)
  covers other member after := by
    have kept := (Nodup.mem_erase_iff nodup).mp member
    rw [ahead_erase nodup item walks.on]
    exact (mem_erase_of_ne kept.1).mpr (walks.covers other kept.2 after)

/-- Putting an element in at the head, with the cursor there, keeps everything ahead. -/
theorem push (nodup : (item :: items).Nodup) : Walks (item :: items) (some item) After :=
  head nodup

theorem done (walks : Walks items none After) : ∀ item ∈ items, ¬After item :=
  fun item member after => absurd (walks.covers item member after) not_mem_nil

theorem mono {After' : Item → Prop} (walks : Walks items cursor After)
    (fewer : ∀ item ∈ items, After' item → After item) : Walks items cursor After' where
  on := walks.on
  covers item member after := walks.covers item member (fewer item member after)

end Walks

end FStack.Cursor
