import FStack.Std.Heap
import FStack.Std.Steps

/-!
# The minimum heap of the frame

`HeapList` keeps sleeping threads by their wake-up times and timers by their expiry. A push
puts an entry behind the last one and moves it up. A deletion puts the last entry into the
place that becomes free and moves it down, never up: if it is less than the parent of that
place, the order is lost there.

What a list has does not depend on the order: after every run it has what was pushed and not yet
popped or deleted.
-/

namespace FStack.Micro

open Function Heap List

/-- `HeapList`. -/
structure HeapList (α : Type) where
  max : Nat
  heap : Heap α

namespace HeapList

variable {α : Type}

/-- `HeapList(max)`: an empty list; no entry records a place. -/
def new (max : Int) (slot : Nat → α) : HeapList α where
  max := if max > 0 then max.toNat else 100000
  heap := ⟨0, slot, fun _ => 0⟩

def heapResize (list : HeapList α) (size : Nat) : HeapList α :=
  if list.max ≥ size then list else { list with max := size }

def heapTop (list : HeapList α) : Option α :=
  if list.heap.count > 0 then some (list.heap.slot 1) else none

variable [DecidableEq α]

/-- An entry is put behind the last one. -/
def append (heap : Heap α) (item : α) : Heap α where
  count := heap.count + 1
  slot := update heap.slot (heap.count + 1) item
  index := update heap.index item (heap.count + 1)

def heapPush (key : α → Nat) (list : HeapList α) (item : α) : HeapList α × Int :=
  if list.heap.count ≥ list.max then (list, -1)
  else if list.heap.index item ≠ 0 then (list, -2)
  else
    let heap := append list.heap item
    ({ list with heap := up key heap.count heap.count heap }, 0)

/-- The last entry is put into a place. -/
def fill (heap : Heap α) (pos : Nat) : Heap α where
  count := heap.count - 1
  slot := update heap.slot pos (heap.slot heap.count)
  index := update heap.index (heap.slot heap.count) pos

def heapDelete (key : α → Nat) (list : HeapList α) (item : α) : HeapList α × Int :=
  if list.heap.count = 0 then (list, -1)
  else
    let pos := list.heap.index item
    if pos > list.heap.count ∨ pos ≤ 0 then (list, -2)
    else
      let del := list.heap.slot pos
      let heap := fill list.heap pos
      let heap := down key heap.count pos heap
      ({ list with heap := { heap with index := update heap.index del 0 } }, 0)

section Members

variable {key : α → Nat} {list : HeapList α} {item : α}

omit [DecidableEq α] in
theorem new_valid (max : Int) (slot : Nat → α) : (new max slot).heap.Valid where
  index_slot _ p0 bounded := absurd (p0.trans_le bounded) (Nat.lt_irrefl 0)
  member _ p0 bounded := absurd (p0.trans_le bounded) (Nat.lt_irrefl 0)
  placed _ member := absurd rfl member

/-- Writing behind the last entry adds the item. -/
theorem append_holds (valid : list.heap.Valid) (free : item ∉ list.heap.members) :
    (append list.heap item).Holds (insert item list.heap.members) := by
  have others {entry : α} (member : entry ∈ list.heap.members) : entry ≠ item :=
    fun same => free (same ▸ member)
  refine ⟨fun p p0 bounded => ?_, fun p p0 bounded => ?_, fun entry member => ?_⟩
  · rcases eq_or_ne p (list.heap.count + 1) with rfl | before
    · simp only [append, update_self]
    · have bounded : p ≤ list.heap.count + 1 := bounded
      simp only [append, update_of_ne before]
      rw [update_of_ne (others (valid.member p p0 (by omega)))]
      exact valid.index_slot p p0 (by omega)
  · rcases eq_or_ne p (list.heap.count + 1) with rfl | before
    · simp only [append, update_self]
      exact Set.mem_insert ..
    · have bounded : p ≤ list.heap.count + 1 := bounded
      simp only [append, update_of_ne before]
      exact Set.mem_insert_of_mem _ (valid.member p p0 (by omega))
  · rcases Set.mem_insert_iff.mp member with rfl | member
    · simp only [append, update_self]
      exact ⟨Nat.succ_pos _, le_rfl, trivial⟩
    · obtain ⟨positive, bounded, there⟩ := valid.placed entry member
      simp only [append, update_of_ne (others member)]
      refine ⟨positive, by omega, ?_⟩
      rwa [update_of_ne (by omega)]

/-- What a push leaves. -/
structure Pushed (list list' : HeapList α) (item : α) : Prop where
  max : list'.max = list.max
  valid : list'.heap.Valid
  members : list'.heap.members = insert item list.heap.members
  count : list'.heap.count = list.heap.count + 1

/-- A push that has room succeeds and adds the item. -/
theorem heapPush_spec (valid : list.heap.Valid) (free : item ∉ list.heap.members)
    (room : list.heap.count < list.max) :
    (heapPush key list item).2 = 0 ∧ Pushed list (heapPush key list item).1 item := by
  have moved : Heap.Rearranged (append list.heap item)
      (up key (list.heap.count + 1) (list.heap.count + 1) (append list.heap item))
      (insert item list.heap.members) := (append_holds valid free).up le_rfl
  have clear : Heap.Clear (up key (list.heap.count + 1) (list.heap.count + 1)
      (append list.heap item)) (insert item list.heap.members) := by
    intro entry outside
    rw [moved.outside entry outside]
    rw [Set.mem_insert_iff, not_or] at outside
    simp only [append, update_of_ne outside.1]
    exact not_not.mp outside.2
  have unplaced : ¬ list.heap.index item ≠ 0 := free
  unfold heapPush
  rw [if_neg (by omega), if_neg unplaced]
  exact ⟨rfl, rfl, moved.holds.valid clear, moved.holds.members_eq clear, moved.count⟩

theorem heapPush_refused (key : α → Nat)
    (refused : list.max ≤ list.heap.count ∨ item ∈ list.heap.members) :
    (heapPush key list item).1 = list ∧ (heapPush key list item).2 < 0 := by
  unfold heapPush
  split_ifs with full queued
  · exact ⟨rfl, by omega⟩
  · exact ⟨rfl, by omega⟩
  · exact absurd refused (not_or.mpr ⟨full, queued⟩)

/-- Moving the last entry into the gap takes the item out. -/
theorem fill_holds (valid : list.heap.Valid) (member : item ∈ list.heap.members) :
    (fill list.heap (list.heap.index item)).Holds (list.heap.members \ {item}) := by
  obtain ⟨positive, bounded, there⟩ := valid.placed item member
  -- the last entry is another one unless the last place becomes free
  have last : list.heap.slot list.heap.count = item → list.heap.index item = list.heap.count :=
    fun same => by rw [← same, valid.index_slot _ (by omega) le_rfl]
  refine ⟨fun p p0 (inside : p ≤ list.heap.count - 1) => ?_,
    fun p p0 (inside : p ≤ list.heap.count - 1) => ?_, fun entry ⟨member', other⟩ => ?_⟩
  · rcases eq_or_ne p (list.heap.index item) with rfl | elsewhere
    · simp only [fill, update_self]
    · simp only [fill, update_of_ne elsewhere]
      rw [update_of_ne, valid.index_slot p p0 (by omega)]
      intro same
      have := valid.slot_injective p0 (by omega) (by omega) le_rfl same
      omega
  · rcases eq_or_ne p (list.heap.index item) with rfl | elsewhere
    · simp only [fill, update_self]
      refine ⟨valid.member _ (by omega) le_rfl, fun same => ?_⟩
      have := last same
      omega
    · simp only [fill, update_of_ne elsewhere]
      refine ⟨valid.member p p0 (by omega), fun same => elsewhere ?_⟩
      rw [← same, valid.index_slot p p0 (by omega)]
  · obtain ⟨positive', bounded', there'⟩ := valid.placed entry member'
    rcases eq_or_ne entry (list.heap.slot list.heap.count) with rfl | notLast
    · have notItem : list.heap.index item ≠ list.heap.count := fun same =>
        other (by rw [← same]; exact there)
      simp only [fill, update_self]
      exact ⟨positive, by omega, trivial⟩
    · have before : list.heap.index entry ≠ list.heap.count := fun same =>
        notLast (by rw [← same, there'])
      have apart : list.heap.index entry ≠ list.heap.index item := fun same =>
        other (by rw [← there', same]; exact there)
      simp only [fill, update_of_ne notLast]
      exact ⟨positive', by omega, by rwa [update_of_ne apart]⟩

/-- What a deletion leaves. -/
structure Deleted (list list' : HeapList α) (item : α) : Prop where
  max : list'.max = list.max
  valid : list'.heap.Valid
  members : list'.heap.members = list.heap.members \ {item}
  count : list'.heap.count + 1 = list.heap.count

/-- Deleting a member succeeds and takes it out. -/
theorem heapDelete_spec (valid : list.heap.Valid) (member : item ∈ list.heap.members) :
    (heapDelete key list item).2 = 0 ∧ Deleted list (heapDelete key list item).1 item := by
  obtain ⟨positive, bounded, there⟩ := valid.placed item member
  have moved : Heap.Rearranged (fill list.heap (list.heap.index item))
      (down key (fill list.heap (list.heap.index item)).count (list.heap.index item)
        (fill list.heap (list.heap.index item)))
      (list.heap.members \ {item}) := (fill_holds valid member).down positive
  have gone : item ∉ list.heap.members \ {item} := fun there => there.2 rfl
  unfold heapDelete
  rw [if_neg (by omega)]
  dsimp only
  rw [if_neg (by omega), there]
  generalize down key (fill list.heap (list.heap.index item)).count
    (list.heap.index item) (fill list.heap (list.heap.index item)) = heap at moved ⊢
  have holds := moved.holds.setIndex gone 0
  have clear : Heap.Clear { heap with index := update heap.index item 0 }
      (list.heap.members \ {item}) := by
    intro entry outside
    dsimp only
    rcases eq_or_ne entry item with rfl | other
    · rw [update_self]
    · have free : entry ∉ list.heap.members := fun member => outside ⟨member, other⟩
      have notLast : entry ≠ list.heap.slot list.heap.count := fun same =>
        free (same ▸ valid.member _ (by omega) le_rfl)
      rw [update_of_ne other, moved.outside entry outside]
      simp only [fill, update_of_ne notLast]
      exact not_not.mp free
  refine ⟨rfl, rfl, holds.valid clear, holds.members_eq clear, ?_⟩
  have same : heap.count = list.heap.count - 1 := moved.count
  dsimp only
  omega

/-- Who is not in the heap cannot be deleted. -/
theorem heapDelete_free (key : α → Nat) (free : item ∉ list.heap.members) :
    (heapDelete key list item).1 = list ∧ (heapDelete key list item).2 < 0 := by
  have none : list.heap.index item = 0 := not_not.mp free
  unfold heapDelete
  split_ifs with empty
  · exact ⟨rfl, by omega⟩
  · dsimp only
    rw [none, if_pos (.inr le_rfl)]
    exact ⟨rfl, by omega⟩

end Members

section Order

variable {key : α → Nat} {list : HeapList α} {item : α}

/-- The new entry is the only one that may be out of order. -/
theorem append_orderedBelow (ordered : list.heap.Ordered key)
    (item : α) : (append list.heap item).OrderedBelow key (list.heap.count + 1) := by
  have before {p : Nat} (inside : p ≤ list.heap.count) :
      (append list.heap item).slot p = list.heap.slot p :=
    update_of_ne (by omega) ..
  constructor
  · intro p p1 (bounded : p ≤ list.heap.count + 1) other
    rw [before (by omega), before (by omega)]
    exact ordered p p1 (by omega)
  · intro p p1 (bounded : p ≤ list.heap.count + 1) child
    omega

theorem heapPush_ordered (ordered : list.heap.Ordered key) :
    (heapPush key list item).1.heap.Ordered key := by
  unfold heapPush
  split_ifs
  · exact ordered
  · exact ordered
  · exact (append_orderedBelow ordered item).up le_rfl le_rfl

/-- The last entry is not less than the parent of the place of an entry. -/
def Settles (key : α → Nat) (list : HeapList α) (item : α) : Prop :=
  1 < list.heap.index item →
    key (list.heap.slot (list.heap.index item / 2)) ≤ key (list.heap.slot list.heap.count)

instance (key : α → Nat) (list : HeapList α) (item : α) : Decidable (list.Settles key item) :=
  inferInstanceAs (Decidable (_ → _))

/-- The entry moved into the gap is the only one that may be out of order. -/
theorem fill_orderedAbove (ordered : list.heap.Ordered key) (settles : list.Settles key item) :
    (fill list.heap (list.heap.index item)).OrderedAbove key (list.heap.index item) := by
  have elsewhere {p : Nat} (other : p ≠ list.heap.index item) :
      (fill list.heap (list.heap.index item)).slot p = list.heap.slot p :=
    update_of_ne other ..
  constructor
  · intro p p1 (inside : p ≤ list.heap.count - 1) other
    rw [elsewhere other]
    rcases eq_or_ne p (list.heap.index item) with rfl | notHere
    · simp only [fill, update_self]
      exact settles p1
    · rw [elsewhere notHere]
      exact ordered p p1 (by omega)
  · intro p p1 (inside : p ≤ list.heap.count - 1) child inner
    rw [elsewhere (by omega), elsewhere (by omega)]
    exact (ordered _ inner (by omega)).trans (child ▸ ordered p p1 (by omega))

/-- A deletion keeps the order if the last entry is not less than the parent of the place
that becomes free. -/
theorem heapDelete_ordered (valid : list.heap.Valid) (ordered : list.heap.Ordered key)
    (settles : item ∈ list.heap.members → list.Settles key item) :
    (heapDelete key list item).1.heap.Ordered key := by
  unfold heapDelete
  dsimp only
  split_ifs with empty outside
  · exact ordered
  · exact ordered
  · have member : item ∈ list.heap.members := fun none => outside (.inr none.le)
    have bounds := valid.placed item member
    exact (fill_orderedAbove ordered (settles member)).down bounds.1 (by omega)

omit [DecidableEq α] in
/-- The top of an ordered list is due before every other entry. -/
theorem heapTop_le (valid : list.heap.Valid) (ordered : list.heap.Ordered key) {top entry : α}
    (first : list.heapTop = some top) (member : entry ∈ list.heap.members) :
    key top ≤ key entry := by
  obtain ⟨positive, bounded, there⟩ := valid.placed entry member
  unfold heapTop at first
  rw [if_pos (by omega), Option.some.injEq] at first
  rw [← first, ← there]
  exact ordered.root_le positive bounded

omit [DecidableEq α] in
theorem heapTop_none (valid : list.heap.Valid) (none : list.heapTop = none) (entry : α) :
    entry ∉ list.heap.members := by
  intro member
  obtain ⟨positive, bounded, -⟩ := valid.placed entry member
  unfold heapTop at none
  rw [if_pos (by omega)] at none
  cases none

omit [DecidableEq α] in
theorem heapTop_some (valid : list.heap.Valid) {top : α} (first : list.heapTop = some top) :
    list.heap.index top = 1 := by
  unfold heapTop at first
  split_ifs at first with nonempty
  cases first
  exact valid.index_slot 1 Nat.one_pos nonempty

end Order

section Runs

variable {key : α → Nat} {list : HeapList α} {queued : List α}

def heapPop (key : α → Nat) (list : HeapList α) : HeapList α × Option α :=
  if list.heap.count = 0 then (list, none)
  else
    let top := list.heap.slot 1
    let heap := fill list.heap 1
    let heap := down key heap.count 1 heap
    ({ list with heap := { heap with index := update heap.index top 0 } }, some top)

/-- `HeapPop` deletes the top. -/
theorem heapPop_eq (valid : list.heap.Valid) :
    list.heapPop key = (list.heapTop.elim list fun top => (list.heapDelete key top).1,
      list.heapTop) := by
  unfold heapPop heapTop
  rcases Nat.eq_zero_or_pos list.heap.count with empty | nonempty
  · rw [if_pos empty, if_neg (by omega)]
    rfl
  · have first : list.heap.index (list.heap.slot 1) = 1 := valid.index_slot 1 Nat.one_pos nonempty
    rw [if_neg nonempty.ne', if_pos nonempty, Option.elim_some, heapDelete, if_neg nonempty.ne']
    dsimp only
    rw [first, if_neg (by omega)]

/-- A call on a list; `HeapResize` may find no memory. -/
inductive Call (α : Type)
  | push (item : α)
  | pop
  | delete (item : α)
  | resize (size : Int) (found : Bool)

/-- A call that succeeds, with what it does to the entries that are queued. -/
def perform (key : α → Nat) (list : HeapList α) : Call α → HeapList α × Option (List α → List α)
  | .push item =>
    let pushed := list.heapPush key item
    (pushed.1, if pushed.2 = 0 then some (item :: ·) else none)
  | .pop =>
    let popped := list.heapPop key
    (popped.1, popped.2.map fun top queued => queued.erase top)
  | .delete item =>
    let deleted := list.heapDelete key item
    (deleted.1, if deleted.2 = 0 then some (·.erase item) else none)
  | .resize size found =>
    if list.max ≥ size ∨ found then (list.heapResize size.toNat, some id) else (list, none)

/-- A list after some calls, the keys at the last of them, and the entries that were pushed
and not yet popped or deleted. -/
structure Run (α : Type) where
  list : HeapList α
  key : α → Nat
  queued : List α

omit [DecidableEq α] in
def Run.new (max : Int) (slot : Nat → α) (key : α → Nat) : Run α := ⟨.new max slot, key, []⟩

/-- A call, with the keys at its time. -/
def Run.step (run : Run α) (input : (α → Nat) × Call α) : Run α where
  list := (run.list.perform input.1 input.2).1
  key := input.1
  queued := (run.list.perform input.1 input.2).2.getD id run.queued

/-- A valid list has the entries that are queued. -/
structure Has (list : HeapList α) (queued : List α) : Prop where
  valid : list.heap.Valid
  once : queued.Nodup
  members : ∀ entry, entry ∈ queued ↔ entry ∈ list.heap.members

/-- A call fails and changes nothing, or does what it reports. -/
def Performed (list : HeapList α) (queued : List α)
    (result : HeapList α × Option (List α → List α)) : Prop :=
  result = (list, none) ∨ ∃ effect, result.2 = some effect ∧ Has result.1 (effect queued)

section Step

variable (has : list.Has queued)

include has

/-- A push adds its item or is refused. -/
theorem Has.push (item : α) : Performed list queued (list.perform key (.push item)) := by
  by_cases refused : list.max ≤ list.heap.count ∨ item ∈ list.heap.members
  · obtain ⟨same, failed⟩ := heapPush_refused key refused
    exact .inl (Prod.ext same (if_neg failed.ne))
  · obtain ⟨room, free⟩ := not_or.mp refused
    obtain ⟨done, pushed⟩ : (list.heapPush key item).2 = 0 ∧ _ :=
      heapPush_spec has.valid free (not_le.mp room)
    refine .inr ⟨_, if_pos done, pushed.valid, nodup_cons.mpr ⟨fun there => ?_, has.once⟩,
      fun entry => ?_⟩
    · exact free ((has.members item).mp there)
    · rw [mem_cons, has.members]
      exact (Set.ext_iff.mp pushed.members entry).symm

theorem Has.erase {item : α} (member : item ∈ list.heap.members) :
    Has (list.heapDelete key item).1 (queued.erase item) := by
  have deleted : Deleted list (list.heapDelete key item).1 item :=
    (heapDelete_spec has.valid member).2
  refine ⟨deleted.valid, has.once.erase item, fun entry => ?_⟩
  rw [has.once.mem_erase_iff, deleted.members, has.members, and_comm]
  exact Iff.rfl

/-- Every call changes the queued entries as it says. -/
theorem Has.perform (key : α → Nat) (call : Call α) : Performed list queued (list.perform key call) := by
  cases call with
  | push item => exact has.push item
  | pop =>
    unfold HeapList.perform
    rw [heapPop_eq has.valid]
    cases top : list.heapTop with
    | none => exact .inl rfl
    | some item =>
      have first := heapTop_some has.valid top
      exact .inr ⟨_, rfl, has.erase fun free => by omega⟩
  | delete item =>
    by_cases member : item ∈ list.heap.members
    · exact .inr ⟨_, if_pos (heapDelete_spec has.valid member).1, has.erase member⟩
    · obtain ⟨same, failed⟩ := heapDelete_free key member
      exact .inl (Prod.ext same (if_neg failed.ne))
  | resize size found =>
    simp only [HeapList.perform, heapResize]
    split_ifs
    · exact .inr ⟨id, rfl, has⟩
    · exact .inr ⟨id, rfl, has.valid, has.once, has.members⟩
    · exact .inl rfl

end Step

theorem Has.step {run : Run α} (has : Has run.list run.queued) (input : (α → Nat) × Call α) :
    Has (run.step input).list (run.step input).queued := by
  unfold Run.step
  rcases has.perform input.1 input.2 with failed | ⟨effect, done, kept⟩
  · rw [failed]
    exact has
  · rw [done]
    exact kept

theorem has_run (max : Int) (slot : Nat → α) (key : α → Nat) (calls : List ((α → Nat) × Call α)) :
    Has (calls.foldl Run.step (.new max slot key)).list
      (calls.foldl Run.step (.new max slot key)).queued := by
  refine foldlRecOn calls Run.step (motive := fun run => Has run.list run.queued) ?_
    fun run has call _ => has.step call
  exact ⟨new_valid max slot, nodup_nil, fun entry => iff_of_false not_mem_nil fun there => there rfl⟩

/-- The entries know their places, and are those that are queued, each once. -/
structure Booked (run : Run α) : Prop where
  index_slot : ∀ p, 0 < p → p ≤ run.list.heap.count → run.list.heap.index (run.list.heap.slot p) = p
  index_free : ∀ entry, entry ∉ run.queued → run.list.heap.index entry = 0
  once : run.queued.Nodup
  entries : run.list.heap.entries.Perm run.queued
  failed : ∀ key call, (run.list.perform key call).2 = none → (run.list.perform key call).1 = run.list

/-- After every run the heap has what was pushed and not yet taken. -/
theorem booked_run (max : Int) (slot : Nat → α) (key : α → Nat)
    (calls : List ((α → Nat) × Call α)) : Booked (calls.foldl Run.step (.new max slot key)) := by
  have has := has_run max slot key calls
  refine ⟨has.valid.index_slot, fun entry free => ?_, has.once, ?_, fun key call failed => ?_⟩
  · exact not_not.mp fun placed => free ((has.members entry).mpr placed)
  · rw [perm_ext_iff_of_nodup has.valid.nodup_entries has.once]
    exact fun entry => has.valid.mem_entries.trans (has.members entry).symm
  · rcases has.perform key call with same | ⟨effect, done, -⟩
    · rw [same]
    · cases failed.symm.trans done

/-- The keys of the entries that are queued have not changed. -/
def Steady (run : Run α) (input : (α → Nat) × Call α) : Prop :=
  ∀ entry ∈ run.list.heap.members, input.1 entry = run.key entry

/-- What takes the place of an entry that is deleted is not less than the parent. -/
def Suits (run : Run α) (input : (α → Nat) × Call α) : Prop :=
  match input.2 with
  | .delete item => item ∈ run.list.heap.members → run.list.Settles input.1 item
  | _ => True

/-- No entry is less than its parent, so the top is a minimum. -/
structure MinFirst (run : Run α) : Prop where
  ordered : run.list.heap.Ordered run.key
  least : ∀ top, run.list.heapTop = some top → ∀ entry ∈ run.queued, run.key top ≤ run.key entry

/-- A call keeps the order, if a deleted entry's place suits the last one. -/
theorem perform_ordered (valid : list.heap.Valid) (ordered : list.heap.Ordered key) {call : Call α}
    (settles : ∀ item, call = .delete item → item ∈ list.heap.members → list.Settles key item) :
    (list.perform key call).1.heap.Ordered key := by
  cases call with
  | push item => exact heapPush_ordered ordered
  | pop =>
    unfold perform
    rw [heapPop_eq valid]
    cases top : list.heapTop with
    | none => exact ordered
    | some item =>
      have first := heapTop_some valid top
      exact heapDelete_ordered valid ordered fun _ inner => absurd inner (by omega)
  | delete item => exact heapDelete_ordered valid ordered (settles item rfl)
  | resize size found =>
    simp only [perform, heapResize]
    split_ifs <;> exact ordered

/-- Along runs whose deletions suit, every pop is of a minimum. -/
theorem minFirst_of_suits (max : Int) (slot : Nat → α) (key : α → Nat)
    {calls : List ((α → Nat) × Call α)}
    (along : Steps.Along Run.step (fun run input => Steady run input ∧ Suits run input)
      (.new max slot key) calls) : MinFirst (calls.foldl Run.step (.new max slot key)) := by
  obtain ⟨has, ordered⟩ := along.last
    (fun run => Has run.list run.queued ∧ run.list.heap.Ordered run.key)
    (fun run input ⟨has, ordered⟩ ⟨steady, suits⟩ => ⟨has.step input, by
      refine perform_ordered has.valid (ordered.congr has.valid steady) fun item call => ?_
      rwa [Suits, call] at suits⟩)
    ⟨has_run max slot key [], fun p p1 bounded => absurd (p1.trans_le bounded) (Nat.not_lt_zero _)⟩
  exact ⟨ordered, fun top first entry member =>
    heapTop_le has.valid ordered first ((has.members entry).mp member)⟩

/-- Entries that are their own keys. -/
def pushes (entries : List Nat) : List ((Nat → Nat) × Call Nat) :=
  entries.map fun entry => (id, .push entry)

/-- `3` takes the place of `2`. -/
theorem minFirst_innerDeleted :
    let calls := pushes [1, 10, 2, 11, 12, 3] ++ [(id, .delete 2)]
    MinFirst (calls.foldl Run.step (.new 8 id id)) := by
  have same {run : Run Nat} : ∀ entry ∈ run.list.heap.members, id entry = id entry := fun _ _ => rfl
  exact minFirst_of_suits 8 id id ⟨⟨same, trivial⟩, ⟨same, trivial⟩, ⟨same, trivial⟩,
    ⟨same, trivial⟩, ⟨same, trivial⟩, ⟨same, trivial⟩, ⟨same, fun _ _ => by decide⟩, trivial⟩

/-- `3` takes the place of `11`, whose parent is `10`. -/
theorem not_minFirst_deleted :
    let calls := pushes [1, 10, 2, 11, 12, 3] ++ [(id, .delete 11)]
    Steps.Along Run.step Steady (.new 8 id id) calls ∧
      ¬ MinFirst (calls.foldl Run.step (.new 8 id id)) := by
  have same {run : Run Nat} : ∀ entry ∈ run.list.heap.members, id entry = id entry := fun _ _ => rfl
  refine ⟨⟨same, same, same, same, same, same, same, trivial⟩, fun minFirst => ?_⟩
  exact absurd (minFirst.ordered 4 (by decide) (by decide)) (by decide)

end Runs

end HeapList

end FStack.Micro
