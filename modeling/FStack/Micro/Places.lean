import FStack.Micro.Frame
import FStack.Std.Custody

/-!
# Where the threads are

Every thread of the frame is active, on the run list, in the sleep heap, on the pend list,
on the free list, or the daemon, and its flags say where.

Between the list operations of one move there are threads that are on no list: the scheduler
has them in its hand. `InHand frame owner hand` says which ones, and that everything else is
in order. Each list operation takes a thread into the hand or puts it down. `owner` is a thread in
the hand that has sub threads running already and is going to pend for them.
-/

namespace FStack.Micro

open Function (update update_eq_self_iff update_of_ne update_self)
open List Maps

inductive Place
  | active
  | runList
  | sleepHeap
  | pendList
  | freeList
  | daemon
  deriving DecidableEq, Repr

/-- The place that a flag stands for. -/
def ThreadFlag.place : ThreadFlag → Option Place
  | .freeList => some .freeList
  | .sleepList => some .sleepHeap
  | .runList => some .runList
  | .pendList => some .pendList
  | .ioList | .subList => none

theorem ThreadFlag.place_injective {kind other : ThreadFlag} {place : Place}
    (stands : kind.place = some place) (same : other.place = some place) : other = kind := by
  cases kind <;> cases other <;> cases stands <;> first | rfl | cases same

theorem ThreadFlag.place_ne_active (kind : ThreadFlag) : kind.place ≠ some .active := by
  cases kind <;> rintro ⟨⟩

theorem ThreadFlag.place_ne_daemon (kind : ThreadFlag) : kind.place ≠ some .daemon := by
  cases kind <;> rintro ⟨⟩

namespace MtFrame

open Custody

variable {frame frame' : MtFrame} {location : Nat → Option Place} {owner owner' : Option Nat}
  {hand : List Nat} {kind : ThreadFlag} {place : Place} {t : Nat}

section Lists

/-- A thread is on the list that a flag is about. -/
def Listed (frame : MtFrame) : ThreadFlag → Nat → Prop
  | .freeList, t => t ∈ frame.freelist
  | .ioList, t => t ∈ frame.iolist
  | .sleepList, t => t ∈ frame.sleeplist.heap.members
  | .runList, t => t ∈ frame.runlist
  | .pendList, t => t ∈ frame.pendList
  | .subList, t => ∃ p, t ∈ frame.subList p

structure Tidy (frame : MtFrame) : Prop where
  freelist : frame.freelist.Nodup
  iolist : frame.iolist.Nodup
  runlist : frame.runlist.Nodup
  pendList : frame.pendList.Nodup
  sleeplist : frame.sleeplist.heap.Valid

/-- Families are the same. -/
structure Kin (frame frame' : MtFrame) : Prop where
  parent : frame'.parent = frame.parent
  subList : frame'.subList = frame.subList
  type : ∀ s p, frame.parent s = some p → frame.type s = .subThread → frame'.type s = .subThread

/-- What the list operations leave alone. -/
structure Same (frame frame' : MtFrame) : Prop extends Kin frame frame' where
  threads : frame'.threads = frame.threads
  next : frame'.next = frame.next
  daemon : frame'.daemon = frame.daemon
  totalNum : frame'.totalNum = frame.totalNum
  maxNum : frame'.maxNum = frame.maxNum
  room : frame'.sleeplist.max = frame.sleeplist.max

/-- All lists are the same. -/
structure Alike (frame frame' : MtFrame) : Prop extends Kin frame frame' where
  flag : frame'.flag = frame.flag
  freelist : frame'.freelist = frame.freelist
  iolist : frame'.iolist = frame.iolist
  runlist : frame'.runlist = frame.runlist
  pendList : frame'.pendList = frame.pendList
  sleeplist : frame'.sleeplist = frame.sleeplist
  failed : frame'.failed = frame.failed

theorem Alike.listed (alike : Alike frame frame') : frame'.Listed = frame.Listed := by
  funext kind t
  cases kind <;> simp only [Listed, alike.freelist, alike.iolist, alike.runlist, alike.pendList,
    alike.sleeplist, alike.subList]

theorem Alike.tidy (alike : Alike frame frame') (tidy : frame.Tidy) : frame'.Tidy where
  freelist := alike.freelist ▸ tidy.freelist
  iolist := alike.iolist ▸ tidy.iolist
  runlist := alike.runlist ▸ tidy.runlist
  pendList := alike.pendList ▸ tidy.pendList
  sleeplist := alike.sleeplist ▸ tidy.sleeplist

/-- A thread is put on the list of a flag. -/
structure Enlists (frame frame' : MtFrame) (kind : ThreadFlag) (t : Nat) : Prop where
  flag : frame'.flag = update frame.flag t (update (frame.flag t) kind true)
  listed : ∀ other u, frame'.Listed other u ↔ frame.Listed other u ∨ other = kind ∧ u = t
  tidy : frame'.Tidy
  failed : frame'.failed = (frame.failed || frame.flag t kind)
  same : Same frame frame'

/-- A thread is taken off the list of a flag. -/
structure Delists (frame frame' : MtFrame) (kind : ThreadFlag) (t : Nat) : Prop where
  flag : frame'.flag = update frame.flag t (update (frame.flag t) kind false)
  listed : ∀ other u, frame'.Listed other u ↔ frame.Listed other u ∧ ¬ (other = kind ∧ u = t)
  tidy : frame'.Tidy
  failed : frame'.failed = (frame.failed || !frame.flag t kind)
  same : Same frame frame'

/-- The sleep heap is left alone, with the wake-up times of the threads in it. -/
structure Calm (frame frame' : MtFrame) : Prop where
  sleeplist : frame'.sleeplist = frame.sleeplist
  wakeupTime : ∀ t ∈ frame.sleeplist.heap.members, frame'.wakeupTime t = frame.wakeupTime t

theorem Calm.refl (frame : MtFrame) : Calm frame frame := ⟨rfl, fun _ _ => rfl⟩

theorem Calm.trans {frame'' : MtFrame} (first : Calm frame frame') (second : Calm frame' frame'') :
    Calm frame frame'' where
  sleeplist := second.sleeplist.trans first.sleeplist
  wakeupTime t member :=
    (second.wakeupTime t (first.sleeplist ▸ member)).trans (first.wakeupTime t member)

theorem Calm.setWakeupTime (awake : t ∉ frame.sleeplist.heap.members) (time : Nat) :
    Calm frame (frame.setWakeupTime t time) where
  sleeplist := rfl
  wakeupTime u member := by
    refine update_of_ne ?_ ..
    rintro rfl
    exact awake member

variable {list : List Nat}

theorem nodup_concat (nodup : list.Nodup) (free : t ∉ list) : (list ++ [t]).Nodup :=
  nodup_append.mpr ⟨nodup, nodup_singleton t, fun u member v last => by
    rw [mem_singleton] at last
    rintro rfl
    exact free (last ▸ member)⟩

theorem mem_of_cons {u : Nat} (nodup : (t :: list).Nodup) : u ∈ list ↔ u ∈ t :: list ∧ u ≠ t := by
  rw [mem_cons]
  constructor
  · intro member
    exact ⟨.inr member, fun same => (nodup_cons.mp nodup).1 (same ▸ member)⟩
  · rintro ⟨same | member, different⟩
    · exact absurd same different
    · exact member

variable (tidy : frame.Tidy)

include tidy

theorem insertRunable_enlists (free : t ∉ frame.runlist) :
    Enlists frame (frame.insertRunable t) .runList t where
  flag := rfl
  listed other u := by cases other <;> simp [insertRunable, Listed, setFlag, setState, check]
  tidy := { tidy with runlist := nodup_concat tidy.runlist free }
  failed := by simp [insertRunable, setFlag, setState, check]
  same := ⟨⟨rfl, rfl, fun _ _ _ => id⟩, rfl, rfl, rfl, rfl, rfl, rfl⟩

theorem insertPend_enlists (free : t ∉ frame.pendList) :
    Enlists frame (frame.insertPend t) .pendList t where
  flag := rfl
  listed other u := by cases other <;> simp [insertPend, Listed, setFlag, setState, check]
  tidy := { tidy with pendList := nodup_concat tidy.pendList free }
  failed := by simp [insertPend, setFlag, setState, check]
  same := ⟨⟨rfl, rfl, fun _ _ _ => id⟩, rfl, rfl, rfl, rfl, rfl, rfl⟩

theorem enterIoList_enlists (free : t ∉ frame.iolist) :
    Enlists frame (frame.enterIoList t) .ioList t where
  flag := rfl
  listed other u := by cases other <;> simp [enterIoList, Listed, setFlag, check]
  tidy := { tidy with iolist := nodup_concat tidy.iolist free }
  failed := by simp [enterIoList, setFlag, check]
  same := ⟨⟨rfl, rfl, fun _ _ _ => id⟩, rfl, rfl, rfl, rfl, rfl, rfl⟩

/-- With room in the heap, the thread enters the sleep list. -/
theorem insertSleep_enlists (free : t ∉ frame.sleeplist.heap.members)
    (room : frame.sleeplist.heap.count < frame.sleeplist.max) :
    Enlists frame (frame.insertSleep t) .sleepList t := by
  have pushed : HeapList.Pushed frame.sleeplist
      (frame.sleeplist.heapPush frame.wakeupTime t).1 t :=
    (HeapList.heapPush_spec tidy.sleeplist free room).2
  refine ⟨rfl, fun other u => ?_, { tidy with sleeplist := pushed.valid }, ?_,
    ⟨⟨rfl, rfl, fun _ _ _ => id⟩, rfl, rfl, rfl, rfl, rfl, pushed.max⟩⟩
  · cases other <;> simp [insertSleep, Listed, setFlag, setState, check]
    rw [pushed.members, Set.mem_insert_iff, or_comm]
  · simp [insertSleep, setFlag, setState, check]

/-- The first of the run list is taken off. -/
theorem removeRunable_delists {rest : List Nat} (first : frame.runlist = t :: rest) :
    Delists frame (frame.removeRunable t) .runList t := by
  have nodup := first ▸ tidy.runlist
  refine ⟨rfl, fun other u => ?_, { tidy with runlist := ?_ }, ?_,
    ⟨⟨rfl, rfl, fun _ _ _ => id⟩, rfl, rfl, rfl, rfl, rfl, rfl⟩⟩
  · cases other <;> simp only [removeRunable, Listed, setFlag, check, first, reduceCtorEq,
      false_and, true_and, not_false_eq_true, and_true]
    exact mem_of_cons nodup
  · exact tidy.runlist.tail
  · simp [removeRunable, setFlag, check, first]

theorem removePend_delists : Delists frame (frame.removePend t) .pendList t where
  flag := rfl
  listed other u := by
    cases other <;> simp [removePend, Listed, setFlag, check, tidy.pendList.mem_erase_iff,
      and_comm]
  tidy := { tidy with pendList := tidy.pendList.erase t }
  failed := by simp [removePend, setFlag, check]
  same := ⟨⟨rfl, rfl, fun _ _ _ => id⟩, rfl, rfl, rfl, rfl, rfl, rfl⟩

theorem leaveIoList_delists : Delists frame (frame.leaveIoList t) .ioList t where
  flag := rfl
  listed other u := by
    cases other <;> simp [leaveIoList, Listed, setFlag, check, tidy.iolist.mem_erase_iff,
      and_comm]
  tidy := { tidy with iolist := tidy.iolist.erase t }
  failed := by simp [leaveIoList, setFlag, check]
  same := ⟨⟨rfl, rfl, fun _ _ _ => id⟩, rfl, rfl, rfl, rfl, rfl, rfl⟩

/-- A sleeping thread is taken off. -/
theorem removeSleep_delists (asleep : t ∈ frame.sleeplist.heap.members) :
    Delists frame (frame.removeSleep t) .sleepList t := by
  have deleted : HeapList.Deleted frame.sleeplist
      (frame.sleeplist.heapDelete frame.wakeupTime t).1 t :=
    (HeapList.heapDelete_spec tidy.sleeplist asleep).2
  refine ⟨rfl, fun other u => ?_, { tidy with sleeplist := deleted.valid }, ?_,
    ⟨⟨rfl, rfl, fun _ _ _ => id⟩, rfl, rfl, rfl, rfl, rfl, deleted.max⟩⟩
  · cases other <;> simp [removeSleep, Listed, setFlag, check]
    rw [deleted.members, Set.mem_sdiff, Set.mem_singleton_iff]
  · simp [removeSleep, setFlag, check]

end Lists

section Hand

/-- Parents and their sub threads know each other. A parent pends while it has sub threads,
but for the `owner`, which is about to. -/
structure Families (frame : MtFrame) (location : Nat → Option Place) (owner : Option Nat) :
    Prop where
  sub : ∀ s p, s ∈ frame.subList p ↔ frame.parent s = some p
  nodup : ∀ p, (frame.subList p).Nodup
  type : ∀ s p, frame.parent s = some p → frame.type s = .subThread
  waits : ∀ s p, frame.parent s = some p → location p = some .pendList ∨ owner = some p
  alive : ∀ s p, frame.parent s = some p →
    location s ≠ some .freeList ∧ location s ≠ none

/-- The threads there are, are located. -/
structure Populated (frame : MtFrame) (location : Nat → Option Place) : Prop where
  threads : ∀ t, t ∈ frame.threads ↔ location t ≠ none
  once : frame.threads.Nodup
  fresh : ∀ t, frame.next ≤ t → location t = none
  ruler : ∀ t, location t = some .daemon → t = frame.daemon

/-- Flags and lists agree with where the threads are; those in the `hand` are on no list. -/
structure Kept (frame : MtFrame) (location : Nat → Option Place) (owner : Option Nat)
    (hand : List Nat) : Prop where
  flags : ∀ kind t, frame.flag t kind = true ↔ frame.Listed kind t
  places : ∀ kind place, kind.place = some place → Fits (frame.Listed kind) location (some place)
  tidy : frame.Tidy
  populated : Populated frame location
  held : Fits (· ∈ hand) location (some .active)
  distinct : hand.Nodup
  families : Families frame location owner
  owned : ∀ p, owner = some p → p ∈ hand
  asserted : frame.failed = false

/-- Waiting for I/O is limited in time. -/
def Asleep (frame : MtFrame) : Prop := ∀ t, frame.Listed .ioList t → frame.Listed .sleepList t

/-- The primordial thread is not counted. -/
structure Counted (frame : MtFrame) : Prop where
  total : (frame.threads.length : Int) ≤ frame.totalNum + 1
  bounded : frame.totalNum < frame.sleeplist.max
  room : frame.maxNum < frame.sleeplist.max

structure InHand (frame : MtFrame) (owner : Option Nat) (hand : List Nat) : Prop where
  asleep : frame.Asleep
  counted : frame.Counted
  kept : ∃ location, Kept frame location owner hand ∧ location frame.daemon = some .daemon

variable {spot : Option Place}

/-- A thread that moves changes no other thread's place. -/
theorem Populated.relocate (populated : Populated frame location) (same : Same frame frame')
    (here : location t ≠ none) (there : spot ≠ none) (common : spot ≠ some .daemon) :
    Populated frame' (update location t spot) := by
  refine ⟨fun u => ?_, same.threads ▸ populated.once, fun u new => ?_, fun u ruling => ?_⟩
  · rw [same.threads, populated.threads]
    rcases eq_or_ne u t with rfl | elsewhere
    · rw [update_self]
      exact iff_of_true here there
    · rw [update_of_ne elsewhere]
  · have gone := populated.fresh u (same.next ▸ new)
    rw [update_of_ne, gone]
    rintro rfl
    exact here gone
  · rw [same.daemon]
    rcases eq_or_ne u t with rfl | elsewhere
    · rw [update_self] at ruling
      exact absurd ruling common
    · rw [update_of_ne elsewhere] at ruling
      exact populated.ruler u ruling

theorem Populated.same (populated : Populated frame location) (same : Same frame frame') :
    Populated frame' location where
  threads := same.threads ▸ populated.threads
  once := same.threads ▸ populated.once
  fresh := same.next ▸ populated.fresh
  ruler := same.daemon ▸ populated.ruler

theorem Families.kin (families : Families frame location owner) (kin : Kin frame frame') :
    Families frame' location owner where
  sub s p := by rw [kin.subList, kin.parent]; exact families.sub s p
  nodup p := by rw [kin.subList]; exact families.nodup p
  type s p child := by
    rw [kin.parent] at child
    exact kin.type s p child (families.type s p child)
  waits s p child := families.waits s p (kin.parent ▸ child)
  alive s p child := families.alive s p (kin.parent ▸ child)

/-- A thread that moves keeps the families if its children wait for it still. -/
theorem Families.relocate (families : Families frame location owner)
    (alive : frame.parent t = none ∨ spot ≠ some .freeList ∧ spot ≠ none)
    (waits : ∀ s p, frame.parent s = some p →
      update location t spot p = some .pendList ∨ owner' = some p) :
    Families frame (update location t spot) owner' where
  sub := families.sub
  nodup := families.nodup
  type := families.type
  waits := waits
  alive s p child := by
    rcases eq_or_ne s t with rfl | elsewhere
    · rw [update_self]
      refine alive.resolve_left fun orphan => ?_
      rw [orphan] at child
      cases child
    · rw [update_of_ne elsewhere]
      exact families.alive s p child

namespace Kept

theorem location_hand (kept : Kept frame location owner (t :: hand)) :
    location t = some .active :=
  (kept.held t).mp mem_cons_self

section

variable (kept : Kept frame location owner hand) (member : t ∈ hand)

include kept member

/-- What is in the hand is on none of the lists that have a place. -/
theorem not_listed (stands : kind.place = some place) : ¬ frame.Listed kind t := by
  intro listed
  have there := (kept.places kind place stands t).mp listed
  rw [(kept.held t).mp member] at there
  cases there
  exact kind.place_ne_active stands

theorem childless (stranger : owner ≠ some t) (s : Nat) : frame.parent s ≠ some t := by
  intro child
  rcases kept.families.waits s t child with pends | owns
  · rw [(kept.held t).mp member] at pends
    cases pends
  · exact stranger owns

end

section

variable (flags : ∀ kind t, frame.flag t kind = true ↔ frame.Listed kind t)

include flags

/-- The flags follow a thread onto a list. -/
theorem enlist_flags (flag : frame'.flag = update frame.flag t (update (frame.flag t) kind true))
    (listed : ∀ other u, frame'.Listed other u ↔ frame.Listed other u ∨ other = kind ∧ u = t)
    (other : ThreadFlag) (u : Nat) : frame'.flag u other = true ↔ frame'.Listed other u := by
  rw [listed, flag]
  rcases eq_or_ne u t with rfl | elsewhere
  · rw [update_self]
    rcases eq_or_ne other kind with rfl | otherwise
    · rw [update_self]
      exact iff_of_true rfl (.inr ⟨rfl, rfl⟩)
    · rw [update_of_ne otherwise, flags, or_iff_left fun both => otherwise both.1]
  · rw [update_of_ne elsewhere, flags, or_iff_left fun both => elsewhere both.2]

/-- Flags and lists change together. -/
theorem delist_flags (flag : frame'.flag = update frame.flag t (update (frame.flag t) kind false))
    (listed : ∀ other u, frame'.Listed other u ↔ frame.Listed other u ∧ ¬ (other = kind ∧ u = t))
    (other : ThreadFlag) (u : Nat) : frame'.flag u other = true ↔ frame'.Listed other u := by
  rw [listed, flag]
  rcases eq_or_ne u t with rfl | elsewhere
  · rw [update_self]
    rcases eq_or_ne other kind with rfl | otherwise
    · rw [update_self]
      exact iff_of_false Bool.false_ne_true fun both => both.2 ⟨rfl, rfl⟩
    · rw [update_of_ne otherwise, flags, and_iff_left fun both => otherwise both.1]
  · rw [update_of_ne elsewhere, flags, and_iff_left fun both => elsewhere both.2]

end

/-- A thread of the hand is put on the list of a place. -/
theorem enlist (kept : Kept frame location owner (t :: hand))
    (change : Enlists frame frame' kind t) (stands : kind.place = some place)
    (orphan : place = .freeList → frame.parent t = none)
    (owns : ∀ p, owner = some p → owner' = some p ∨ p = t ∧ place = .pendList)
    (owned : ∀ p, owner' = some p → p ∈ hand) :
    Kept frame' (update location t (some place)) owner' hand := by
  have here := kept.location_hand
  have notActive : some place ≠ some .active := fun same =>
    kind.place_ne_active (stands.trans same)
  have fit (other : ThreadFlag) (spot : Place) (at_ : other.place = some spot) :
      Fits (frame'.Listed other) (update location t (some place)) (some spot) := by
    rcases eq_or_ne other kind with rfl | different
    · obtain rfl : place = spot := Option.some.inj (stands.symm.trans at_)
      exact (kept.places other place stands).enter fun u => by
        rw [change.listed, eq_self, true_and]
    · have unchanged : frame'.Listed other = frame.Listed other := by
        funext u
        rw [change.listed, eq_iff_iff]
        exact or_iff_left fun both => different both.1
      rw [unchanged]
      refine (kept.places other spot at_).elsewhere ?_ fun same => ?_
      · rw [here]
        rintro ⟨⟩
        exact other.place_ne_active at_
      · cases same
        exact different (ThreadFlag.place_injective stands at_)
  refine ⟨enlist_flags kept.flags change.flag change.listed, fit, change.tidy,
    kept.populated.relocate change.same (by rw [here]; rintro ⟨⟩) (by rintro ⟨⟩) fun same =>
      kind.place_ne_daemon (stands.trans same),
    kept.held.leave (fun u => ?_) notActive, (nodup_cons.mp kept.distinct).2,
    (kept.families.relocate ?_ fun s p child => ?_).kin change.same.toKin, owned, ?_⟩
  · exact mem_of_cons kept.distinct
  · rcases eq_or_ne place .freeList with free | elsewhere
    · exact .inl (orphan free)
    · exact .inr ⟨fun same => elsewhere (Option.some.inj same), by rintro ⟨⟩⟩
  · rcases kept.families.waits s p child with pends | owning
    · left
      rw [update_of_ne, pends]
      rintro rfl
      rw [here] at pends
      cases pends
    · rcases owns p owning with still | ⟨rfl, rfl⟩
      · exact .inr still
      · exact .inl (update_self ..)
  · have off : frame.flag t kind = false :=
      Bool.eq_false_iff.mpr fun on =>
        kept.not_listed mem_cons_self stands ((kept.flags kind t).mp on)
    rw [change.failed, kept.asserted, off]
    rfl

variable (kept : Kept frame location owner hand)

include kept

/-- A thread that leaves a list is in hand. -/
theorem delist (change : Delists frame frame' kind t) (stands : kind.place = some place)
    (listed : frame.Listed kind t) (childless : place = .pendList → ∀ s, frame.parent s ≠ some t) :
    Kept frame' (update location t (some .active)) owner (t :: hand) := by
  have here := (kept.places kind place stands t).mp listed
  have outside : t ∉ hand := fun member => kept.not_listed member stands listed
  have fit (other : ThreadFlag) (spot : Place) (at_ : other.place = some spot) :
      Fits (frame'.Listed other) (update location t (some .active)) (some spot) := by
    have notActive : some Place.active ≠ some spot := fun same =>
      other.place_ne_active (at_.trans same.symm)
    rcases eq_or_ne other kind with rfl | different
    · exact (kept.places other spot at_).leave (fun u => by
        rw [change.listed, eq_self, true_and]) notActive
    · have unchanged : frame'.Listed other = frame.Listed other := by
        funext u
        rw [change.listed, eq_iff_iff]
        exact and_iff_left fun both => different both.1
      rw [unchanged]
      refine (kept.places other spot at_).elsewhere (fun same => ?_) notActive
      rw [here] at same
      cases same
      exact different (ThreadFlag.place_injective stands at_)
  refine ⟨delist_flags kept.flags change.flag change.listed, fit, change.tidy,
    kept.populated.relocate change.same (by rw [here]; rintro ⟨⟩) (by rintro ⟨⟩) (by rintro ⟨⟩),
    kept.held.enter fun u => by rw [mem_cons, or_comm],
    nodup_cons.mpr ⟨outside, kept.distinct⟩,
    (kept.families.relocate (.inr ⟨by rintro ⟨⟩, by rintro ⟨⟩⟩) fun s p child => ?_).kin
      change.same.toKin,
    fun p owning => mem_cons_of_mem _ (kept.owned p owning), ?_⟩
  · refine (kept.families.waits s p child).imp_left fun pends => ?_
    rw [update_of_ne, pends]
    rintro rfl
    rw [here] at pends
    exact childless (Option.some.inj pends) s child
  · rw [change.failed, kept.asserted, (kept.flags kind t).mpr listed]
    rfl

/-- A frame with the same lists and flags is kept with the same places. -/
theorem alike (alike : Alike frame frame') (populated : Populated frame' location) :
    Kept frame' location owner hand where
  flags kind t := by rw [alike.flag, alike.listed]; exact kept.flags kind t
  places kind place stands := by rw [alike.listed]; exact kept.places kind place stands
  tidy := alike.tidy kept.tidy
  populated := populated
  held := kept.held
  distinct := kept.distinct
  families := kept.families.kin alike.toKin
  owned := kept.owned
  asserted := alike.failed.trans kept.asserted

/-- A list changes that is not a place. -/
theorem aside (flags : ∀ kind t, frame'.flag t kind = true ↔ frame'.Listed kind t)
    (listed : ∀ kind place, kind.place = some place → frame'.Listed kind = frame.Listed kind)
    (tidy : frame'.Tidy) (same : Same frame frame') (asserted : frame'.failed = false) :
    Kept frame' location owner hand :=
  { kept with
    flags := flags
    places := fun kind place stands => listed kind place stands ▸ kept.places kind place stands
    tidy := tidy
    populated := kept.populated.same same
    families := kept.families.kin same.toKin
    asserted := asserted }

/-- The I/O list is beside the places. -/
theorem enterIoList (free : ¬ frame.Listed .ioList t) :
    Kept (frame.enterIoList t) location owner hand := by
  have change := enterIoList_enlists kept.tidy free
  refine kept.aside (enlist_flags kept.flags change.flag change.listed)
    (fun other place stands => ?_) change.tidy change.same ?_
  · funext u
    rw [change.listed, eq_iff_iff]
    refine or_iff_left ?_
    rintro ⟨rfl, -⟩
    cases stands
  · have off : frame.flag t .ioList = false :=
      Bool.eq_false_iff.mpr fun on => free ((kept.flags _ t).mp on)
    rw [change.failed, kept.asserted, off]
    rfl

/-- Leaving the I/O list changes no place. -/
theorem leaveIoList (listed : frame.Listed .ioList t) :
    Kept (frame.leaveIoList t) location owner hand := by
  have change : Delists frame (frame.leaveIoList t) .ioList t := leaveIoList_delists kept.tidy
  refine kept.aside (delist_flags kept.flags change.flag change.listed)
    (fun other place stands => ?_) change.tidy change.same ?_
  · funext u
    rw [change.listed, eq_iff_iff]
    refine and_iff_left ?_
    rintro ⟨rfl, -⟩
    cases stands
  · rw [change.failed, kept.asserted, (kept.flags _ t).mpr listed]
    rfl

/-- A thread on no list comes into being, or ceases to be. -/
theorem census (alike : Alike frame frame') {spot : Option Place} {hand' : List Nat}
    (populated : Populated frame' (update location t spot))
    (before : ∀ kind : ThreadFlag, ∀ place, kind.place = some place → location t ≠ some place)
    (after : ∀ kind : ThreadFlag, ∀ place, kind.place = some place → spot ≠ some place)
    (orphan : frame.parent t = none) (childless : ∀ s, frame.parent s ≠ some t)
    (held : Fits (· ∈ hand') (update location t spot) (some .active)) (distinct : hand'.Nodup)
    (owned : ∀ p, owner = some p → p ∈ hand') :
    Kept frame' (update location t spot) owner hand' where
  flags kind t := by rw [alike.flag, alike.listed]; exact kept.flags kind t
  places kind place stands := by
    rw [alike.listed]
    exact (kept.places kind place stands).elsewhere (before kind place stands)
      (after kind place stands)
  tidy := alike.tidy kept.tidy
  populated := populated
  held := held
  distinct := distinct
  families := by
    refine (kept.families.relocate (.inl orphan) fun s p child => ?_).kin alike.toKin
    have other : p ≠ t := by
      rintro rfl
      exact childless s child
    rw [update_of_ne other]
    exact kept.families.waits s p child
  owned := owned
  asserted := alike.failed.trans kept.asserted

end Kept

/-- The fields of a thread are those of a new one. -/
structure Blank (frame : MtFrame) (t : Nat) : Prop where
  flag : ∀ kind, frame.flag t kind = false
  parent : frame.parent t = none
  subList : frame.subList t = []

/-- A blank thread has nothing to clean. -/
theorem cleanState_alike (blank : Blank frame t) (type : ThreadType) :
    Alike frame (frame.cleanState t type) where
  flag := update_eq_self_iff.mpr (funext blank.flag).symm
  parent := update_eq_self_iff.mpr blank.parent.symm
  subList := update_eq_self_iff.mpr blank.subList.symm
  type s p child same := by
    dsimp only [cleanState]
    rw [update_of_ne, same]
    rintro rfl
    rw [blank.parent] at child
    cases child
  freelist := rfl
  iolist := rfl
  runlist := rfl
  pendList := rfl
  sleeplist := rfl
  failed := rfl

section

variable (kept : Kept frame location owner hand) (asleep : frame.Asleep)

include kept asleep

/-- A thread on no list and in no family is blank. -/
theorem Kept.blank (unlisted : ∀ kind place, kind.place = some place → ¬ frame.Listed kind t)
    (orphan : frame.parent t = none) (childless : ∀ s, frame.parent s ≠ some t) :
    Blank frame t := by
  refine ⟨fun kind => Bool.eq_false_iff.mpr fun on => ?_, orphan,
    eq_nil_iff_forall_not_mem.mpr fun s member =>
      childless s ((kept.families.sub s t).mp member)⟩
  have listed := (kept.flags kind t).mp on
  cases kind with
  | freeList => exact unlisted .freeList .freeList rfl listed
  | sleepList => exact unlisted .sleepList .sleepHeap rfl listed
  | runList => exact unlisted .runList .runList rfl listed
  | pendList => exact unlisted .pendList .pendList rfl listed
  | ioList => exact unlisted .sleepList .sleepHeap rfl (asleep t listed)
  | subList =>
    obtain ⟨p, member⟩ := listed
    cases orphan.symm.trans ((kept.families.sub t p).mp member)

/-- `new` takes a thread that has not been there into the hand. -/
theorem Kept.newThread (type : ThreadType) :
    Alike frame (frame.newThread type) ∧
    Kept (frame.newThread type) (update location frame.next (some .active)) owner
      (frame.next :: hand) := by
  have gone : location frame.next = none := kept.populated.fresh frame.next le_rfl
  have nowhere (kind : ThreadFlag) (place : Place) (stands : kind.place = some place) :
      ¬ frame.Listed kind frame.next := fun listed => by
    cases gone.symm.trans ((kept.places kind place stands _).mp listed)
  have outside : frame.next ∉ hand := fun member => by
    cases gone.symm.trans ((kept.held _).mp member)
  have orphan : frame.parent frame.next = none := by
    by_contra child
    obtain ⟨p, child⟩ := Option.ne_none_iff_exists'.mp child
    exact (kept.families.alive _ p child).2 gone
  have childless (s : Nat) : frame.parent s ≠ some frame.next := by
    intro child
    rcases kept.families.waits s _ child with pends | owns
    · rw [gone] at pends
      cases pends
    · exact outside (kept.owned _ owns)
  have clean := cleanState_alike (kept.blank asleep nowhere orphan childless) type
  have alike : Alike frame (frame.newThread type) :=
    ⟨⟨clean.parent, clean.subList, clean.type⟩, clean.flag, rfl, rfl, rfl, rfl, rfl, rfl⟩
  refine ⟨alike, kept.census alike ⟨fun u => ?_, ?_, fun u new => ?_, fun u ruling => ?_⟩
    (fun kind place _ same => ?_) (fun kind place stands same => ?_) orphan childless
    (kept.held.enter fun u => ?_) (nodup_cons.mpr ⟨outside, kept.distinct⟩)
    fun p owning => mem_cons_of_mem _ (kept.owned p owning)⟩
  · change u ∈ frame.next :: frame.threads ↔ _
    rw [mem_cons, kept.populated.threads]
    rcases eq_or_ne u frame.next with rfl | elsewhere
    · rw [update_self]
      exact iff_of_true (.inl rfl) (by rintro ⟨⟩)
    · rw [update_of_ne elsewhere, or_iff_right elsewhere]
  · exact nodup_cons.mpr ⟨fun member => (kept.populated.threads _).mp member gone,
      kept.populated.once⟩
  · change frame.next + 1 ≤ u at new
    rw [update_of_ne (by omega)]
    exact kept.populated.fresh u (by omega)
  · rcases update_some_iff.mp ruling with ⟨-, ⟨⟩⟩ | ⟨-, ruling⟩
    exact kept.populated.ruler u ruling
  · rw [gone] at same
    cases same
  · cases same
    exact kind.place_ne_active stands
  · rw [mem_cons, or_comm]

end

/-- A thread in hand can be deleted. -/
theorem Kept.delete (kept : Kept frame location owner (t :: hand)) (asleep : frame.Asleep)
    (orphan : frame.parent t = none) (stranger : owner ≠ some t) :
    Alike frame (frame.delete t) ∧
    Kept (frame.delete t) (update location t none) owner hand := by
  have here := kept.location_hand
  have childless := kept.childless mem_cons_self stranger
  have clean := cleanState_alike (kept.blank asleep
    (fun kind place stands => kept.not_listed mem_cons_self stands) orphan childless)
    (frame.type t)
  have alike : Alike frame (frame.delete t) :=
    ⟨⟨rfl, rfl, fun _ _ _ => id⟩, clean.flag, rfl, rfl, rfl, rfl, rfl, rfl⟩
  refine ⟨alike, kept.census alike ⟨fun u => ?_, kept.populated.once.erase t, fun u new => ?_,
    fun u ruling => ?_⟩ (fun kind place stands same => ?_) (fun kind place _ => by rintro ⟨⟩)
    orphan childless (kept.held.leave (fun u => ?_) (by rintro ⟨⟩))
    (nodup_cons.mp kept.distinct).2 fun p owning => ?_⟩
  · change u ∈ frame.threads.erase t ↔ _
    rw [kept.populated.once.mem_erase_iff, kept.populated.threads]
    rcases eq_or_ne u t with rfl | elsewhere
    · rw [update_self]
      exact iff_of_false (fun both => both.1 rfl) fun ne => ne rfl
    · rw [update_of_ne elsewhere, and_iff_right elsewhere]
  · rcases eq_or_ne u t with rfl | elsewhere
    · exact update_self ..
    · rw [update_of_ne elsewhere]
      exact kept.populated.fresh u new
  · exact kept.populated.ruler u (update_none_iff.mp ruling).2
  · rw [here] at same
    cases same
    exact kind.place_ne_active stands
  · exact mem_of_cons kept.distinct
  · rcases mem_cons.mp (kept.owned p owning) with rfl | member
    · exact absurd owning stranger
    · exact member

end Hand

section Rules

theorem Counted.same (counted : frame.Counted) (same : Same frame frame') : frame'.Counted where
  total := by rw [same.threads, same.totalNum]; exact counted.total
  bounded := by rw [same.totalNum, same.room]; exact counted.bounded
  room := by rw [same.maxNum, same.room]; exact counted.room

theorem Asleep.enlist (asleep : frame.Asleep) (change : Enlists frame frame' kind t)
    (other : kind ≠ .ioList) : frame'.Asleep := by
  intro u
  rw [change.listed, change.listed, or_iff_left fun both => other both.1.symm]
  exact fun listed => .inl (asleep u listed)

theorem Asleep.delist (asleep : frame.Asleep) (change : Delists frame frame' kind t)
    (awake : kind = .sleepList → ¬ frame.Listed .ioList t) : frame'.Asleep := by
  intro u
  rw [change.listed, change.listed]
  rintro ⟨listed, -⟩
  refine ⟨asleep u listed, ?_⟩
  rintro ⟨sleeping, rfl⟩
  exact awake sleeping.symm listed

namespace InHand

theorem perm {hand' : List Nat} (inHand : InHand frame owner hand) (perm : hand.Perm hand') :
    InHand frame owner hand' := by
  obtain ⟨location, kept, ruling⟩ := inHand.kept
  exact ⟨inHand.asleep, inHand.counted, location,
    { kept with
      held := fun t => by rw [← kept.held t]; exact perm.mem_iff.symm
      distinct := perm.nodup_iff.mp kept.distinct
      owned := fun p owning => perm.mem_iff.mp (kept.owned p owning) }, ruling⟩

theorem alike (inHand : InHand frame owner hand) (alike : Alike frame frame')
    (same : Same frame frame') : InHand frame' owner hand := by
  obtain ⟨location, kept, ruling⟩ := inHand.kept
  refine ⟨fun t => ?_, inHand.counted.same same, location,
    kept.alike alike (kept.populated.same same), same.daemon ▸ ruling⟩
  rw [alike.listed]
  exact inHand.asleep t

/-- A thread in hand is put on a list. -/
theorem put (inHand : InHand frame owner (t :: hand)) (change : Enlists frame frame' kind t)
    (stands : kind.place = some place)
    (orphan : place = .freeList → frame.parent t = none)
    (owns : ∀ p, owner = some p → owner' = some p ∨ p = t ∧ place = .pendList)
    (owned : ∀ p, owner' = some p → p ∈ hand) : InHand frame' owner' hand := by
  obtain ⟨location, kept, ruling⟩ := inHand.kept
  refine ⟨inHand.asleep.enlist change ?_, inHand.counted.same change.same, _,
    kept.enlist change stands orphan owns owned, ?_⟩
  · rintro rfl
    cases stands
  · rw [change.same.daemon, update_of_ne, ruling]
    intro same
    rw [same, kept.location_hand] at ruling
    cases ruling

/-- The owner keeps its sub threads. -/
theorem owner_mem (inHand : InHand frame owner (t :: hand)) (stranger : owner ≠ some t) (p : Nat)
    (owning : owner = some p) : p ∈ hand := by
  obtain ⟨location, kept, -⟩ := inHand.kept
  rcases mem_cons.mp (kept.owned p owning) with rfl | member
  · exact absurd owning stranger
  · exact member

section

variable (inHand : InHand frame owner hand)

include inHand

/-- A thread is taken from its list. -/
theorem take (change : Delists frame frame' kind t) (stands : kind.place = some place)
    (listed : frame.Listed kind t) (awake : kind = .sleepList → ¬ frame.Listed .ioList t)
    (childless : place = .pendList → ∀ s, frame.parent s ≠ some t) :
    InHand frame' owner (t :: hand) := by
  obtain ⟨location, kept, ruling⟩ := inHand.kept
  refine ⟨inHand.asleep.delist change awake, inHand.counted.same change.same, _,
    kept.delist change stands listed childless, ?_⟩
  rw [change.same.daemon, update_of_ne, ruling]
  intro same
  rw [same, (kept.places kind place stands t).mp listed] at ruling
  exact kind.place_ne_daemon (stands.trans ruling)

theorem tidy : frame.Tidy := by
  obtain ⟨_, kept, _⟩ := inHand.kept
  exact kept.tidy

theorem flag_iff : frame.flag t kind = true ↔ frame.Listed kind t := by
  obtain ⟨_, kept, _⟩ := inHand.kept
  exact kept.flags kind t

end

section

variable (inHand : InHand frame owner (t :: hand))

include inHand

theorem not_listed (stands : kind.place = some place) : ¬ frame.Listed kind t := by
  obtain ⟨_, kept, _⟩ := inHand.kept
  exact kept.not_listed mem_cons_self stands

theorem insertRunable (stranger : owner ≠ some t) : InHand (frame.insertRunable t) owner hand := by
  have free : ¬ frame.Listed .runList t := inHand.not_listed rfl
  exact inHand.put (insertRunable_enlists inHand.tidy free) rfl (by rintro ⟨⟩)
    (fun p owning => .inl owning) (inHand.owner_mem stranger)

theorem insertPend (own : ∀ p, owner = some p → p = t) : InHand (frame.insertPend t) none hand := by
  have free : ¬ frame.Listed .pendList t := inHand.not_listed rfl
  exact inHand.put (insertPend_enlists inHand.tidy free) rfl (by rintro ⟨⟩)
    (fun p owning => .inr ⟨own p owning, rfl⟩) (by rintro _ ⟨⟩)

/-- There is room in the heap for a thread in the hand. -/
theorem room : frame.sleeplist.heap.count < frame.sleeplist.max := by
  obtain ⟨location, kept, -⟩ := inHand.kept
  have here : t ∈ frame.threads :=
    (kept.populated.threads t).mpr (by rw [kept.location_hand]; rintro ⟨⟩)
  have fewer : frame.sleeplist.heap.count ≤ (frame.threads.erase t).length := by
    refine kept.tidy.sleeplist.count_le fun entry member => ?_
    have there := (kept.places .sleepList .sleepHeap rfl entry).mp member
    refine (mem_erase_of_ne ?_).mpr
      ((kept.populated.threads entry).mpr (by rw [there]; rintro ⟨⟩))
    rintro rfl
    rw [kept.location_hand] at there
    cases there
  rw [length_erase_of_mem here] at fewer
  have nonempty := length_pos_of_mem here
  have counted := inHand.counted
  have := counted.total
  have := counted.bounded
  omega

theorem insertSleep (stranger : owner ≠ some t) : InHand (frame.insertSleep t) owner hand := by
  have free : ¬ frame.Listed .sleepList t := inHand.not_listed rfl
  exact inHand.put (insertSleep_enlists inHand.tidy free inHand.room) rfl (by rintro ⟨⟩)
    (fun p owning => .inl owning) (inHand.owner_mem stranger)

end

section

variable (inHand : InHand frame owner hand)

include inHand

theorem removeRunable {rest : List Nat} (first : frame.runlist = t :: rest) :
    InHand (frame.removeRunable t) owner (t :: hand) := by
  have listed : t ∈ frame.runlist := first ▸ mem_cons_self
  exact inHand.take (removeRunable_delists inHand.tidy first) rfl listed (by rintro ⟨⟩)
    (by rintro ⟨⟩)

theorem removePend (pends : frame.Listed .pendList t) (childless : ∀ s, frame.parent s ≠ some t) :
    InHand (frame.removePend t) owner (t :: hand) :=
  inHand.take (removePend_delists inHand.tidy) rfl pends (by rintro ⟨⟩) fun _ => childless

theorem removeSleep (sleeps : frame.Listed .sleepList t) (awake : ¬ frame.Listed .ioList t) :
    InHand (frame.removeSleep t) owner (t :: hand) :=
  inHand.take (removeSleep_delists inHand.tidy sleeps) rfl sleeps (fun _ => awake) (by rintro ⟨⟩)

theorem removeIoWait (waits : frame.flag t .ioList = true) :
    InHand (frame.removeIoWait t) owner (t :: hand) := by
  have listed := inHand.flag_iff.mp waits
  have change : Delists frame (frame.leaveIoList t) .ioList t := leaveIoList_delists inHand.tidy
  have left : InHand (frame.leaveIoList t) owner hand := by
    obtain ⟨location, kept, ruling⟩ := inHand.kept
    exact ⟨inHand.asleep.delist change (by rintro ⟨⟩), inHand.counted.same change.same, location,
      kept.leaveIoList listed, ruling⟩
  refine left.removeSleep (inHand.asleep t listed) fun still => ?_
  exact ((change.listed _ _).mp still).2 ⟨rfl, rfl⟩

end

/-- A thread in hand goes to sleep until its event. -/
theorem insertIoWait (inHand : InHand frame owner (t :: hand)) (stranger : owner ≠ some t) :
    InHand (frame.insertIoWait t) owner hand := by
  have free : ¬ frame.Listed .sleepList t := inHand.not_listed rfl
  have notWaiting : ¬ frame.Listed .ioList t := fun waits => free (inHand.asleep t waits)
  have entered := enterIoList_enlists inHand.tidy notWaiting
  have pushed : Enlists (frame.enterIoList t) (frame.insertIoWait t) .sleepList t :=
    insertSleep_enlists entered.tidy free inHand.room
  obtain ⟨location, kept, ruling⟩ := inHand.kept
  refine ⟨fun u => ?_, (inHand.counted.same entered.same).same pushed.same, _,
    (kept.enterIoList notWaiting).enlist pushed rfl (by rintro ⟨⟩)
      (fun p owning => .inl owning) (inHand.owner_mem stranger), ?_⟩
  · rw [pushed.listed, pushed.listed, entered.listed, entered.listed]
    rintro ((waits | ⟨-, rfl⟩) | ⟨⟨⟩, -⟩)
    · exact .inl (.inl (inHand.asleep u waits))
    · exact .inr ⟨rfl, rfl⟩
  · rw [pushed.same.daemon, entered.same.daemon, update_of_ne, ruling]
    intro same
    rw [same, kept.location_hand] at ruling
    cases ruling

end InHand

end Rules

end MtFrame

end FStack.Micro
