import FStack.Event.Kqueue
import FStack.Std.Maps
import FStack.Std.Steps
import Mathlib.Data.List.TakeWhile

/-!
# The kqueue proxy

For every descriptor the proxy keeps how often each of its two events is wanted, the
mask it listens for, and the object to notify. A change of the mask is carried out with
`ff_kevent`, one filter at a time: the filters of the old mask are deleted and others
are added.

`kqueueCtrlAdd` adds the filters of the events it is called with, not those of the new
mask. A call that fails does not undo the changes that were made before the one that was
refused, and `kqueueCtrlDelRef` does not count again the references that it has dropped.
-/

namespace FStack.Micro

open Event (Filter has has_or)
open BitVec Function List Steps

section Events

def kqEventRead : BitVec 32 := 1
def kqEventWrite : BitVec 32 := 2

/-- The event of a filter. -/
def kqEvent : Filter → BitVec 32
  | .read => kqEventRead
  | .write => kqEventWrite

/-- The place of an event in a mask. -/
def kqBit : Filter → Nat
  | .read => 0
  | .write => 1

theorem has_kqEvent (events : BitVec 32) (filter : Filter) :
    has events (kqEvent filter) = events.getLsbD (kqBit filter) := by
  have single : kqEvent filter = twoPow 32 (kqBit filter) := by cases filter <;> rfl
  have nonzero : kqEvent filter ≠ 0 := by cases filter <;> decide
  rw [has, single, and_twoPow, ← single]
  cases events.getLsbD (kqBit filter) with
  | false => rfl
  | true => exact bne_iff_ne.mpr nonzero

theorem has_andNot (events dropped : BitVec 32) (filter : Filter) :
    has (events &&& ~~~dropped) (kqEvent filter) =
      (has events (kqEvent filter) && !has dropped (kqEvent filter)) := by
  have inside : kqBit filter < 32 := by cases filter <;> decide
  simp only [has_kqEvent, getLsbD_and, getLsbD_not, inside, decide_true,
    Bool.true_and]

theorem or_kqEvent {events : BitVec 32} {filter : Filter}
    (there : has events (kqEvent filter) = true) : events ||| kqEvent filter = events := by
  rw [has_kqEvent] at there
  have single : kqEvent filter = twoPow 32 (kqBit filter) := by cases filter <;> rfl
  rw [single]
  refine eq_of_getLsbD_eq fun i inside => ?_
  rw [getLsbD_or]
  rcases eq_or_ne (kqBit filter) i with rfl | different
  · rw [there, Bool.true_or]
  · simp [different]

end Events

section Model

/-- A `KqueuerObj*`: into the stack of a thread, or to an object that is not local to a
call. The stacks of threads are apart. -/
inductive ObjPtr where
  | stack (thread offset : Nat)
  | lasting (address : Nat)
deriving DecidableEq, Repr

/-- `KqFdRef`. -/
structure KqFdRef where
  wrRef : Nat
  rdRef : Nat
  events : BitVec 32
  kqobj : Option ObjPtr
deriving DecidableEq, Repr

namespace KqFdRef

def new : KqFdRef := ⟨0, 0, 0, none⟩

def attachEvents (item : KqFdRef) (events : BitVec 32) : KqFdRef :=
  { item with
    rdRef := if has events kqEventRead then item.rdRef + 1 else item.rdRef
    wrRef := if has events kqEventWrite then item.wrRef + 1 else item.wrRef }

/-- A count that is zero stays so. -/
def detachEvents (item : KqFdRef) (events : BitVec 32) : KqFdRef :=
  { item with
    rdRef := if has events kqEventRead then item.rdRef - 1 else item.rdRef
    wrRef := if has events kqEventWrite then item.wrRef - 1 else item.wrRef }

section

variable (item : KqFdRef) (events : BitVec 32)

@[simp] theorem attachEvents_events :
    (item.attachEvents events).events = item.events := rfl

@[simp] theorem detachEvents_events :
    (item.detachEvents events).events = item.events := rfl

@[simp] theorem attachEvents_kqobj :
    (item.attachEvents events).kqobj = item.kqobj := rfl

@[simp] theorem detachEvents_kqobj :
    (item.detachEvents events).kqobj = item.kqobj := rfl

theorem detachEvents_attachEvents : (item.attachEvents events).detachEvents events = item := by
  simp only [attachEvents, detachEvents]
  congr 1 <;> split_ifs <;> rfl

/-- Dropping references does nothing exactly if none is there. -/
theorem detachEvents_eq_self_iff : item.detachEvents events = item ↔
    (has events kqEventRead = true → item.rdRef = 0) ∧
      (has events kqEventWrite = true → item.wrRef = 0) := by
  have dropped (asked : Bool) (count : Nat) :
      (if asked then count - 1 else count) = count ↔ (asked = true → count = 0) := by
    cases asked with
    | false => simp
    | true => simp only [if_true, true_imp_iff]; omega
  rw [← dropped, ← dropped]
  constructor
  · intro same
    exact ⟨congrArg rdRef same, congrArg wrRef same⟩
  · rintro ⟨read, write⟩
    rw [detachEvents, read, write]

end

end KqFdRef

/-- What one call of `ff_kevent` asks for. -/
inductive Change where
  | delete (filter : Filter)
  | add (filter : Filter)
deriving DecidableEq, Repr

/-- The filters of a kqueue. -/
abbrev Registered := Int × Filter → Bool

/-- A change that is made. -/
def Change.apply (fd : Int) (registered : Registered) : Change → Registered
  | .delete filter => update registered (fd, filter) false
  | .add filter => update registered (fd, filter) true

/-- The filters of a mask, in the order in which the proxy takes them. -/
def filtersOf (events : BitVec 32) : List Filter :=
  [Filter.write, Filter.read].filter fun filter => has events (kqEvent filter)

/-- One `ff_kevent` after another, up to the first that fails. `accepts` says which
succeed; no call of the proxy makes a change twice. -/
def submit (accepts : Change → Bool) (fd : Int) : List Change → Registered → Registered × Bool
  | [], registered => (registered, true)
  | change :: rest, registered =>
    if accepts change then submit accepts fd rest (change.apply fd registered)
    else (registered, false)

/-- `KqueueProxy`, beside the kqueue it works on. -/
structure KqueueProxy where
  maxfd : Int
  kqrefs : Int → KqFdRef
  registered : Registered

/-- The two calls that change what is listened for; `KqueueCtrlDel` is the second
without counts. -/
inductive CtrlCall where
  | add (fd : Int) (events : BitVec 32)
  | delRef (fd : Int) (events : BitVec 32) (useRef : Bool)
deriving DecidableEq, Repr

def CtrlCall.fd : CtrlCall → Int
  | .add fd _ | .delRef fd _ _ => fd

namespace KqueueProxy

/-- `DEFAULT_MAX_FD_NUM`. -/
def defaultMaxFdNum : Int := 100000

/-- After `InitKqueue`. -/
def initKqueue (maxNum : Int) : KqueueProxy where
  maxfd := if maxNum > defaultMaxFdNum then maxNum else defaultMaxFdNum
  kqrefs _ := .new
  registered _ := false

def kqFdRefGet (proxy : KqueueProxy) (fd : Int) : Option KqFdRef :=
  if fd ≥ proxy.maxfd ∨ fd < 0 then none else some (proxy.kqrefs fd)

def setRef (proxy : KqueueProxy) (fd : Int) (item : KqFdRef) : KqueueProxy :=
  { proxy with kqrefs := update proxy.kqrefs fd item }

/-- The changes of `KqueueCtrlAdd`: the filters of the events it is called with come
back, those of the old mask do not. -/
def addChanges (oldEvents events : BitVec 32) : List Change :=
  if oldEvents = oldEvents ||| events then []
  else (filtersOf oldEvents).map .delete ++ (filtersOf events).map .add

/-- The changes are made, and the entry of the descriptor is left as it is to be after
them, or after one that was refused. -/
def carryOut (proxy : KqueueProxy) (accepts : Change → Bool) (fd : Int) (changes : List Change)
    (made refused : KqFdRef) : KqueueProxy × Bool :=
  match submit accepts fd changes proxy.registered with
  | (registered, true) => ({ proxy.setRef fd made with registered }, true)
  | (registered, false) => ({ proxy.setRef fd refused with registered }, false)

def kqueueCtrlAdd (proxy : KqueueProxy) (accepts : Change → Bool) (fd : Int)
    (events : BitVec 32) : KqueueProxy × Bool :=
  match proxy.kqFdRefGet fd with
  | none => (proxy, false)
  | some item =>
    let item := item.attachEvents events
    let newEvents := item.events ||| events
    proxy.carryOut accepts fd (addChanges item.events events)
      { item with events := newEvents } (item.detachEvents events)

/-- The mask that `KqueueCtrlDelRef` leaves, after the references are dropped. -/
def delEvents (item : KqFdRef) (events : BitVec 32) (useRef : Bool) : BitVec 32 :=
  if useRef then
    let newEvents := if item.rdRef = 0 then item.events &&& ~~~kqEventRead else item.events
    if item.wrRef = 0 then newEvents &&& ~~~kqEventWrite else newEvents
  else item.events &&& ~~~events

def delChanges (oldEvents newEvents : BitVec 32) : List Change :=
  if oldEvents = newEvents then []
  else (filtersOf oldEvents).map .delete ++ (filtersOf newEvents).map .add

def kqueueCtrlDelRef (proxy : KqueueProxy) (accepts : Change → Bool) (fd : Int)
    (events : BitVec 32) (useRef : Bool) : KqueueProxy × Bool :=
  match proxy.kqFdRefGet fd with
  | none => (proxy, false)
  | some item =>
    let item := item.detachEvents events
    let newEvents := delEvents item events useRef
    proxy.carryOut accepts fd (delChanges item.events newEvents)
      { item with events := newEvents } item

def kqueueCtrlDel (proxy : KqueueProxy) (accepts : Change → Bool) (fd : Int)
    (events : BitVec 32) : KqueueProxy × Bool :=
  proxy.kqueueCtrlDelRef accepts fd events false

/-- A call, with what its `ff_kevent` calls answer. -/
def ctrl (proxy : KqueueProxy) (accepts : Change → Bool) : CtrlCall → KqueueProxy × Bool
  | .add fd events => proxy.kqueueCtrlAdd accepts fd events
  | .delRef fd events useRef => proxy.kqueueCtrlDelRef accepts fd events useRef

/-- The changes that a call makes, up to the first that is refused. -/
def changes (proxy : KqueueProxy) : CtrlCall → List Change
  | .add fd events => match proxy.kqFdRefGet fd with
      | none => []
      | some item => addChanges item.events events
  | .delRef fd events useRef => match proxy.kqFdRefGet fd with
      | none => []
      | some item =>
        delChanges item.events (delEvents (item.detachEvents events) events useRef)

end KqueueProxy

/-- A call, with what its `ff_kevent` calls answer. -/
structure CtrlRequest where
  call : CtrlCall
  accepts : Change → Bool

namespace KqueueProxy

def ctrlStep (proxy : KqueueProxy) (request : CtrlRequest) : KqueueProxy :=
  (proxy.ctrl request.accepts request.call).1

/-- Whether a call returns true. -/
def succeeds (proxy : KqueueProxy) (request : CtrlRequest) : Bool :=
  (proxy.ctrl request.accepts request.call).2

/-- The kqueue has the filters of the masks. -/
def Mirror (proxy : KqueueProxy) : Prop :=
  ∀ fd filter, proxy.registered (fd, filter) = has (proxy.kqrefs fd).events (kqEvent filter)

/-- A call leaves the filters of the masks; one that adds events leaves theirs and all
that were recorded before. -/
structure Mirrors (proxy : KqueueProxy) (request : CtrlRequest) : Prop where
  mirror : (proxy.ctrlStep request).Mirror
  added : ∀ fd events, request.call = .add fd events → proxy.succeeds request = true →
    ∀ filter, has ((proxy.kqrefs fd).events ||| events) (kqEvent filter) = true →
      (proxy.ctrlStep request).registered (fd, filter) = true

/-- Every `ff_kevent` of a call succeeds. -/
def Accepted (proxy : KqueueProxy) (request : CtrlRequest) : Prop :=
  ∀ change ∈ proxy.changes request.call, request.accepts change = true

/-- A call that adds an event names all events that are recorded. -/
def Covers (proxy : KqueueProxy) : CtrlCall → Prop
  | .add fd events => (proxy.kqrefs fd).events = (proxy.kqrefs fd).events ||| events ∨
      ∀ filter, has (proxy.kqrefs fd).events (kqEvent filter) = true →
        has events (kqEvent filter) = true
  | .delRef .. => True

/-- The changes of a call that are made: those before the first that is refused. -/
def made (proxy : KqueueProxy) (request : CtrlRequest) : List Change :=
  (proxy.changes request.call).takeWhile request.accepts

/-- A call that returns false leaves the proxy and the filters as they were. -/
def Atomic (proxy : KqueueProxy) (request : CtrlRequest) : Prop :=
  proxy.succeeds request = false → proxy.ctrlStep request = proxy

/-- Every filter that a call has touched is as it was: one that was added had been there,
one that was deleted came back or had not been there. No reference is there to be dropped. -/
structure Untouched (proxy : KqueueProxy) (request : CtrlRequest) : Prop where
  added : ∀ filter, .add filter ∈ proxy.made request →
    proxy.registered (request.call.fd, filter) = true
  deleted : ∀ filter, .delete filter ∈ proxy.made request →
    .add filter ∈ proxy.made request ∨ proxy.registered (request.call.fd, filter) = false
  unreferenced : ∀ fd events useRef, request.call = .delRef fd events useRef →
    (has events kqEventRead = true → (proxy.kqrefs fd).rdRef = 0) ∧
      (has events kqEventWrite = true → (proxy.kqrefs fd).wrRef = 0)

end KqueueProxy

end Model

section Changes

variable {accepts : Change → Bool} {fd : Int} {registered : Registered} {changes : List Change}

theorem mem_filtersOf {events : BitVec 32} {filter : Filter} :
    filter ∈ filtersOf events ↔ has events (kqEvent filter) = true := by
  unfold filtersOf
  rw [mem_filter]
  refine and_iff_right ?_
  cases filter <;> decide

/-- The changes up to the first that is refused are made. -/
theorem submit_eq (accepts : Change → Bool) (fd : Int) (changes : List Change)
    (registered : Registered) : submit accepts fd changes registered =
      ((changes.takeWhile accepts).foldl (fun registered change => change.apply fd registered)
        registered, changes.all accepts) := by
  induction changes generalizing registered with
  | nil => rfl
  | cons change rest ih =>
    rw [submit, takeWhile_cons, all_cons]
    cases accepts change with
    | false => rfl
    | true => exact ih _

theorem submit_accepted (accepted : ∀ change ∈ changes, accepts change = true) :
    submit accepts fd changes registered =
      (changes.foldl (fun registered change => change.apply fd registered) registered, true) := by
  rw [submit_eq, takeWhile_eq_self_iff.mpr accepted, all_eq_true.mpr accepted]

/-- Changes of some filters act on those filters only. -/
theorem foldl_apply (make : Filter → Change) (value : Bool)
    (apply_eq : ∀ filter registered,
      (make filter).apply fd registered = update registered (fd, filter) value)
    (filters : List Filter) (registered : Registered) (key : Int × Filter) :
    (filters.map make).foldl (fun registered change => change.apply fd registered) registered key =
      if key.1 = fd ∧ key.2 ∈ filters then value else registered key := by
  induction filters generalizing registered with
  | nil => exact (if_neg fun both => not_mem_nil both.2).symm
  | cons filter rest ih =>
    rw [map_cons, foldl_cons, ih, apply_eq, update_apply]
    by_cases same : key = (fd, filter)
    · subst same
      simp
    · have other : key.1 = fd → key.2 ≠ filter := fun here there =>
        same (Prod.ext here there)
      by_cases here : key.1 = fd
      · simp only [mem_cons, other here, false_or, if_neg same]
      · simp only [here, false_and, if_neg same]

/-- The filters of one mask are replaced by those of another. -/
theorem foldl_replace (old new : BitVec 32) (registered : Registered) (key : Int × Filter) :
    ((filtersOf old).map Change.delete ++ (filtersOf new).map Change.add).foldl
        (fun registered change => change.apply fd registered) registered key =
      if key.1 = fd then
        has new (kqEvent key.2) || (registered key && !has old (kqEvent key.2))
      else registered key := by
  rw [foldl_append, foldl_apply Change.add true (fun _ _ => rfl),
    foldl_apply Change.delete false (fun _ _ => rfl)]
  by_cases here : key.1 = fd
  · simp only [here, mem_filtersOf]
    cases has new (kqEvent key.2) <;> cases has old (kqEvent key.2) <;> simp
  · simp only [here, false_and, if_false]

/-- Deletions come before additions, also in what is made of them. -/
theorem takeWhile_replace (accepts : Change → Bool) (unchanged : Prop) [Decidable unchanged]
    (old new : List Filter) : ∃ deleted added : List Filter,
      (if unchanged then [] else old.map Change.delete ++ new.map Change.add).takeWhile accepts =
        deleted.map Change.delete ++ added.map Change.add := by
  split_ifs
  · exact ⟨[], [], rfl⟩
  rw [takeWhile_append, takeWhile_map, takeWhile_map]
  split_ifs with whole
  · exact ⟨old, _, rfl⟩
  · exact ⟨_, [], (append_nil _).symm⟩

/-- What changes leave that delete before they add. -/
theorem foldl_apply_eq_self_iff (deletedFirst : ∃ deleted added : List Filter,
      changes = deleted.map Change.delete ++ added.map Change.add) :
    changes.foldl (fun registered change => change.apply fd registered) registered = registered ↔
      (∀ filter, .add filter ∈ changes → registered (fd, filter) = true) ∧
      ∀ filter, .delete filter ∈ changes →
        .add filter ∈ changes ∨ registered (fd, filter) = false := by
  obtain ⟨deleted, added, rfl⟩ := deletedFirst
  have isAdd (filter : Filter) : Change.add filter ∈
      deleted.map Change.delete ++ added.map Change.add ↔ filter ∈ added := by simp
  have isDelete (filter : Filter) : Change.delete filter ∈
      deleted.map Change.delete ++ added.map Change.add ↔ filter ∈ deleted := by simp
  simp only [isAdd, isDelete]
  rw [foldl_append, funext_iff]
  simp only [foldl_apply Change.add true (fun _ _ => rfl),
    foldl_apply Change.delete false (fun _ _ => rfl)]
  constructor
  · intro same
    refine ⟨fun filter isAdded => ?_, fun filter isDeleted => ?_⟩
    · rw [← same (fd, filter), if_pos ⟨rfl, isAdded⟩]
    · by_cases isAdded : filter ∈ added
      · exact .inl isAdded
      · refine .inr ?_
        rw [← same (fd, filter), if_neg fun both => isAdded both.2, if_pos ⟨rfl, isDeleted⟩]
  · rintro ⟨there, gone⟩ ⟨other, filter⟩
    split_ifs with isAdded isDeleted
    · obtain ⟨rfl, isAdded⟩ := isAdded
      exact (there filter isAdded).symm
    · obtain ⟨rfl, isDeleted⟩ := isDeleted
      exact ((gone filter isDeleted).resolve_left fun both => isAdded ⟨rfl, both⟩).symm
    · rfl

end Changes

namespace KqueueProxy

variable {proxy : KqueueProxy} {accepts : Change → Bool} {fd : Int} {events : BitVec 32}
  {useRef : Bool} {request : CtrlRequest}

theorem kqFdRefGet_cases (proxy : KqueueProxy) (fd : Int) :
    proxy.kqFdRefGet fd = none ∨ proxy.kqFdRefGet fd = some (proxy.kqrefs fd) := by
  unfold kqFdRefGet
  split_ifs with outside
  · exact .inl rfl
  · exact .inr rfl

/-- The changes are all made, or the entry is as for a refusal. -/
theorem carryOut_cases (proxy : KqueueProxy) (accepts : Change → Bool) (fd : Int)
    (changes : List Change) (made refused : KqFdRef) : ∃ registered,
    proxy.carryOut accepts fd changes made refused =
      ({ proxy.setRef fd made with registered }, true) ∨
    proxy.carryOut accepts fd changes made refused =
      ({ proxy.setRef fd refused with registered }, false) := by
  unfold carryOut
  split
  · exact ⟨_, .inl rfl⟩
  · exact ⟨_, .inr rfl⟩

variable {changes : List Change} {made refused : KqFdRef} {filter : Filter}

theorem carryOut_accepted (accepted : ∀ change ∈ changes, accepts change = true) :
    proxy.carryOut accepts fd changes made refused =
      ({ proxy.setRef fd made with
          registered := changes.foldl (fun registered change => change.apply fd registered)
            proxy.registered }, true) := by
  rw [carryOut, submit_accepted accepted]

/-- What is registered changes up to the first refusal. -/
theorem carryOut_eq (proxy : KqueueProxy) (accepts : Change → Bool) (fd : Int)
    (changes : List Change) (made refused : KqFdRef) :
    proxy.carryOut accepts fd changes made refused =
      ({ proxy.setRef fd (if changes.all accepts then made else refused) with
          registered := (changes.takeWhile accepts).foldl
            (fun registered change => change.apply fd registered) proxy.registered },
        changes.all accepts) := by
  rw [carryOut, submit_eq]
  cases changes.all accepts with
  | true => rfl
  | false => rfl

/-- A call leaves everything as it was when it fails exactly if no change is refused, or the
entry for that case is the old one and the changes before it have touched nothing. -/
theorem carryOut_atomic_iff (deletedFirst : ∃ deleted added : List Filter,
      changes.takeWhile accepts = deleted.map Change.delete ++ added.map Change.add) :
    ((proxy.carryOut accepts fd changes made refused).2 = false →
      (proxy.carryOut accepts fd changes made refused).1 = proxy) ↔
    (∀ change ∈ changes, accepts change = true) ∨ refused = proxy.kqrefs fd ∧
      (∀ filter, .add filter ∈ changes.takeWhile accepts →
        proxy.registered (fd, filter) = true) ∧
      ∀ filter, .delete filter ∈ changes.takeWhile accepts →
        .add filter ∈ changes.takeWhile accepts ∨ proxy.registered (fd, filter) = false := by
  rw [← foldl_apply_eq_self_iff deletedFirst, ← all_eq_true, carryOut_eq]
  cases changes.all accepts with
  | true => simp
  | false =>
    simp only [Bool.false_eq_true, if_false, false_or, true_imp_iff]
    constructor
    · intro same
      refine ⟨?_, congrArg registered same⟩
      rw [← congrArg (·.kqrefs fd) same]
      exact (update_self fd refused proxy.kqrefs).symm
    · rintro ⟨rfl, same⟩
      rw [same, setRef, update_eq_self]

section

variable (mirror : proxy.Mirror)

include mirror

variable {item : KqFdRef}

/-- The masks are mirrored if an entry gets a mask with the filters that the changes
leave. -/
theorem Mirror.setRef {registered : Registered}
    (here : ∀ filter, registered (fd, filter) = has item.events (kqEvent filter))
    (elsewhere : ∀ key : Int × Filter, key.1 ≠ fd → registered key = proxy.registered key) :
    ({ proxy.setRef fd item with registered } : KqueueProxy).Mirror := by
  intro other filter
  dsimp only [KqueueProxy.setRef]
  rcases eq_or_ne other fd with rfl | different
  · rw [update_self]
    exact here filter
  · rw [update_of_ne different]
    exact (elsewhere (other, filter) different).trans (mirror other filter)

/-- The old mask is replaced: its filters go and others come. -/
theorem Mirror.replace {old new : BitVec 32} (recorded : (proxy.kqrefs fd).events = old)
    (same : ∀ filter, has item.events (kqEvent filter) = has new (kqEvent filter)) :
    ({ proxy.setRef fd item with
        registered := ((filtersOf old).map Change.delete ++ (filtersOf new).map Change.add).foldl
          (fun registered change => change.apply fd registered) proxy.registered } :
      KqueueProxy).Mirror := by
  refine mirror.setRef (fun filter => ?_) fun key different => ?_
  · rw [foldl_replace, if_pos rfl, mirror fd filter, recorded, Bool.and_not_self, Bool.or_false,
      same]
  · rw [foldl_replace, if_neg different]

/-- Adding events whose filters cover those of the old mask. -/
theorem Mirror.ctrlAdd (accepted : ∀ change ∈ proxy.changes (.add fd events), accepts change = true)
    (covers : proxy.Covers (.add fd events)) :
    (proxy.kqueueCtrlAdd accepts fd events).1.Mirror := by
  rcases proxy.kqFdRefGet_cases fd with found | found
  · rw [kqueueCtrlAdd, found]
    exact mirror
  · simp only [changes, found] at accepted
    simp only [kqueueCtrlAdd, found, KqFdRef.attachEvents_events]
    rw [carryOut_accepted accepted]
    unfold addChanges
    split_ifs with unchanged
    · -- no event is new, and no filter is touched
      refine mirror.setRef (fun filter => ?_) fun _ _ => rfl
      rw [← unchanged]
      exact mirror fd filter
    · refine mirror.replace rfl fun filter => ?_
      have named := covers.resolve_left unchanged filter
      rw [has_or]
      cases old : has (proxy.kqrefs fd).events (kqEvent filter) with
      | false => rfl
      | true => rw [named old, Bool.true_or]

/-- Dropping events always leaves the filters of the new mask. -/
theorem Mirror.ctrlDelRef
    (accepted : ∀ change ∈ proxy.changes (.delRef fd events useRef), accepts change = true) :
    (proxy.kqueueCtrlDelRef accepts fd events useRef).1.Mirror := by
  rcases proxy.kqFdRefGet_cases fd with found | found
  · rw [kqueueCtrlDelRef, found]
    exact mirror
  · simp only [changes, found] at accepted
    simp only [kqueueCtrlDelRef, found, KqFdRef.detachEvents_events]
    rw [carryOut_accepted accepted]
    unfold delChanges
    split_ifs with unchanged
    · refine mirror.setRef (fun filter => ?_) fun _ _ => rfl
      rw [← unchanged]
      exact mirror fd filter
    · exact mirror.replace rfl fun _ => rfl

end

/-- A call of `KqueueCtrlAdd` that fails changes nothing but the kqueue. -/
theorem kqueueCtrlAdd_cases (found : proxy.kqFdRefGet fd = some (proxy.kqrefs fd))
    (accepts : Change → Bool) (events : BitVec 32) : ∃ registered,
    proxy.kqueueCtrlAdd accepts fd events =
      ({ proxy.setRef fd { (proxy.kqrefs fd).attachEvents events with
          events := (proxy.kqrefs fd).events ||| events } with registered }, true) ∨
    proxy.kqueueCtrlAdd accepts fd events = ({ proxy with registered }, false) := by
  simp only [kqueueCtrlAdd, found, KqFdRef.attachEvents_events, KqFdRef.detachEvents_attachEvents]
  obtain ⟨registered, made | refused⟩ := proxy.carryOut_cases accepts fd
    (addChanges (proxy.kqrefs fd).events events) _ (proxy.kqrefs fd)
  · exact ⟨registered, .inl made⟩
  · refine ⟨registered, .inr ?_⟩
    rw [refused, setRef, update_eq_self]

/-- The mask that a successful call of `KqueueCtrlAdd` records. -/
theorem kqueueCtrlAdd_events (succeeds : (proxy.kqueueCtrlAdd accepts fd events).2 = true) :
    ((proxy.kqueueCtrlAdd accepts fd events).1.kqrefs fd).events =
      (proxy.kqrefs fd).events ||| events := by
  rcases proxy.kqFdRefGet_cases fd with found | found
  · rw [kqueueCtrlAdd, found] at succeeds
    cases succeeds
  · obtain ⟨registered, made | refused⟩ := kqueueCtrlAdd_cases found accepts events
    · rw [made]
      dsimp only [setRef]
      rw [update_self]
    · rw [refused] at succeeds
      cases succeeds

/-- Adding an event that is in the mask changes no filter. -/
theorem kqueueCtrlAdd_there (there : has (proxy.kqrefs fd).events (kqEvent filter) = true) :
    (proxy.kqueueCtrlAdd accepts fd (kqEvent filter)).1.registered = proxy.registered ∧
    ((proxy.kqueueCtrlAdd accepts fd (kqEvent filter)).1.kqrefs fd).events =
      (proxy.kqrefs fd).events := by
  rcases proxy.kqFdRefGet_cases fd with found | found
  · rw [kqueueCtrlAdd, found]
    exact ⟨rfl, rfl⟩
  · simp only [kqueueCtrlAdd, found, KqFdRef.attachEvents_events, addChanges, or_kqEvent there,
      if_true, carryOut, submit]
    refine ⟨trivial, ?_⟩
    dsimp only [setRef]
    rw [update_self]

/-- Another event stays in the mask, whether or not the changes are made. -/
theorem kqueueCtrlDel_other (other : has events (kqEvent filter) = false) :
    has ((proxy.kqueueCtrlDel accepts fd events).1.kqrefs fd).events (kqEvent filter) =
      has (proxy.kqrefs fd).events (kqEvent filter) := by
  unfold kqueueCtrlDel
  rcases proxy.kqFdRefGet_cases fd with found | found
  · rw [kqueueCtrlDelRef, found]
  · simp only [kqueueCtrlDelRef, found, carryOut, delEvents, KqFdRef.detachEvents_events]
    split
    · dsimp only [setRef]
      rw [update_self, if_neg Bool.false_ne_true, has_andNot, other, Bool.not_false,
        Bool.and_true]
    · dsimp only [setRef]
      rw [update_self, KqFdRef.detachEvents_events]

section

variable (found : proxy.kqFdRefGet fd = some (proxy.kqrefs fd))
  (accepted : ∀ change, accepts change = true)

include found accepted

/-- What a call of `KqueueCtrlAdd` leaves for its descriptor if no change is refused. -/
theorem kqueueCtrlAdd_accepted :
    (proxy.kqueueCtrlAdd accepts fd events).2 = true ∧
    (proxy.kqueueCtrlAdd accepts fd events).1.maxfd = proxy.maxfd ∧
    ((proxy.kqueueCtrlAdd accepts fd events).1.kqrefs fd).kqobj = (proxy.kqrefs fd).kqobj ∧
    ∀ filter, (proxy.kqueueCtrlAdd accepts fd events).1.registered (fd, filter) =
      if (proxy.kqrefs fd).events = (proxy.kqrefs fd).events ||| events then
        proxy.registered (fd, filter)
      else has events (kqEvent filter) ||
        (proxy.registered (fd, filter) && !has (proxy.kqrefs fd).events (kqEvent filter)) := by
  simp only [kqueueCtrlAdd, found, KqFdRef.attachEvents_events]
  rw [carryOut_accepted fun change _ => accepted change]
  refine ⟨rfl, rfl, ?_, fun filter => ?_⟩
  · dsimp only [setRef]
    rw [update_self, KqFdRef.attachEvents_kqobj]
  · dsimp only
    unfold addChanges
    split_ifs
    · rfl
    · rw [foldl_replace, if_pos rfl]

/-- An accepted removal takes exactly its events off. -/
theorem kqueueCtrlDel_accepted :
    (proxy.kqueueCtrlDel accepts fd events).2 = true ∧
    (proxy.kqueueCtrlDel accepts fd events).1.maxfd = proxy.maxfd ∧
    ((proxy.kqueueCtrlDel accepts fd events).1.kqrefs fd).kqobj = (proxy.kqrefs fd).kqobj ∧
    ((proxy.kqueueCtrlDel accepts fd events).1.kqrefs fd).events =
      (proxy.kqrefs fd).events &&& ~~~events ∧
    ∀ filter, (proxy.kqueueCtrlDel accepts fd events).1.registered (fd, filter) =
      if (proxy.kqrefs fd).events = (proxy.kqrefs fd).events &&& ~~~events then
        proxy.registered (fd, filter)
      else has ((proxy.kqrefs fd).events &&& ~~~events) (kqEvent filter) ||
        (proxy.registered (fd, filter) && !has (proxy.kqrefs fd).events (kqEvent filter)) := by
  have left : delEvents ((proxy.kqrefs fd).detachEvents events) events false =
      (proxy.kqrefs fd).events &&& ~~~events := rfl
  simp only [kqueueCtrlDel, kqueueCtrlDelRef, found, KqFdRef.detachEvents_events, left]
  rw [carryOut_accepted fun change _ => accepted change]
  refine ⟨rfl, rfl, ?_, ?_, fun filter => ?_⟩
  · dsimp only [setRef]
    rw [update_self, KqFdRef.detachEvents_kqobj]
  · dsimp only [setRef]
    rw [update_self]
  · dsimp only
    unfold delChanges
    split_ifs
    · rfl
    · rw [foldl_replace, if_pos rfl]

end

theorem Mirror.ctrlStep (mirror : proxy.Mirror) (accepted : proxy.Accepted request)
    (covers : proxy.Covers request.call) : (proxy.ctrlStep request).Mirror := by
  obtain ⟨call, accepts⟩ := request
  cases call with
  | add fd events => exact mirror.ctrlAdd accepted covers
  | delRef fd events useRef => exact mirror.ctrlDelRef accepted

theorem initKqueue_mirror (maxNum : Int) : (initKqueue maxNum).Mirror := by
  intro fd filter
  have none : has KqFdRef.new.events (kqEvent filter) = false := by cases filter <;> decide
  exact none.symm

/-- If every `ff_kevent` succeeds and every call that adds an event names those that are
recorded, the kqueue has the filters of the masks after each call. -/
theorem mirrors_of_covering (maxNum : Int) (requests : List CtrlRequest)
    (along : Along ctrlStep (fun proxy request =>
      proxy.Accepted request ∧ proxy.Covers request.call) (initKqueue maxNum) requests) :
    Along ctrlStep Mirrors (initKqueue maxNum) requests := by
  refine Along.imp Mirror (fun proxy request mirror here => ?_) (initKqueue_mirror maxNum) along
  have kept := mirror.ctrlStep here.1 here.2
  refine ⟨⟨kept, fun fd events isAdd succeeds filter asked => ?_⟩, kept⟩
  obtain ⟨call, accepts⟩ := request
  cases isAdd
  rw [kept fd filter]
  exact (congrArg (has · (kqEvent filter)) (kqueueCtrlAdd_events succeeds)).trans asked

/-- A read event, then both, then the write event is dropped. -/
theorem mirrors_readThenBoth :
    Along ctrlStep Mirrors (initKqueue 0)
      [⟨.add 5 kqEventRead, fun _ => true⟩, ⟨.add 5 (kqEventRead ||| kqEventWrite), fun _ => true⟩,
        ⟨.delRef 5 kqEventWrite false, fun _ => true⟩] := by
  refine mirrors_of_covering 0 _ ⟨⟨fun _ _ => rfl, .inr ?_⟩, ⟨fun _ _ => rfl, .inr ?_⟩,
    ⟨fun _ _ => rfl, trivial⟩, trivial⟩
  · intro filter
    cases filter <;> decide
  · intro filter
    cases filter <;> decide

/-- The read filter goes when the write event is added alone: the mask has both events. -/
theorem not_mirrors_writeAdded :
    ¬ Along ctrlStep Mirrors (initKqueue 0)
      [⟨.add 5 kqEventRead, fun _ => true⟩, ⟨.add 5 kqEventWrite, fun _ => true⟩] := by
  intro along
  have lost := along.2.1.mirror 5 .read
  revert lost
  decide


/-- A call that fails leaves everything as it was exactly if no `ff_kevent` is refused, or
those before it have touched nothing and no reference is dropped. -/
theorem atomic_iff (proxy : KqueueProxy) (request : CtrlRequest) :
    proxy.Atomic request ↔ proxy.Accepted request ∨ proxy.Untouched request := by
  obtain ⟨call, accepts⟩ := request
  cases call with
  | add fd events =>
    rcases proxy.kqFdRefGet_cases fd with found | found
    · simp [Atomic, Accepted, ctrlStep, ctrl, kqueueCtrlAdd, changes, found]
    · have isMade : proxy.made ⟨.add fd events, accepts⟩ =
          (addChanges (proxy.kqrefs fd).events events).takeWhile accepts := by
        simp only [made, changes, found]
      simp only [Atomic, Accepted, succeeds, ctrlStep, ctrl, kqueueCtrlAdd, changes, found,
        KqFdRef.attachEvents_events, KqFdRef.detachEvents_attachEvents]
      rw [carryOut_atomic_iff (by exact takeWhile_replace accepts _ _ _), ← isMade]
      -- the references are taken back on every failure
      refine or_congr_right ⟨fun ⟨_, added, deleted⟩ => ⟨added, deleted, ?_⟩,
        fun untouched => ⟨rfl, untouched.added, untouched.deleted⟩⟩
      intro _ _ _ other
      cases other
  | delRef fd events useRef =>
    rcases proxy.kqFdRefGet_cases fd with found | found
    · simp [Atomic, Accepted, ctrlStep, ctrl, kqueueCtrlDelRef, changes, found]
    · have isMade : proxy.made ⟨.delRef fd events useRef, accepts⟩ =
          (delChanges (proxy.kqrefs fd).events (delEvents
            ((proxy.kqrefs fd).detachEvents events) events useRef)).takeWhile accepts := by
        simp only [made, changes, found]
      simp only [Atomic, Accepted, succeeds, ctrlStep, ctrl, kqueueCtrlDelRef, changes, found,
        KqFdRef.detachEvents_events]
      rw [carryOut_atomic_iff (by exact takeWhile_replace accepts _ _ _), ← isMade,
        KqFdRef.detachEvents_eq_self_iff]
      refine or_congr_right ⟨fun ⟨unreferenced, added, deleted⟩ => ⟨added, deleted, ?_⟩,
        fun untouched => ⟨untouched.unreferenced fd events useRef rfl, untouched.added,
          untouched.deleted⟩⟩
      intro _ _ _ same
      cases same
      exact unreferenced

/-- A deleted filter comes back before the next one is refused. -/
theorem atomic_writeReturns :
    ((initKqueue 0).ctrlStep ⟨.add 5 kqEventWrite, fun _ => true⟩).Atomic
      ⟨.add 5 (kqEventRead ||| kqEventWrite), (· ≠ .add .read)⟩ := by
  refine (atomic_iff _ _).mpr (.inr ⟨fun filter => ?_, fun filter => ?_, ?_⟩)
  · cases filter <;> decide
  · cases filter <;> decide
  · intro _ _ _ other
    cases other

/-- The write filter stays registered when the read filter is refused after it, with a
mask that has neither; and a reference is gone when the deletion of its filter is refused. -/
theorem not_atomic_readRefused :
    ¬ (initKqueue 0).Atomic ⟨.add 5 (kqEventRead ||| kqEventWrite), (· ≠ .add .read)⟩ ∧
    ¬ ((initKqueue 0).ctrlStep ⟨.add 5 kqEventRead, fun _ => true⟩).Atomic
      ⟨.delRef 5 kqEventRead true, fun _ => false⟩ := by
  refine ⟨fun atomic => ?_, fun atomic => ?_⟩
  · have stays := congrArg (·.registered (5, .write)) (atomic (by decide))
    revert stays
    decide
  · have dropped := congrArg (fun proxy => (proxy.kqrefs 5).rdRef) (atomic (by decide))
    revert dropped
    decide

end KqueueProxy

end FStack.Micro
