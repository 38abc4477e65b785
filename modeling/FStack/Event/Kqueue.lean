import Mathlib.Data.BitVec

/-!
# Kqueues

A kqueue holds a knote for every descriptor and filter that a change has added, and
queues the knotes that are active. `kevent` applies changes, in order until the first
that fails, and then takes what is reported off the queue.

There is one thread, so that no knote is ever found in flux. Files are what they
are at the time of a call: what `fget`, `f_attach` and `f_event` answer is given
with each call.
-/

namespace FStack.Event

open Function

/-- `EVFILT_READ` and `EVFILT_WRITE`. -/
inductive Filter where
  | read
  | write
deriving DecidableEq, Repr

section Flags

def evAdd : BitVec 16 := 0x0001
def evDelete : BitVec 16 := 0x0002
def evEnable : BitVec 16 := 0x0004
def evDisable : BitVec 16 := 0x0008
def evOneshot : BitVec 16 := 0x0010
def evClear : BitVec 16 := 0x0020
def evReceipt : BitVec 16 := 0x0040
def evDispatch : BitVec 16 := 0x0080
def evForceOneshot : BitVec 16 := 0x0100
def evSysflags : BitVec 16 := 0xf000
def evDrop : BitVec 16 := 0x1000
def evError : BitVec 16 := 0x4000
def evEof : BitVec 16 := 0x8000

/-- Whether a word has a bit of a mask. -/
def has {w : Nat} (word mask : BitVec w) : Bool := word &&& mask != 0

theorem has_or {w : Nat} (first second mask : BitVec w) :
    has (first ||| second) mask = (has first mask || has second mask) := by
  rw [Bool.eq_iff_iff]
  simp only [has, bne_iff_ne, Bool.or_eq_true]
  rw [← not_and_or, not_iff_not, BitVec.and_or_distrib_right]
  exact BitVec.or_eq_zero_iff

end Flags

/-- `struct kevent`. -/
structure Kevent where
  ident : BitVec 64
  filter : Filter
  flags : BitVec 16
  fflags : BitVec 32
  data : BitVec 64
  udata : BitVec 64
deriving DecidableEq, Repr

/-- What identifies a knote. -/
abbrev Key := BitVec 64 × Filter

def Kevent.key (kev : Kevent) : Key := (kev.ident, kev.filter)

/-- `struct knote`: the rest of its kevent, and of its status `KN_ACTIVE` and
`KN_DISABLED`. A knote is `KN_QUEUED` when the queue has its key. -/
structure Knote where
  flags : BitVec 16
  fflags : BitVec 32
  data : BitVec 64
  udata : BitVec 64
  active : Bool
  disabled : Bool
deriving DecidableEq, Repr

/-- The kevent of a knote. -/
def Knote.kevent (kn : Knote) (key : Key) : Kevent where
  ident := key.1
  filter := key.2
  flags := kn.flags
  fflags := kn.fflags
  data := kn.data
  udata := kn.udata

/-- `struct kqueue`. -/
structure Kqueue where
  knotes : Key → Option Knote
  head : List Key

/-- A new kqueue. -/
def Kqueue.empty : Kqueue where
  knotes _ := none
  head := []

inductive Errno where
  | einval
  | ebadf
  | enoent
  | attach (code : Nat)
deriving DecidableEq, Repr

/-- What `f_event` finds at a socket: whether the filter fires, `kn_data`, and with
`EV_EOF` the error of the socket. -/
structure Report where
  fires : Bool
  data : BitVec 64
  eof : Option (BitVec 32)
deriving DecidableEq, Repr

/-- The files at the time of a call. -/
structure Files where
  fget : BitVec 64 → Bool
  isKqueue : BitVec 64 → Bool
  attach : Key → Option Errno
  event : Key → Report

/-- `f_event`: `filt_soread` or `filt_sowrite`. -/
def Knote.fEvent (kn : Knote) (report : Report) : Knote :=
  match report.eof with
  | none => { kn with data := report.data }
  | some error =>
    { kn with data := report.data, flags := kn.flags ||| evEof, fflags := error }

/-- Storing a knote, and `knote_enqueue` where it is active, not disabled and not yet
queued. -/
def Kqueue.put (key : Key) (kn : Knote) (kq : Kqueue) : Kqueue where
  knotes := update kq.knotes key (some kn)
  head := if kn.active && !kn.disabled && !kq.head.contains key then kq.head ++ [key] else kq.head

/-- `KNOTE_ACTIVATE`. -/
def knoteActivate (key : Key) (kn : Knote) (kq : Kqueue) : Kqueue :=
  kq.put key { kn with active := true }

/-- `knote_drop`. -/
def knoteDrop (key : Key) (kq : Kqueue) : Kqueue where
  knotes := update kq.knotes key none
  head := kq.head.erase key

/-- The knote that `kqueue_register` makes of a change. -/
def newKnote (kev : Kevent) : Knote where
  flags := kev.flags &&& ~~~(evAdd ||| evDelete ||| evEnable ||| evDisable ||| evForceOneshot)
  fflags := 0
  data := 0
  udata := kev.udata
  active := false
  disabled := false

/-- `kqueue_register` from `done_ev_add` on. -/
def doneEvAdd (files : Files) (kev : Kevent) (kn : Knote) (kq : Kqueue) : Kqueue :=
  let disabled :=
    if has kev.flags evEnable then false else if has kev.flags evDisable then true else kn.disabled
  let kn := { kn with disabled := disabled }
  if disabled then kq.put kev.key kn
  else
    let report := files.event kev.key
    let kn := kn.fEvent report
    kq.put kev.key { kn with active := kn.active || report.fires }

/-- `kqueue_register` for a filter on a descriptor. `kqueue_expand` may wait and does
not fail. -/
def kqueueRegister (files : Files) (kev : Kevent) (kq : Kqueue) : Kqueue × Option Errno :=
  if has kev.flags evEnable && has kev.flags evDisable then (kq, some .einval)
  else if 0x7fffffff < kev.ident || !files.fget kev.ident then (kq, some .ebadf)
  else if files.isKqueue kev.ident then (kq, some .einval)
  else
    match kq.knotes kev.key with
    | none =>
      if has kev.flags evAdd then
        match files.attach kev.key with
        | some error => (kq, some error)
        | none => (doneEvAdd files kev (newKnote kev) kq, none)
      else (kq, some .enoent)
    | some kn =>
      if has kev.flags evDelete then (knoteDrop kev.key kq, none)
      else if has kev.flags evForceOneshot then
        let kn := { kn with flags := kn.flags ||| evOneshot }
        let kq := knoteActivate kev.key kn kq
        (doneEvAdd files kev { kn with active := true, udata := kev.udata } kq, none)
      else (doneEvAdd files kev { kn with udata := kev.udata } kq, none)

/-- A change without the flags that only the system sets. -/
def Kevent.masked (kev : Kevent) : Kevent := { kev with flags := kev.flags &&& ~~~evSysflags }

/-- What `kevent` does with a list of changes: the kqueue, how many it has accepted,
and the error. -/
structure Applied where
  kq : Kqueue
  accepted : Nat
  error : Option Errno

/-- The changes of `kqueue_kevent`, with no room for events. -/
def kqueueChanges (files : Files) : List Kevent → Kqueue → Applied
  | [], kq => ⟨kq, 0, none⟩
  | kev :: rest, kq =>
    match kqueueRegister files kev.masked kq with
    | (kq, some error) => ⟨kq, 0, some error⟩
    | (kq, none) =>
      if has kev.masked.flags evReceipt then ⟨kq, 1, none⟩
      else
        let applied := kqueueChanges files rest kq
        { applied with accepted := applied.accepted + 1 }

/-- What `kqueue_scan` does with a knote that it has taken off the queue. -/
def scanKnote (files : Files) (key : Key) (kq : Kqueue) : Kqueue × Option Kevent :=
  match kq.knotes key with
  | none => (kq, none)
  | some kn =>
    if kn.disabled then (kq, none)
    else if has kn.flags evDrop then (knoteDrop key kq, none)
    else if has kn.flags evOneshot then (knoteDrop key kq, some (kn.kevent key))
    else
      let report := files.event key
      let kn := kn.fEvent report
      if !report.fires then
        ({ kq with knotes := update kq.knotes key (some { kn with active := false }) },
          none)
      else if has kn.flags (evClear ||| evDispatch) then
        let cleared :=
          if has kn.flags evClear then { kn with data := 0, fflags := 0 } else kn
        let disabled := cleared.disabled || has kn.flags evDispatch
        ({ kq with
            knotes := update kq.knotes key
              (some { cleared with active := false, disabled := disabled }) },
          some (kn.kevent key))
      else
        ({ knotes := update kq.knotes key (some kn), head := kq.head ++ [key] },
          some (kn.kevent key))

/-- The loop of `kqueue_scan` over what is queued before its marker. What it puts back
stands behind the marker: that is the queue of `kq` here. Where it has reported
nothing when it meets the marker, the queue is empty and it is done as well. -/
def kqueueScan (files : Files) : List Key → Nat → Kqueue → Kqueue × List Kevent
  | [], _, kq => (kq, [])
  | key :: queue, 0, kq => ({ kq with head := key :: queue ++ kq.head }, [])
  | key :: queue, count + 1, kq =>
    match scanKnote files key kq with
    | (kq, none) => kqueueScan files queue (count + 1) kq
    | (kq, some kev) =>
      let (kq, kevs) := kqueueScan files queue count kq
      (kq, kev :: kevs)

/-- `kqueue_scan`, which does not wait: the timeout is zero. -/
def kqueueEvents (files : Files) (maxevents : Nat) (kq : Kqueue) : Kqueue × List Kevent :=
  kqueueScan files kq.head maxevents { kq with head := [] }

/-- `knote`, which a socket calls for the knotes on it. -/
def knote (files : Files) (key : Key) (kq : Kqueue) : Kqueue :=
  match kq.knotes key with
  | none => kq
  | some kn =>
    let report := files.event key
    let kn := kn.fEvent report
    if report.fires then knoteActivate key kn kq
    else { kq with knotes := update kq.knotes key (some kn) }

/-- `knote_fdclose`. -/
def knoteFdclose (ident : BitVec 64) (kq : Kqueue) : Kqueue :=
  knoteDrop (ident, .write) (knoteDrop (ident, .read) kq)

end FStack.Event
