import FStack.Event.Kqueue

/-!
# epoll over kqueue

`ff_epoll_ctl` turns a registration into two changes, one for each filter, and
`ff_epoll_wait` turns every kevent that is reported into an entry of its own. The
kevents of one descriptor are not merged. An epoll data of `NULL` stands for the
descriptor.
-/

namespace FStack.Event

section Flags

def epollin : BitVec 32 := 0x001
def epollout : BitVec 32 := 0x004
def epollerr : BitVec 32 := 0x008
def epollhup : BitVec 32 := 0x010
def epolloneshot : BitVec 32 := 0x40000000
def epollet : BitVec 32 := 0x80000000

def epollCtlAdd : Int := 1
def epollCtlDel : Int := 2
def epollCtlMod : Int := 3

end Flags

/-- `struct epoll_event`; `data.ptr` is all of `data`, and `data.fd` its low half. -/
structure EpollEvent where
  events : BitVec 32
  data : BitVec 64
deriving DecidableEq, Repr

/-- The event that asks for a filter. -/
def Filter.event : Filter → BitVec 32
  | .read => epollin
  | .write => epollout

section Ctl

/-- The flags of a registration, for both filters. -/
def ctlFlags (op : Int) (events : BitVec 32) : BitVec 16 :=
  let flags := 0
  let flags := if has events epollet then flags ||| evClear else flags
  let flags := if has events epolloneshot then flags ||| evOneshot else flags
  if op = epollCtlAdd then flags ||| evAdd else flags

/-- `read_flags` and `write_flags`. -/
def filterFlags (filter : Filter) (op : Int) (events : BitVec 32) : BitVec 16 :=
  let flags := ctlFlags op events ||| evDisable
  if has events filter.event then flags &&& ~~~evDisable ||| evEnable else flags

/-- The change of a registration for one filter. -/
def setChange (filter : Filter) (op : Int) (fd : BitVec 32) (event : EpollEvent) : Kevent where
  ident := fd.signExtend 64
  filter := filter
  flags := filterFlags filter op event.events
  fflags := 0
  data := 0
  udata := event.data

/-- The change that deletes one filter. -/
def deleteChange (filter : Filter) (fd : BitVec 32) : Kevent where
  ident := fd.signExtend 64
  filter := filter
  flags := evDelete
  fflags := 0
  data := 0
  udata := 0

/-- `ff_epoll_ctl`. It returns -1 with an error, and 0 otherwise. -/
def ffEpollCtl (files : Files) (op : Int) (fd : BitVec 32) (event : Option EpollEvent)
    (kq : Kqueue) : Applied :=
  if (event.isNone && op ≠ epollCtlDel) ||
      (op ≠ epollCtlAdd && op ≠ epollCtlMod && op ≠ epollCtlDel) then ⟨kq, 0, some .einval⟩
  else if op = epollCtlDel then
    kqueueChanges files [deleteChange .read fd, deleteChange .write fd] kq
  else
    match event with
    | none => ⟨kq, 0, some .einval⟩
    | some event => kqueueChanges files [setChange .read op fd event, setChange .write op fd event] kq

end Ctl

section Wait

/-- The events of an entry. -/
def eventOne (kev : Kevent) : BitVec 32 :=
  let eventOne : BitVec 32 :=
    match kev.filter with
    | .read => if kev.data != 0 || !has kev.flags evEof then epollin else 0
    | .write => epollout
  let eventOne := if has kev.flags evError then eventOne ||| epollerr else eventOne
  if has kev.flags evEof then
    let eventOne := eventOne ||| epollhup
    let eventOne := if kev.fflags != 0 then eventOne ||| epollerr else eventOne
    match kev.filter with
    | .read => eventOne ||| epollin
    | .write => eventOne ||| epollerr
  else eventOne

/-- What the conversion stores in an entry. `data.fd` leaves the upper half of `data`. -/
def entryOf (kev : Kevent) (old : EpollEvent) : EpollEvent where
  events := eventOne kev
  data :=
    if kev.udata != 0 then kev.udata else old.data.extractLsb' 32 32 ++ kev.ident.setWidth 32

/-- The entries of the caller, and the one that the conversion stores next. -/
structure EventList where
  slots : Nat → EpollEvent
  next : Nat

/-- `ff_event_to_epoll`. -/
def ffEventToEpoll (list : EventList) (kev : Kevent) : EventList where
  slots := Function.update list.slots list.next (entryOf kev (list.slots list.next))
  next := list.next + 1

/-- `ff_epoll_wait`: the number of entries and the entries. The timeout is not used. -/
def ffEpollWait (files : Files) (events : Option (Nat → EpollEvent)) (maxevents _timeout : Int)
    (kq : Kqueue) : Kqueue × Except Errno (Nat × (Nat → EpollEvent)) :=
  match events with
  | none => (kq, .error .einval)
  | some events =>
    if maxevents < 1 then (kq, .error .einval)
    else
      let (kq, kevs) := kqueueEvents files maxevents.toNat kq
      (kq, .ok (kevs.length, (kevs.foldl ffEventToEpoll ⟨events, 0⟩).slots))

end Wait

section Histories

/-- A call of `ff_epoll_ctl` that registers, and how many of its changes were accepted:
that of the read filter is the first. -/
structure Registration where
  fd : BitVec 32
  event : EpollEvent
  accepted : Nat
deriving DecidableEq, Repr

/-- An epoll instance and the registrations so far. -/
structure Epoll where
  kq : Kqueue
  log : List Registration

/-- What happens to an epoll instance: calls, a socket that calls `knote`, and the end
of a descriptor. -/
inductive EpollCall where
  | ctl (op : Int) (fd : BitVec 32) (event : Option EpollEvent)
  | wait (events : Option (Nat → EpollEvent)) (maxevents timeout : Int)
  | wakeup (key : Key)
  | close (fd : BitVec 32)

/-- The registrations of a call, if any. -/
def registrations (op : Int) (fd : BitVec 32) (event : Option EpollEvent) (accepted : Nat) :
    List Registration :=
  if op = epollCtlDel then [] else event.toList.map fun event => ⟨fd, event, accepted⟩

def Epoll.step (epoll : Epoll) (now : Files × EpollCall) : Epoll :=
  match now with
  | (files, .ctl op fd event) =>
    let applied := ffEpollCtl files op fd event epoll.kq
    { kq := applied.kq, log := epoll.log ++ registrations op fd event applied.accepted }
  | (files, .wait events maxevents timeout) =>
    { epoll with kq := (ffEpollWait files events maxevents timeout epoll.kq).1 }
  | (files, .wakeup key) => { epoll with kq := knote files key epoll.kq }
  | (_, .close fd) => { epoll with kq := knoteFdclose (fd.signExtend 64) epoll.kq }

/-- An epoll instance after a history, from `ff_epoll_create` on. -/
def Epoll.run (history : List (Files × EpollCall)) : Epoll :=
  history.foldl Epoll.step ⟨.empty, []⟩

/-- The place of a filter among the changes of a call. -/
def Filter.index : Filter → Nat
  | .read => 0
  | .write => 1

/-- A descriptor and one of its filters. -/
abbrev Interest := BitVec 32 × Filter

/-- Whether a call has registered an event for a filter of a descriptor. -/
def Registration.reaches (registration : Registration) (interest : Interest) : Bool :=
  registration.fd = interest.1 && interest.2.index < registration.accepted

/-- The event that was registered last for a filter of a descriptor. -/
def registered (log : List Registration) (interest : Interest) : Option EpollEvent :=
  ((log.filter (·.reaches interest)).getLast?).map Registration.event

end Histories

end FStack.Event
