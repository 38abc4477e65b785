import FStack.Micro.KqueueProxy

/-!
# Calls that wait for a descriptor

`MtFrame::read` and its siblings make an F-Stack call and, when it would block, wait:
`KqueueSchedule` registers an object that is a local variable of the call as the one to
notify for the descriptor, lets other threads run, and unregisters it. The object is gone
when the call goes on.

`KqueuerObj::KqueueCtlDel` puts the pointer back when the filters cannot be deleted, for
instance because another thread has closed the descriptor meanwhile.

Any thread may take its next step at any time. The local object of a call is anywhere in
the stack of its thread.
-/

namespace FStack.Micro

open Event (Filter has)
open Function (update update_apply update_eq_self update_idem update_of_ne update_self)
open KqueueProxy Maps Option Steps

/-- `KqueuerObj`. -/
structure KqueuerObj where
  ptr : ObjPtr
  fd : Int
  events : BitVec 32
  revents : BitVec 32
deriving DecidableEq, Repr

/-- The entry of a descriptor when an object has been added. -/
def KqFdRef.enter (item : KqFdRef) (obj : KqueuerObj) : KqFdRef :=
  { item.attachEvents obj.events with
    events := item.events ||| obj.events
    kqobj := some obj.ptr }

/-- The entry of a descriptor when an object has been deleted. -/
def KqFdRef.leave (item : KqFdRef) (obj : KqueuerObj) : KqFdRef :=
  { item.detachEvents obj.events with
    events := item.events &&& ~~~obj.events
    kqobj := none }

namespace KqueueProxy

def setNotifyObj (proxy : KqueueProxy) (fd : Int) (obj : Option ObjPtr) : KqueueProxy :=
  proxy.setRef fd { proxy.kqrefs fd with kqobj := obj }

/-- `KqueueNtfyReg`. -/
def kqueueNtfyReg (proxy : KqueueProxy) (fd : Int) (obj : Option ObjPtr) : KqueueProxy :=
  if (proxy.kqFdRefGet fd).isSome then proxy.setNotifyObj fd obj else proxy

end KqueueProxy

namespace KqueuerObj

/-- `KqueuerObj::KqueueCtlAdd`. -/
def kqueueCtlAdd (obj : KqueuerObj) (accepts : Change → Bool) (proxy : KqueueProxy) :
    KqueueProxy × Int :=
  let oldObj := (proxy.kqrefs obj.fd).kqobj
  if oldObj ≠ none ∧ oldObj ≠ some obj.ptr then (proxy, -1)
  else
    match (proxy.setNotifyObj obj.fd (some obj.ptr)).kqueueCtrlAdd accepts obj.fd obj.events with
    | (proxy, true) => (proxy, 0)
    | (proxy, false) => (proxy.setNotifyObj obj.fd oldObj, -2)

/-- `KqueuerObj::KqueueCtlDel`. -/
def kqueueCtlDel (obj : KqueuerObj) (accepts : Change → Bool) (proxy : KqueueProxy) :
    KqueueProxy × Int :=
  let oldObj := (proxy.kqrefs obj.fd).kqobj
  if oldObj ≠ some obj.ptr then (proxy, -1)
  else
    match (proxy.setNotifyObj obj.fd none).kqueueCtrlDelRef accepts obj.fd obj.events false with
    | (proxy, true) => (proxy, 0)
    | (proxy, false) => (proxy.setNotifyObj obj.fd oldObj, -2)

end KqueuerObj

namespace KqueueProxy

def kqueueAddObj (proxy : KqueueProxy) (accepts : Change → Bool) (obj : KqueuerObj) :
    KqueueProxy × Bool :=
  if (proxy.kqFdRefGet obj.fd).isNone then (proxy, false)
  else
    let (proxy, ret) := obj.kqueueCtlAdd accepts proxy
    (proxy, decide (0 ≤ ret))

def kqueueDelObj (proxy : KqueueProxy) (accepts : Change → Bool) (obj : KqueuerObj) :
    KqueueProxy × Bool :=
  if (proxy.kqFdRefGet obj.fd).isNone then (proxy, false)
  else
    let (proxy, ret) := obj.kqueueCtlDel accepts proxy
    (proxy, decide (0 ≤ ret))

/-- `KqueueDel`: all objects are deleted, whether or not one of them fails. -/
def kqueueDel (proxy : KqueueProxy) (accepts : KqueuerObj → Change → Bool) (objs : List KqueuerObj) :
    KqueueProxy × Bool :=
  objs.foldl (fun (proxy, ret) obj =>
    let (proxy, deleted) := proxy.kqueueDelObj (accepts obj) obj
    (proxy, ret && deleted)) (proxy, true)

/-- `KqueueAdd`; `added` are the objects before the one that is next. They are deleted
again when one fails. -/
def kqueueAdd (adds dels : KqueuerObj → Change → Bool) (proxy : KqueueProxy)
    (added : List KqueuerObj) : List KqueuerObj → KqueueProxy × Bool
  | [] => (proxy, true)
  | obj :: rest =>
    match proxy.kqueueAddObj (adds obj) obj with
    | (proxy, true) => kqueueAdd adds dels proxy (added ++ [obj]) rest
    | (proxy, false) => ((proxy.kqueueDel dels added).1, false)

end KqueueProxy

section Calls

/-- The calls that wait with a local object. -/
inductive CallKind where
  | read
  | write
  | recvfrom
  | sendto
  | connect
  | accept
  | recv
  | send
deriving DecidableEq, Repr

/-- What the F-Stack call answers: a result, or an errno. -/
inductive Sys where
  | ok (n : Nat)
  | eintr
  | eagain
  | einprogress
  | eisconn
  | error
deriving DecidableEq, Repr

/-- A call that is under way; `waiting` is its local object while it waits. -/
structure Call where
  kind : CallKind
  fd : Int
  nbyte : Nat
  sendLen : Nat
  waiting : Option KqueuerObj
deriving DecidableEq, Repr

/-- What a call does next. -/
inductive Move where
  | ret (value : Int)
  | again (call : Call)
  | wait (call : Call)
deriving DecidableEq, Repr

/-- `EnableInput` or `EnableOutput`. -/
def CallKind.events : CallKind → BitVec 32
  | .read | .recvfrom | .accept | .recv => kqEventRead
  | .write | .sendto | .connect | .send => kqEventWrite

/-- What a call returns when `KqueueSchedule` fails. -/
def CallKind.unscheduled : CallKind → Int
  | .recvfrom | .recv => -2
  | _ => -3

/-- The loops of `read`, `sendto` and `accept`, up to the wait. -/
def pollMove (call : Call) (late : Bool) : Sys → Move
  | .ok n => .ret n
  | .eintr => if late then .ret (-1) else .again call
  | .eagain => if late then .ret (-1) else .wait call
  | _ => if late then .ret (-1) else .ret (-2)

/-- The loop of `connect`, up to the wait. -/
def connectMove (call : Call) (late : Bool) : Sys → Move
  | .ok n => .ret n
  | .eisconn => if late then .ret (-1) else .ret 0
  | .eintr => if late then .ret (-1) else .again call
  | .einprogress => if late then .ret (-1) else .wait call
  | _ => if late then .ret (-1) else .ret (-2)

/-- The loops of `write` and `send`, up to the wait: what has been written is added up. -/
def writeMove (call : Call) (late : Bool) (sys : Sys) : Move :=
  if call.nbyte ≤ call.sendLen then .ret call.nbyte
  else if late then .ret (-1)
  else match sys with
    | .ok n =>
      if call.nbyte ≤ call.sendLen + n then .ret call.nbyte
      else .wait { call with sendLen := call.sendLen + n }
    | .eintr => .again call
    | .eagain => .wait call
    | _ => .ret (-2)

/-- From the head of the loop up to the wait. `late` says whether the test of the clock
finds the time-out passed. -/
def Call.head (call : Call) (late : Bool) (sys : Sys) : Move :=
  match call.kind with
  | .read | .sendto | .accept => pollMove call late sys
  | .connect => connectMove call late sys
  | .write | .send => writeMove call late sys
  | .recvfrom | .recv => if late then .ret (-1) else .wait call

/-- From a wait that succeeded to the end of the loop: only `recvfrom` and `recv` make
their call here. -/
def Call.tail (call : Call) (sys : Sys) : Move :=
  match call.kind with
  | .recvfrom | .recv => match sys with
      | .ok n => .ret n
      | .eintr | .eagain => .again call
      | _ => .ret (-3)
  | _ => .again call

end Calls

/-- The proxy, the calls that threads have under way, and what calls have returned. -/
structure Waits where
  proxy : KqueueProxy
  calls : Nat → Option Call
  returned : List (Nat × Int)

inductive WaitStep where
  /-- A thread makes a call; `valid` is the test of its other arguments. -/
  | enter (thread : Nat) (kind : CallKind) (fd : Int) (nbyte : Nat) (valid : Bool)
  /-- A call goes on from the head of its loop; an object to wait with is at `offset`. -/
  | run (thread : Nat) (late : Bool) (sys : Sys) (offset : Nat) (accepts : Change → Bool)
  /-- A call that waits goes on: it was notified, or its time is over. -/
  | resume (thread : Nat) (sys : Sys) (accepts : Change → Bool)
  /-- An event is dispatched; `revents` has those before it in the list as well. -/
  | event (fd : Int) (revents : BitVec 32) (error : Bool) (accepts : Change → Bool)
  /-- The descriptor goes, and its filters with it. -/
  | close (fd : Int)
  | ctrl (request : CtrlRequest)
  /-- An object that is not local to a call is added, deleted, or registered directly. -/
  | addObj (address : Nat) (fd : Int) (events : BitVec 32) (accepts : Change → Bool)
  | delObj (address : Nat) (fd : Int) (events : BitVec 32) (accepts : Change → Bool)
  | ntfyReg (fd : Int) (address : Option Nat)

namespace Waits

/-- The object that a thread waits with. -/
def waiting (waits : Waits) (thread : Nat) : Option KqueuerObj :=
  (waits.calls thread).bind (·.waiting)

def setCall (waits : Waits) (thread : Nat) (call : Option Call) : Waits :=
  { waits with calls := update waits.calls thread call }

/-- A call returns. -/
def leave (waits : Waits) (thread : Nat) (value : Int) : Waits :=
  { waits.setCall thread none with returned := waits.returned ++ [(thread, value)] }

/-- A call goes on at the head of its loop, without an object. -/
def goOn (waits : Waits) (thread : Nat) (call : Call) : Waits :=
  waits.setCall thread (some { call with waiting := none })

def enter (waits : Waits) (thread : Nat) (kind : CallKind) (fd : Int) (nbyte : Nat)
    (valid : Bool) : Waits :=
  if fd < 0 ∨ valid = false then waits.leave thread (-10)
  else waits.setCall thread (some ⟨kind, fd, nbyte, 0, none⟩)

/-- `KqueueSchedule` up to the switch. -/
def schedule (waits : Waits) (thread : Nat) (call : Call) (offset : Nat)
    (accepts : Change → Bool) : Waits :=
  let obj : KqueuerObj := ⟨.stack thread offset, call.fd, call.kind.events, 0⟩
  match waits.proxy.kqueueAdd (fun _ => accepts) (fun _ => accepts) [] [obj] with
  | (proxy, true) => { waits with proxy }.setCall thread (some { call with waiting := some obj })
  | (proxy, false) => { waits with proxy }.leave thread call.kind.unscheduled

/-- `KqueueSchedule` after the switch: the object is unregistered, and without an event
the wait has failed. -/
def unschedule (waits : Waits) (thread : Nat) (call : Call) (obj : KqueuerObj) (sys : Sys)
    (accepts : Change → Bool) : Waits :=
  let waits := { waits with proxy := (waits.proxy.kqueueDel (fun _ => accepts) [obj]).1 }
  if obj.revents = 0 then waits.leave thread call.kind.unscheduled
  else match call.tail sys with
    | .ret value => waits.leave thread value
    | .again call | .wait call => waits.goOn thread call

/-- `SetRcvEvents` of the object that a thread waits with. -/
def setRcvEvents (waits : Waits) (thread : Nat) (call : Call) (obj : KqueuerObj)
    (revents : BitVec 32) : Waits :=
  waits.setCall thread (some { call with waiting := some { obj with revents } })

/-- `KqueueRcvEventList` for one entry of the list. An event for nobody drops what is
listened for; `HangupNotify` does so for the events of the object. Nothing is said about
objects that are not local to a call: what they do comes as steps of its own. -/
def kqueueRcvEvent (waits : Waits) (fd : Int) (revents : BitVec 32) (error : Bool)
    (accepts : Change → Bool) : Waits :=
  match waits.proxy.kqFdRefGet fd with
  | none => waits
  | some item => match item.kqobj with
      | none => { waits with
          proxy := (waits.proxy.kqueueCtrlDel accepts fd
            (revents &&& (kqEventRead ||| kqEventWrite))).1 }
      | some (.lasting _) => waits
      | some (.stack thread offset) => match waits.calls thread with
          | none => waits
          | some call => match call.waiting with
              | none => waits
              | some obj =>
                if obj.ptr ≠ .stack thread offset then waits
                else if error then { waits.setRcvEvents thread call obj revents with
                  proxy := (waits.proxy.kqueueCtrlDel accepts obj.fd obj.events).1 }
                else waits.setRcvEvents thread call obj revents

def step (waits : Waits) : WaitStep → Waits
  | .enter thread kind fd nbyte valid => match waits.calls thread with
      | none => waits.enter thread kind fd nbyte valid
      | some _ => waits
  | .run thread late sys offset accepts => match waits.calls thread with
      | some call => match call.waiting with
          | none => match call.head late sys with
              | .ret value => waits.leave thread value
              | .again call => waits.goOn thread call
              | .wait call => waits.schedule thread call offset accepts
          | some _ => waits
      | none => waits
  | .resume thread sys accepts => match waits.calls thread with
      | some call => match call.waiting with
          | some obj => waits.unschedule thread call obj sys accepts
          | none => waits
      | none => waits
  | .event fd revents error accepts => waits.kqueueRcvEvent fd revents error accepts
  | .close fd => { waits with proxy := { waits.proxy with
      registered := fun key => waits.proxy.registered key && decide (key.1 ≠ fd) } }
  | .ctrl request => { waits with proxy := waits.proxy.ctrlStep request }
  | .addObj address fd events accepts => { waits with
      proxy := (waits.proxy.kqueueAddObj accepts ⟨.lasting address, fd, events, 0⟩).1 }
  | .delObj address fd events accepts => { waits with
      proxy := (waits.proxy.kqueueDelObj accepts ⟨.lasting address, fd, events, 0⟩).1 }
  | .ntfyReg fd address => { waits with
      proxy := waits.proxy.kqueueNtfyReg fd (address.map .lasting) }

/-- After `InitKqueue`. -/
def start (maxNum : Int) : Waits := ⟨.initKqueue maxNum, fun _ => none, []⟩

/-- A local object that an entry names is that of a call that waits. -/
def Names (waits : Waits) : Prop :=
  ∀ fd thread offset, (waits.proxy.kqrefs fd).kqobj = some (.stack thread offset) →
    ∃ obj, waits.waiting thread = some obj ∧ obj.ptr = .stack thread offset

/-- Where a call unregisters its object, no `ff_kevent` is refused. -/
def Unregisters (waits : Waits) : WaitStep → Prop
  | .resume thread _ accepts => ∀ obj ∈ waits.waiting thread,
      waits.proxy.Accepted ⟨.delRef obj.fd obj.events false, accepts⟩
  | _ => True

end Waits

namespace KqueueProxy

variable {proxy : KqueueProxy} {accepts : Change → Bool} {fd : Int} {obj : KqueuerObj}

/-- The objects to notify. -/
def notify (proxy : KqueueProxy) (fd : Int) : Option ObjPtr := (proxy.kqrefs fd).kqobj

/-- A descriptor that has an entry. -/
def Inside (proxy : KqueueProxy) (fd : Int) : Prop := ¬ (fd ≥ proxy.maxfd ∨ fd < 0)

theorem Inside.kqFdRefGet (inside : proxy.Inside fd) :
    proxy.kqFdRefGet fd = some (proxy.kqrefs fd) := if_neg inside

theorem Inside.of_maxfd (inside : proxy.Inside fd) (proxy' : KqueueProxy)
    (same : proxy'.maxfd = proxy.maxfd) : proxy'.Inside fd := by
  rwa [Inside, same]

theorem inside_of_isNone (found : ¬ (proxy.kqFdRefGet fd).isNone = true) : proxy.Inside fd :=
  fun outside => found (congrArg isNone (if_pos outside))

theorem inside_of_isSome (found : (proxy.kqFdRefGet fd).isSome = true) : proxy.Inside fd := by
  intro outside
  rw [kqFdRefGet, if_pos outside] at found
  cases found

theorem notify_setRef (proxy : KqueueProxy) (fd : Int) (item : KqFdRef) :
    (proxy.setRef fd item).notify = update proxy.notify fd item.kqobj := by
  funext other
  rcases eq_or_ne other fd with rfl | different
  · simp only [notify, setRef, update_self]
  · simp only [notify, setRef, update_of_ne different]

theorem notify_setNotifyObj (proxy : KqueueProxy) (fd : Int) (ptr : Option ObjPtr) :
    (proxy.setNotifyObj fd ptr).notify = update proxy.notify fd ptr := notify_setRef ..

/-- What a call on the masks leaves: the objects and the size of the table. -/
structure SameObjs (proxy proxy' : KqueueProxy) : Prop where
  notify : proxy'.notify = proxy.notify
  maxfd : proxy'.maxfd = proxy.maxfd

theorem SameObjs.refl (proxy : KqueueProxy) : SameObjs proxy proxy := ⟨rfl, rfl⟩

theorem setRef_sameObjs {item : KqFdRef} (same : item.kqobj = proxy.notify fd)
    (registered : Registered) : SameObjs proxy { proxy.setRef fd item with registered } := by
  refine ⟨(notify_setRef ..).trans ?_, rfl⟩
  rw [same, update_eq_self]

theorem carryOut_sameObjs {changes : List Change} {made refused : KqFdRef}
    (ofMade : made.kqobj = proxy.notify fd) (ofRefused : refused.kqobj = proxy.notify fd) :
    SameObjs proxy (proxy.carryOut accepts fd changes made refused).1 := by
  obtain ⟨registered, result | result⟩ :=
    proxy.carryOut_cases accepts fd changes made refused
  · rw [result]
    exact setRef_sameObjs ofMade registered
  · rw [result]
    exact setRef_sameObjs ofRefused registered

/-- Control calls do not change the objects that entries name. -/
theorem ctrl_sameObjs (proxy : KqueueProxy) (accepts : Change → Bool) (call : CtrlCall) :
    SameObjs proxy (proxy.ctrl accepts call).1 := by
  cases call with
  | add fd events =>
    rcases proxy.kqFdRefGet_cases fd with found | found
    · simp only [ctrl, kqueueCtrlAdd, found]
      exact .refl proxy
    · simp only [ctrl, kqueueCtrlAdd, found]
      exact carryOut_sameObjs rfl rfl
  | delRef fd events useRef =>
    rcases proxy.kqFdRefGet_cases fd with found | found
    · simp only [ctrl, kqueueCtrlDelRef, found]
      exact .refl proxy
    · simp only [ctrl, kqueueCtrlDelRef, found]
      exact carryOut_sameObjs rfl rfl

section

variable (proxy : KqueueProxy) (accepts : Change → Bool) (obj : KqueuerObj)

/-- The object is entered, or nothing has happened but to the kqueue. -/
theorem kqueueAddObj_eq :
    ∃ registered,
      (proxy.Inside obj.fd ∧ (proxy.notify obj.fd ≠ none → proxy.notify obj.fd = some obj.ptr) ∧
        proxy.kqueueAddObj accepts obj =
          ({ proxy.setRef obj.fd ((proxy.kqrefs obj.fd).enter obj) with registered }, true)) ∨
      proxy.kqueueAddObj accepts obj = ({ proxy with registered }, false) := by
  unfold kqueueAddObj
  split_ifs with outside
  · exact ⟨_, .inr rfl⟩
  · have inside := inside_of_isNone outside
    unfold KqueuerObj.kqueueCtlAdd
    dsimp only
    split_ifs with conflict
    · exact ⟨_, .inr rfl⟩
    · have entered : (proxy.setNotifyObj obj.fd (some obj.ptr)).Inside obj.fd :=
        inside.of_maxfd _ rfl
      obtain ⟨registered, made | refused⟩ :=
        kqueueCtrlAdd_cases entered.kqFdRefGet accepts obj.events
      · refine ⟨registered, .inl ⟨inside, fun some => by_contra fun other => conflict ⟨some, other⟩, ?_⟩⟩
        simp only [made]
        simp only [setNotifyObj, setRef, update_self, update_idem]
        rfl
      · refine ⟨registered, .inr ?_⟩
        -- the pointer that was there before is put back
        simp only [refused]
        simp only [setNotifyObj, setRef, update_self, update_idem, update_eq_self]
        rfl

/-- An object is entered, or nothing has happened to the objects. -/
theorem kqueueAddObj_cases :
    ((proxy.kqueueAddObj accepts obj).2 = true ∧ proxy.Inside obj.fd ∧
      (proxy.kqueueAddObj accepts obj).1.notify =
        update proxy.notify obj.fd (some obj.ptr) ∧
      (proxy.kqueueAddObj accepts obj).1.maxfd = proxy.maxfd) ∨
    ((proxy.kqueueAddObj accepts obj).2 = false ∧
      SameObjs proxy (proxy.kqueueAddObj accepts obj).1) := by
  obtain ⟨registered, ⟨inside, -, entered⟩ | refused⟩ := proxy.kqueueAddObj_eq accepts obj
  · rw [entered]
    exact .inl ⟨rfl, inside, notify_setRef .., rfl⟩
  · rw [refused]
    exact .inr ⟨rfl, rfl, rfl⟩

/-- An object is taken out, or nothing has happened to the objects. -/
theorem kqueueDelObj_cases :
    (proxy.Inside obj.fd ∧
      (proxy.kqueueDelObj accepts obj).1.notify = update proxy.notify obj.fd none ∧
      (proxy.kqueueDelObj accepts obj).1.maxfd = proxy.maxfd) ∨
    SameObjs proxy (proxy.kqueueDelObj accepts obj).1 := by
  unfold kqueueDelObj
  split_ifs with outside
  · exact .inr (.refl proxy)
  · unfold KqueuerObj.kqueueCtlDel
    dsimp only
    split_ifs with conflict
    · exact .inr (.refl proxy)
    · obtain ⟨notify, maxfd⟩ := (proxy.setNotifyObj obj.fd none).ctrl_sameObjs accepts
        (.delRef obj.fd obj.events false)
      rw [ctrl, notify_setNotifyObj] at notify
      split
      · rename_i deleted same
        rw [ctrl, same] at maxfd
        rw [same] at notify
        exact .inl ⟨inside_of_isNone outside, notify, maxfd⟩
      · rename_i deleted same
        rw [ctrl, same] at maxfd
        rw [same] at notify
        refine .inr ⟨?_, maxfd⟩
        rw [notify_setNotifyObj, notify, update_idem]
        exact update_eq_self obj.fd proxy.notify

/-- No object is named that was not before. -/
theorem kqueueDelObj_fewer :
    (proxy.kqueueDelObj accepts obj).1.maxfd = proxy.maxfd ∧
      ∀ fd ptr, (proxy.kqueueDelObj accepts obj).1.notify fd = some ptr →
        proxy.notify fd = some ptr := by
  rcases proxy.kqueueDelObj_cases accepts obj with ⟨-, taken, maxfd⟩ | ⟨same, maxfd⟩
  · refine ⟨maxfd, fun fd ptr named => ?_⟩
    rw [taken, update_none_iff] at named
    exact named.2
  · exact ⟨maxfd, fun fd ptr named => same ▸ named⟩

end

/-- An object that is taken off leaves its entry. -/
theorem kqueueDelObj_accepted (inside : proxy.Inside obj.fd)
    (named : proxy.notify obj.fd = some obj.ptr)
    (accepted : proxy.Accepted ⟨.delRef obj.fd obj.events false, accepts⟩) :
    ∃ registered, proxy.kqueueDelObj accepts obj =
      ({ proxy.setRef obj.fd ((proxy.kqrefs obj.fd).leave obj) with registered }, true) := by
  have cleared : (proxy.setNotifyObj obj.fd none).Inside obj.fd := inside.of_maxfd _ rfl
  have there : (proxy.setNotifyObj obj.fd none).kqrefs obj.fd =
      { proxy.kqrefs obj.fd with kqobj := none } := update_self ..
  simp only [Accepted, changes, inside.kqFdRefGet] at accepted
  have done : ∃ registered, (proxy.setNotifyObj obj.fd none).kqueueCtrlDelRef accepts obj.fd
      obj.events false = ({ (proxy.setNotifyObj obj.fd none).setRef obj.fd
        ((proxy.kqrefs obj.fd).leave obj) with registered }, true) := by
    rw [kqueueCtrlDelRef, cleared.kqFdRefGet, there]
    exact ⟨_, carryOut_accepted accepted⟩
  obtain ⟨registered, done⟩ := done
  refine ⟨registered, ?_⟩
  rw [kqueueDelObj, if_neg (by rw [inside.kqFdRefGet]; exact Bool.false_ne_true),
    KqueuerObj.kqueueCtlDel, if_neg (c := (proxy.kqrefs obj.fd).kqobj ≠ some obj.ptr)
      (not_not.mpr named)]
  simp only [done]
  simp only [setNotifyObj, setRef, update_idem]
  rfl

/-- An object that can be unregistered is no longer named. -/
theorem kqueueDelObj_forgets (inside : proxy.Inside obj.fd)
    (accepted : proxy.Accepted ⟨.delRef obj.fd obj.events false, accepts⟩) :
    (proxy.kqueueDelObj accepts obj).1.notify obj.fd ≠ some obj.ptr := by
  by_cases named : proxy.notify obj.fd = some obj.ptr
  · obtain ⟨registered, done⟩ := kqueueDelObj_accepted inside named accepted
    rw [done]
    simp [notify, setRef, KqFdRef.leave]
  · rcases proxy.kqueueDelObj_cases accepts obj with ⟨-, taken, -⟩ | same
    · rw [taken, update_self]
      exact (some_ne_none _).symm
    · rwa [same.notify]

end KqueueProxy

namespace Waits

variable {waits : Waits}

/-- The object that a thread waits with, by its address and descriptor. -/
def place (waits : Waits) (thread : Nat) : Option (ObjPtr × Int) :=
  (waits.waiting thread).map fun obj => (obj.ptr, obj.fd)

/-- A local object is named only for the descriptor that its call waits for, and objects
are only named by entries. -/
structure Sound (waits : Waits) : Prop where
  named : ∀ fd thread offset, waits.proxy.notify fd = some (.stack thread offset) →
    waits.place thread = some (.stack thread offset, fd)
  inside : ∀ fd ptr, waits.proxy.notify fd = some ptr → waits.proxy.Inside fd

theorem Sound.names (sound : waits.Sound) : waits.Names := by
  intro fd thread offset named
  have place := sound.named fd thread offset named
  unfold Waits.place at place
  rw [map_eq_some_iff] at place
  obtain ⟨obj, waiting, same⟩ := place
  exact ⟨obj, waiting, congrArg Prod.fst same⟩

variable {waits' : Waits} {thread : Nat}

/-- Only names and places matter. -/
theorem Sound.keep (sound : waits.Sound) (same : KqueueProxy.SameObjs waits.proxy waits'.proxy)
    (places : ∀ thread, waits'.place thread = waits.place thread) : waits'.Sound where
  named fd thread offset named := by
    rw [places]
    rw [same.notify] at named
    exact sound.named fd thread offset named
  inside fd ptr named := by
    rw [same.notify] at named
    exact (sound.inside fd ptr named).of_maxfd _ same.maxfd

/-- An entry gets an object that is not local to a call, or none. -/
theorem Sound.lasting (sound : waits.Sound) {fd : Int} {ptr : Option ObjPtr}
    (notify : waits'.proxy.notify = update waits.proxy.notify fd ptr)
    (maxfd : waits'.proxy.maxfd = waits.proxy.maxfd) (inside : waits.proxy.Inside fd)
    (notLocal : ∀ thread offset, ptr ≠ some (.stack thread offset))
    (places : ∀ thread, waits'.place thread = waits.place thread) : waits'.Sound where
  named other thread offset named := by
    rw [places]
    rw [notify] at named
    rcases eq_or_ne other fd with rfl | different
    · rw [update_self] at named
      exact absurd named (notLocal thread offset)
    · rw [update_of_ne different] at named
      exact sound.named other thread offset named
  inside other ptr' named := by
    rw [notify] at named
    rcases eq_or_ne other fd with rfl | different
    · exact inside.of_maxfd _ maxfd
    · rw [update_of_ne different] at named
      exact (sound.inside other ptr' named).of_maxfd _ maxfd

theorem place_setCall (waits : Waits) (thread : Nat) (call : Option Call) (other : Nat) :
    (waits.setCall thread call).place other =
      if other = thread then (call.bind (·.waiting)).map fun obj => (obj.ptr, obj.fd)
      else waits.place other := by
  simp only [place, waiting, setCall, update_apply]
  split_ifs <;> rfl

section

variable (sound : waits.Sound)

include sound

/-- A call that does not wait, before or after. -/
theorem Sound.setCall {call : Option Call} (before : waits.place thread = none)
    (after : call.bind (·.waiting) = none) : (waits.setCall thread call).Sound := by
  refine sound.keep (.refl waits.proxy) fun other => ?_
  rw [place_setCall]
  split_ifs with same
  · rw [after, same, before]
    rfl
  · rfl

theorem Sound.leave {value : Int} (before : waits.place thread = none) :
    (waits.leave thread value).Sound := by
  have kept : (waits.setCall thread none).Sound := sound.setCall before rfl
  exact ⟨kept.named, kept.inside⟩

/-- The proxy is changed by a call on the masks. -/
theorem Sound.setProxy {proxy : KqueueProxy} (same : KqueueProxy.SameObjs waits.proxy proxy) :
    { waits with proxy }.Sound :=
  sound.keep same fun _ => rfl

section

variable (maxfd : waits'.proxy.maxfd = waits.proxy.maxfd)
  (elsewhere : ∀ other, other ≠ thread → waits'.place other = waits.place other)

include maxfd elsewhere

/-- A thread that did not wait is entered for a descriptor. -/
theorem Sound.register {offset : Nat} {fd : Int} (idle : waits.place thread = none)
    (notify : waits'.proxy.notify = update waits.proxy.notify fd (some (.stack thread offset)))
    (inside : waits.proxy.Inside fd) (here : waits'.place thread = some (.stack thread offset, fd)) :
    waits'.Sound where
  named fd' other offset' named := by
    rw [notify] at named
    rcases update_some_iff.mp named with ⟨rfl, ⟨⟩⟩ | ⟨-, named⟩
    · exact here
    · have place := sound.named fd' other offset' named
      rcases eq_or_ne other thread with rfl | apart
      · rw [idle] at place
        cases place
      · rw [elsewhere other apart, place]
  inside fd' ptr named := by
    rw [notify] at named
    rcases eq_or_ne fd' fd with rfl | different
    · exact inside.of_maxfd _ maxfd
    · rw [update_of_ne different] at named
      exact (sound.inside fd' ptr named).of_maxfd _ maxfd

/-- A thread whose object is no longer named waits no more. -/
theorem Sound.unregister {obj : KqueuerObj} (waiting : waits.waiting thread = some obj)
    (fewer : ∀ fd ptr, waits'.proxy.notify fd = some ptr → waits.proxy.notify fd = some ptr)
    (gone : waits'.proxy.notify obj.fd ≠ some obj.ptr) : waits'.Sound where
  named fd other offset named := by
    have place := sound.named fd other offset (fewer _ _ named)
    rcases eq_or_ne other thread with rfl | apart
    · -- the entry would be that of the object that has been unregistered
      rw [Waits.place, waiting, map_some, some.injEq, Prod.mk.injEq] at place
      rw [← place.1, ← place.2] at named
      exact absurd named gone
    · rw [elsewhere other apart, place]
  inside fd ptr named := (sound.inside fd ptr (fewer _ _ named)).of_maxfd _ maxfd

end

/-- A thread that begins to wait is named for the descriptor it waits for. -/
theorem Sound.schedule (idle : waits.place thread = none) (call : Call) (offset : Nat)
    (accepts : Change → Bool) : (waits.schedule thread call offset accepts).Sound := by
  have cases := waits.proxy.kqueueAddObj_cases accepts
    ⟨.stack thread offset, call.fd, call.kind.events, 0⟩
  unfold Waits.schedule
  simp only [kqueueAdd]
  generalize waits.proxy.kqueueAddObj accepts _ = answer at cases ⊢
  obtain ⟨proxy, added⟩ := answer
  cases added with
  | true =>
    obtain ⟨-, inside, notify, maxfd⟩ | ⟨failed, -⟩ := cases
    · refine sound.register maxfd (fun other apart => ?_) idle notify inside ?_
      · rw [place_setCall, if_neg apart]
        rfl
      · rw [place_setCall, if_pos rfl]
        rfl
    · cases failed
  | false =>
    obtain ⟨added, -⟩ | ⟨-, same⟩ := cases
    · cases added
    · exact (sound.setProxy same).leave idle

end

/-- A thread that stops waiting is named no longer. -/
theorem Sound.unschedule (sound : waits.Sound) {obj : KqueuerObj}
    (waiting : waits.waiting thread = some obj) (call : Call) (sys : Sys) (accepts : Change → Bool)
    (accepted : waits.proxy.Accepted ⟨.delRef obj.fd obj.events false, accepts⟩) :
    (waits.unschedule thread call obj sys accepts).Sound := by
  obtain ⟨maxfd, fewer⟩ := waits.proxy.kqueueDelObj_fewer accepts obj
  have gone : (waits.proxy.kqueueDelObj accepts obj).1.notify obj.fd ≠ some obj.ptr := fun named =>
    kqueueDelObj_forgets (sound.inside _ _ (fewer _ _ named)) accepted named
  -- whatever the call does next, only its own thread is concerned
  have goesOn (call : Option Call) :
      ({ waits with proxy := (waits.proxy.kqueueDelObj accepts obj).1 }.setCall thread call).Sound := by
    refine sound.unregister maxfd (fun other apart => ?_) waiting fewer gone
    rw [place_setCall, if_neg apart]
    rfl
  have leaves (value : Int) :
      ({ waits with proxy := (waits.proxy.kqueueDelObj accepts obj).1 }.leave thread value).Sound :=
    ⟨(goesOn none).named, (goesOn none).inside⟩
  unfold Waits.unschedule
  split_ifs
  · exact leaves _
  · split
    · exact leaves _
    · exact goesOn _
    · exact goesOn _

/-- An event keeps the names sound, whatever it takes off. -/
theorem Sound.kqueueRcvEvent (sound : waits.Sound) (fd : Int) (revents : BitVec 32) (error : Bool)
    (accepts : Change → Bool) : (waits.kqueueRcvEvent fd revents error accepts).Sound := by
  have dropped (fd : Int) (events : BitVec 32) :
      KqueueProxy.SameObjs waits.proxy (waits.proxy.kqueueCtrlDel accepts fd events).1 :=
    waits.proxy.ctrl_sameObjs accepts (.delRef fd events false)
  unfold Waits.kqueueRcvEvent
  split
  · exact sound
  · split
    · exact sound.setProxy (dropped _ _)
    · exact sound
    · rename_i thread offset _
      split
      · exact sound
      · rename_i call called
        split
        · exact sound
        · rename_i obj waiting
          have places (other : Nat) :
              (waits.setRcvEvents thread call obj revents).place other = waits.place other := by
            rw [setRcvEvents, place_setCall]
            split_ifs with same
            · subst same
              simp only [place, Waits.waiting, called, bind_some, waiting]
              rfl
            · rfl
          split_ifs
          · exact sound
          · exact sound.keep (dropped _ _) places
          · exact sound.keep (.refl _) places

/-- Every step that unregisters what it leaves keeps the names sound. -/
theorem Sound.step (sound : waits.Sound) (next : WaitStep) (unregisters : waits.Unregisters next) :
    (waits.step next).Sound := by
  cases next with
  | enter thread kind fd nbyte valid =>
    simp only [Waits.step]
    cases called : waits.calls thread with
    | none =>
      have idle : waits.place thread = none := by
        rw [place, waiting, called]
        rfl
      unfold enter
      split_ifs
      · exact sound.leave idle
      · exact sound.setCall idle rfl
    | some call => exact sound
  | run thread late sys offset accepts =>
    simp only [Waits.step]
    cases called : waits.calls thread with
    | none => exact sound
    | some call =>
      dsimp only
      cases awake : call.waiting with
      | none =>
        have idle : waits.place thread = none := by
          rw [place, waiting, called, bind_some, awake]
          rfl
        cases call.head late sys with
        | ret value => exact sound.leave idle
        | again call => exact sound.setCall idle rfl
        | wait call => exact sound.schedule idle ..
      | some obj => exact sound
  | resume thread sys accepts =>
    simp only [Waits.step]
    cases called : waits.calls thread with
    | none => exact sound
    | some call =>
      dsimp only
      cases asleep : call.waiting with
      | none => exact sound
      | some obj =>
        have waiting : waits.waiting thread = some obj := by
          rw [waiting, called, bind_some, asleep]
        exact sound.unschedule waiting call sys accepts (unregisters obj waiting)
  | event fd revents error accepts => exact sound.kqueueRcvEvent ..
  | close fd => exact sound.keep ⟨rfl, rfl⟩ fun _ => rfl
  | ctrl request => exact sound.setProxy (waits.proxy.ctrl_sameObjs ..)
  | addObj address fd events accepts =>
    rcases waits.proxy.kqueueAddObj_cases accepts ⟨.lasting address, fd, events, 0⟩ with
      ⟨-, inside, notify, maxfd⟩ | ⟨-, same⟩
    · exact sound.lasting notify maxfd inside (fun _ _ => by rintro ⟨⟩) fun _ => rfl
    · exact sound.setProxy same
  | delObj address fd events accepts =>
    rcases waits.proxy.kqueueDelObj_cases accepts ⟨.lasting address, fd, events, 0⟩ with
      ⟨inside, notify, maxfd⟩ | same
    · exact sound.lasting notify maxfd inside (fun _ _ => by rintro ⟨⟩) fun _ => rfl
    · exact sound.setProxy same
  | ntfyReg fd address =>
    simp only [Waits.step, kqueueNtfyReg]
    split_ifs with found
    · refine sound.lasting (waits.proxy.notify_setNotifyObj fd _) rfl
        (inside_of_isSome found) (fun _ _ => ?_) fun _ => rfl
      cases address <;> rintro ⟨⟩
    · exact sound

theorem start_sound (maxNum : Int) : (start maxNum).Sound where
  named _ _ _ named := by cases named
  inside _ _ named := by cases named

/-- If no `ff_kevent` is refused where a call unregisters its object, an entry never names
the local object of a call that has returned or gone on. -/
theorem names_of_unregisters (maxNum : Int) (steps : List WaitStep)
    (along : Along step Unregisters (start maxNum) steps) :
    Along step (fun waits next => (waits.step next).Names) (start maxNum) steps :=
  Along.imp Sound (fun _ next sound unregisters =>
    have kept := sound.step next unregisters
    ⟨kept.names, kept⟩) (start_sound maxNum) along

/-- A `read` that runs into its time-out. -/
theorem names_readInTime :
    Along step (fun waits next => (waits.step next).Names) (start 0)
      [.enter 1 .read 5 100 true, .run 1 false .eagain 40 fun _ => true,
        .resume 1 .eagain fun _ => true] :=
  names_of_unregisters 0 _ ⟨trivial, trivial, fun _ _ _ _ => rfl, trivial⟩

/-- Another thread closes the descriptor of a `read` that waits: its filter is gone and
cannot be deleted, the `read` returns `-3`, and the entry names its object still. -/
theorem not_names_closedMeanwhile :
    (Waits.returned <| [WaitStep.enter 1 .read 5 100 true, .run 1 false .eagain 40 fun _ => true,
      .close 5, .resume 1 .eagain fun _ => false].foldl step (start 0)) = [(1, -3)] ∧
    ¬ Along step (fun waits next => (waits.step next).Names) (start 0)
      [.enter 1 .read 5 100 true, .run 1 false .eagain 40 fun _ => true,
        .close 5, .resume 1 .eagain fun _ => false] := by
  refine ⟨by decide, fun along => ?_⟩
  obtain ⟨obj, waiting, -⟩ := along.2.2.2.1 5 1 40 (by decide)
  cases waiting

end Waits

end FStack.Micro
