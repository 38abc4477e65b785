import FStack.Micro.HeapList

/-!
# The micro-thread frame

`MtFrame` schedules micro threads in one process: the active thread runs until it sleeps,
waits for I/O, pends for its sub threads or returns, and `ThreadSchdule` then takes the next
one off the run list, or the daemon if there is none. The daemon dispatches events and wakes
up sleepers whose time has come. Threads come from a pool and go back to it.

The threads are numbers; their fields are functions of the number. An `ASSERT` whose
condition is false is recorded in `failed`.
-/

namespace FStack.Micro

open Function

inductive ThreadType
  | normal
  | primordial
  | daemon
  | subThread
  deriving DecidableEq, Repr

inductive ThreadFlag
  | freeList
  | ioList
  | sleepList
  | runList
  | pendList
  | subList
  deriving DecidableEq, Repr

inductive ThreadState
  | initial
  | runable
  | running
  | sleeping
  | pending
  deriving DecidableEq, Repr

/-- `DEFAULT_THREAD_NUM`. -/
def initialThreadNum : Nat := 5000

structure MtFrame where
  -- the fields of the threads
  flag : Nat → ThreadFlag → Bool
  state : Nat → ThreadState
  type : Nat → ThreadType
  wakeupTime : Nat → Nat
  parent : Nat → Option Nat
  subList : Nat → List Nat
  -- the threads that have been made and not deleted, and the next one to be made
  threads : List Nat
  next : Nat
  -- `ThreadPool`
  freelist : List Nat
  totalNum : Int
  useNum : Int
  maxNum : Int
  defaultThreadNum : Nat
  lastDefaultThreadNum : Nat
  -- `MtFrame`
  daemon : Nat
  active : Nat
  lastClock : Nat
  runlist : List Nat
  waitnum : Int
  iolist : List Nat
  pendList : List Nat
  sleeplist : HeapList Nat
  failed : Bool

namespace MtFrame

section Threads

/-- `ASSERT`. -/
def check (frame : MtFrame) (condition : Bool) : MtFrame :=
  { frame with failed := frame.failed || !condition }

/-- `SetFlag` and `UnsetFlag`. -/
def setFlag (frame : MtFrame) (thread : Nat) (flag : ThreadFlag) (value : Bool) : MtFrame :=
  { frame with
    flag := update frame.flag thread (update (frame.flag thread) flag value) }

def setState (frame : MtFrame) (thread : Nat) (state : ThreadState) : MtFrame :=
  { frame with state := update frame.state thread state }

def setType (frame : MtFrame) (thread : Nat) (type : ThreadType) : MtFrame :=
  { frame with type := update frame.type thread type }

def setWakeupTime (frame : MtFrame) (thread : Nat) (time : Nat) : MtFrame :=
  { frame with wakeupTime := update frame.wakeupTime thread time }

/-- What the constructor and `CleanState` put into the fields. -/
def cleanState (frame : MtFrame) (thread : Nat) (type : ThreadType) : MtFrame :=
  { frame with
    flag := update frame.flag thread fun _ => false
    type := update frame.type thread type
    state := update frame.state thread .initial
    parent := update frame.parent thread none
    subList := update frame.subList thread [] }

/-- `new MicroThread(type)`. -/
def newThread (frame : MtFrame) (type : ThreadType) : MtFrame :=
  let thread := frame.next
  let frame := { frame with threads := thread :: frame.threads, next := thread + 1 }
  (frame.cleanState thread type).setWakeupTime thread 0

/-- `Reset`. -/
def reset (frame : MtFrame) (thread : Nat) : MtFrame :=
  (frame.setWakeupTime thread 0).cleanState thread .normal

/-- `delete thread`; nothing is left of its flags. -/
def delete (frame : MtFrame) (thread : Nat) : MtFrame :=
  { frame with
    threads := frame.threads.erase thread
    flag := update frame.flag thread fun _ => false }

def addSubThread (frame : MtFrame) (thread sub : Nat) : MtFrame :=
  let frame := frame.check (!frame.flag sub .subList)
  let frame :=
    if frame.flag sub .subList then frame
    else { frame with
      subList := update frame.subList thread (frame.subList thread ++ [sub])
      parent := update frame.parent sub (some thread) }
  frame.setFlag sub .subList true

def removeSubThread (frame : MtFrame) (thread sub : Nat) : MtFrame :=
  let frame := frame.check (frame.flag sub .subList)
  let frame :=
    if frame.flag sub .subList then
      { frame with
        subList := update frame.subList thread ((frame.subList thread).erase sub)
        parent := update frame.parent sub none }
    else frame
  frame.setFlag sub .subList false

end Threads

section Pool

/-- `AllocThread`; `memory` is whether `new` and `Initial` succeed. -/
def allocThread (frame : MtFrame) (memory : Bool) : MtFrame × Option Nat :=
  match frame.freelist with
  | thread :: rest =>
    let frame := { frame with freelist := rest }
    let frame := frame.check (frame.flag thread .freeList)
    let frame := frame.setFlag thread .freeList false
    ({ frame with useNum := frame.useNum + 1 }, some thread)
  | [] =>
    if frame.totalNum ≥ frame.maxNum then (frame, none)
    else if !memory then (frame, none)
    else
      let thread := frame.next
      let frame := frame.newThread .normal
      let frame := { frame with totalNum := frame.totalNum + 1, useNum := frame.useNum + 1 }
      let size : Nat := frame.defaultThreadNum
      if frame.useNum > (size : Int) ∧ (size : Int) * 2 < frame.maxNum then
        ({ frame with lastDefaultThreadNum := size, defaultThreadNum := size * 2 }, some thread)
      else (frame, some thread)

/-- The pool gives a free thread back if it has more than it should. -/
def trimPool (frame : MtFrame) : MtFrame :=
  match frame.freelist with
  | [] => frame
  | thread :: rest =>
    if frame.freelist.length > frame.defaultThreadNum ∧ frame.freelist.length > 1 then
      let frame := { frame with freelist := rest }.delete thread
      let frame := { frame with totalNum := frame.totalNum - 1 }
      let size := frame.defaultThreadNum
      if size / 2 ≥ initialThreadNum then
        { frame with lastDefaultThreadNum := size, defaultThreadNum := size / 2 }
      else frame
    else frame

def freeThread (frame : MtFrame) (thread : Nat) : MtFrame :=
  let frame := frame.check (!frame.flag thread .freeList)
  let frame := frame.reset thread
  let frame := { frame with useNum := frame.useNum - 1, freelist := frame.freelist ++ [thread] }
  (frame.setFlag thread .freeList true).trimPool

end Pool

section Lists

def insertSleep (frame : MtFrame) (thread : Nat) : MtFrame :=
  let frame := frame.check (!frame.flag thread .sleepList)
  let frame := (frame.setFlag thread .sleepList true).setState thread .sleeping
  { frame with sleeplist := (frame.sleeplist.heapPush frame.wakeupTime thread).1 }

def removeSleep (frame : MtFrame) (thread : Nat) : MtFrame :=
  let frame := frame.check (frame.flag thread .sleepList)
  let frame := frame.setFlag thread .sleepList false
  { frame with sleeplist := (frame.sleeplist.heapDelete frame.wakeupTime thread).1 }

/-- The part of `InsertIoWait` before it calls `InsertSleep`. -/
def enterIoList (frame : MtFrame) (thread : Nat) : MtFrame :=
  let frame := frame.check (!frame.flag thread .ioList)
  let frame := frame.setFlag thread .ioList true
  { frame with iolist := frame.iolist ++ [thread] }

def insertIoWait (frame : MtFrame) (thread : Nat) : MtFrame :=
  (frame.enterIoList thread).insertSleep thread

/-- The part of `RemoveIoWait` before it calls `RemoveSleep`. -/
def leaveIoList (frame : MtFrame) (thread : Nat) : MtFrame :=
  let frame := frame.check (frame.flag thread .ioList)
  let frame := frame.setFlag thread .ioList false
  { frame with iolist := frame.iolist.erase thread }

def removeIoWait (frame : MtFrame) (thread : Nat) : MtFrame :=
  (frame.leaveIoList thread).removeSleep thread

def insertRunable (frame : MtFrame) (thread : Nat) : MtFrame :=
  let frame := frame.check (!frame.flag thread .runList)
  let frame := (frame.setFlag thread .runList true).setState thread .runable
  { frame with runlist := frame.runlist ++ [thread], waitnum := frame.waitnum + 1 }

def removeRunable (frame : MtFrame) (thread : Nat) : MtFrame :=
  let frame := frame.check (frame.flag thread .runList)
  let frame := frame.check (frame.runlist.head? = some thread)
  let frame := frame.setFlag thread .runList false
  { frame with runlist := frame.runlist.tail, waitnum := frame.waitnum - 1 }

def insertPend (frame : MtFrame) (thread : Nat) : MtFrame :=
  let frame := frame.check (!frame.flag thread .pendList)
  let frame := frame.setFlag thread .pendList true
  { frame with pendList := frame.pendList ++ [thread] }.setState thread .pending

def removePend (frame : MtFrame) (thread : Nat) : MtFrame :=
  let frame := frame.check (frame.flag thread .pendList)
  let frame := frame.setFlag thread .pendList false
  { frame with pendList := frame.pendList.erase thread }

end Lists

section Scheduling

def setActiveThread (frame : MtFrame) (thread : Nat) : MtFrame := { frame with active := thread }

/-- A thread gets to run. -/
def activate (frame : MtFrame) (thread : Nat) : MtFrame :=
  (frame.setActiveThread thread).setState thread .running

def threadSchdule (frame : MtFrame) : MtFrame :=
  match frame.runlist with
  | [] => frame.activate frame.daemon
  | thread :: _ => (frame.removeRunable thread).activate thread

/-- One round of the loop of `WakeupTimeout`. -/
def wakeup (frame : MtFrame) (thread : Nat) : MtFrame :=
  let frame :=
    if frame.flag thread .ioList then frame.removeIoWait thread else frame.removeSleep thread
  frame.insertRunable thread

def wakeupLoop : Nat → MtFrame → MtFrame
  | 0, frame => frame
  | fuel + 1, frame =>
    match frame.sleeplist.heapTop with
    | none => frame
    | some thread =>
      if frame.wakeupTime thread ≤ frame.lastClock then wakeupLoop fuel (frame.wakeup thread)
      else frame

/-- `WakeupTimeout`: every round takes one thread from the heap. -/
def wakeupTimeout (frame : MtFrame) : MtFrame := wakeupLoop frame.sleeplist.heap.count frame

/-- `timeout + GetLastClock()` as a `utime64_t`. -/
def deadline (frame : MtFrame) (timeout : Int) : Nat :=
  ((timeout + frame.lastClock) % 18446744073709551616).toNat

/-- `Thread::sleep` of the active thread. -/
def sleep (frame : MtFrame) (ms : Int) : MtFrame :=
  let frame := frame.setWakeupTime frame.active (frame.deadline ms)
  (frame.insertSleep frame.active).threadSchdule

def waitNotify (frame : MtFrame) (timeout : Int) : MtFrame :=
  let frame := frame.setWakeupTime frame.active (frame.deadline timeout)
  (frame.insertIoWait frame.active).threadSchdule

/-- `KqueueSchedule` up to the switch; `added` is whether `KqueueAdd` succeeds. -/
def kqueueSchedule (frame : MtFrame) (timeout : Int) (added : Bool) : MtFrame :=
  let frame := frame.setWakeupTime frame.active (frame.deadline timeout)
  if !added then frame else (frame.insertIoWait frame.active).threadSchdule

/-- `NotifyThread` of the frame. From the daemon it switches to the thread at once. -/
def notifyThread (frame : MtFrame) (thread : Nat) : MtFrame :=
  if frame.flag thread .ioList then
    let frame := frame.removeIoWait thread
    if frame.active = frame.daemon then frame.activate thread else frame.insertRunable thread
  else frame

/-- `InputNotify` and `OutputNotify` of a `KqueuerObj`, and `NotifyThread` of a link. -/
def notifyOwner (frame : MtFrame) (thread : Nat) : MtFrame :=
  if frame.flag thread .ioList then (frame.removeIoWait thread).insertRunable thread else frame

def swapDaemonThread (frame : MtFrame) : MtFrame :=
  if frame.active ≠ frame.daemon then
    (frame.insertRunable frame.active).activate frame.daemon
  else frame

def createThread (frame : MtFrame) (memory runable : Bool) : MtFrame × Option Nat :=
  match frame.allocThread memory with
  | (frame, none) => (frame, none)
  | (frame, some thread) =>
    (if runable then frame.insertRunable thread else frame, some thread)

/-- `Thread::Wait` of the active thread, with `SchedulePend`. -/
def wait (frame : MtFrame) : MtFrame := (frame.insertPend frame.active).threadSchdule

def scheduleUnpend (frame : MtFrame) (thread : Nat) : MtFrame :=
  (frame.removePend thread).insertRunable thread

def wakeupParent (frame : MtFrame) (thread : Nat) : MtFrame :=
  match frame.parent thread with
  | none => frame
  | some parent =>
    let frame := frame.removeSubThread parent thread
    if frame.subList parent = [] then frame.scheduleUnpend parent else frame

/-- `Run` of the active thread after its function has returned. -/
def finish (frame : MtFrame) : MtFrame :=
  let frame :=
    if frame.type frame.active = .subThread then frame.wakeupParent frame.active else frame
  (frame.freeThread frame.active).threadSchdule

/-- The first loop of `mt_exec_all_task`: the threads it has made, and whether it has made
all of them. -/
def createSubs : List Bool → List Nat → MtFrame → MtFrame × List Nat × Bool
  | [], subs, frame => (frame, subs, true)
  | memory :: rest, subs, frame =>
    match frame.createThread memory false with
    | (frame, none) => (frame, subs, false)
    | (frame, some sub) => createSubs rest (subs ++ [sub]) (frame.setType sub .subThread)

/-- The second loop of `mt_exec_all_task`. -/
def startSubs (thread : Nat) (subs : List Nat) (frame : MtFrame) : MtFrame :=
  subs.foldl (fun frame sub => (frame.addSubThread thread sub).insertRunable sub) frame

/-- `mt_exec_all_task` up to the switch; there is one task for each entry of `memory`. -/
def execAllTask (frame : MtFrame) (memory : List Bool) : MtFrame :=
  if memory.length = 0 then frame
  else
    match frame.createSubs memory [] with
    | (frame, subs, true) => (frame.startSubs frame.active subs).wait
    | (frame, subs, false) => subs.foldl freeThread frame

end Scheduling

section Runs

/-- `InitialPool` as it leaves a new frame: `made` of the threads could be initialised. -/
def initialPool (defaultThreadNum made : Nat) (maxNum : Int) : MtFrame where
  flag thread flag := decide (flag = .freeList ∧ thread < made)
  state _ := .initial
  type _ := .normal
  wakeupTime _ := 0
  parent _ := none
  subList _ := []
  threads := List.range made
  next := made
  freelist := List.range made
  totalNum := made
  useNum := 0
  maxNum := maxNum
  defaultThreadNum := defaultThreadNum
  lastDefaultThreadNum := defaultThreadNum
  daemon := 0
  active := 0
  lastClock := 0
  runlist := []
  waitnum := 0
  iolist := []
  pendList := []
  sleeplist := .new 0 fun _ => 0
  failed := false

/-- `InitFrame` sets `_daemon`. -/
def makeDaemon (frame : MtFrame) (thread : Nat) : MtFrame :=
  let frame := { frame with daemon := thread }
  (frame.setType thread .daemon).setState thread .runable

/-- `InitFrame` makes the primordial thread. -/
def makePrimo (frame : MtFrame) (clock : Nat) : MtFrame :=
  let primo := frame.next
  let frame := (frame.newThread .primordial).setState primo .running
  { frame.setActiveThread primo with lastClock := clock }

/-- `InitFrame`. -/
def initFrame (defaultThreadNum made : Nat) (maxNum : Int) (clock : Nat) : Option MtFrame :=
  let frame := initialPool defaultThreadNum made maxNum
  if frame.totalNum ≤ 0 then none
  else
    let frame := { frame with sleeplist := frame.sleeplist.heapResize (maxNum * 2).toNat }
    match frame.allocThread true with
    | (_, none) => none
    | (frame, some thread) => some ((frame.makeDaemon thread).makePrimo clock)

inductive Move
  | createThread (memory : Bool)
  | execAllTask (memory : List Bool)
  | wait
  | sleep (ms : Int)
  | waitNotify (timeout : Int)
  | kqueueSchedule (timeout : Int) (added : Bool)
  | finish
  | swapDaemonThread
  | notifyThread (thread : Nat)
  | notifyOwner (thread : Nat)
  | setLastClock (clock : Nat)
  | wakeupTimeout
  | switchContext
  deriving DecidableEq, Repr

/-- The moves that are made by a thread for itself. The daemon makes none of them: it
dispatches events and then calls `SwitchContext`, which the others do not. -/
def Move.own : Move → Bool
  | .execAllTask _ | .wait | .sleep _ | .waitNotify _ | .kqueueSchedule .. | .finish => true
  | _ => false

def carry (frame : MtFrame) : Move → MtFrame
  | .createThread memory => (frame.createThread memory true).1
  | .execAllTask memory => frame.execAllTask memory
  | .wait => frame.wait
  | .sleep ms => frame.sleep ms
  | .waitNotify timeout => frame.waitNotify timeout
  | .kqueueSchedule timeout added => frame.kqueueSchedule timeout added
  | .finish => frame.finish
  | .swapDaemonThread => frame.swapDaemonThread
  | .notifyThread thread => frame.notifyThread thread
  | .notifyOwner thread => frame.notifyOwner thread
  | .setLastClock clock => { frame with lastClock := clock }
  | .wakeupTimeout => frame.wakeupTimeout
  | .switchContext => if frame.active = frame.daemon then frame.threadSchdule else frame

def step (frame : MtFrame) (move : Move) : MtFrame :=
  if move.own ∧ frame.active = frame.daemon then frame else frame.carry move

def run (frame : MtFrame) (moves : List Move) : MtFrame := moves.foldl step frame

end Runs

end MtFrame

end FStack.Micro
