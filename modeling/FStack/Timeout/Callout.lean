import FStack.Std.Cursor
import FStack.Std.Timer
import Mathlib.Data.BitVec

/-!
# Callouts

A callout is armed with a delay in ticks, a function and an argument, and hangs in the
bucket of the callout wheel that its time of expiry selects. `ff_hardclock` advances
`ticks` and lets `softclock` walk the bucket of the tick that has passed, running the
callouts that are due. The functions that run may arm and stop any callout, also in the
bucket being walked; `cc_next` is the callout the walk goes on with.

There is one thread, locks never block, and nothing but `ff_hardclock` changes `ticks`.
`now`, `log` and `trace` record what happens: `now` is `ticks` without its wrap-around.
-/

namespace FStack.Timeout

open Timer

/-- The lock of a callout. -/
inductive CalloutLock where
  | giant
  | object (id : Nat)
deriving DecidableEq, Repr

/-- `struct callout`. The flags from `pending` on are those of `c_iflags`. -/
structure Callout where
  time : BitVec 32
  func : Option Nat
  arg : Nat
  lock : Option CalloutLock
  active : Bool
  pending : Bool
  processed : Bool
  direct : Bool
  localAlloc : Bool
  returnUnlocked : Bool
  dfrMigration : Bool
deriving DecidableEq, Repr

/-- `bzero` of a callout. -/
def Callout.zero : Callout where
  time := 0
  func := none
  arg := 0
  lock := none
  active := false
  pending := false
  processed := false
  direct := false
  localAlloc := false
  returnUnlocked := false
  dfrMigration := false

/-- How a client initialises a callout: `callout_init`, or `callout_init_mtx` and its
like with a lock. -/
inductive CalloutInit where
  | plain (mpsafe : Bool)
  | lock (lock : CalloutLock) (returnUnlocked : Bool)
deriving DecidableEq, Repr

/-- `callout_init` and `_callout_init_lock`. -/
def calloutInit : CalloutInit → Callout
  | .plain true => { Callout.zero with returnUnlocked := true }
  | .plain false => { Callout.zero with lock := some .giant }
  | .lock lock returnUnlocked =>
    { Callout.zero with lock := some lock, returnUnlocked := returnUnlocked }

/-- `struct cc_exec`. -/
structure CcExec where
  curr : Option Nat
  drain : Option Nat
  cancel : Bool
  waiting : Bool
deriving DecidableEq, Repr

/-- `struct callout_cpu`; `exec` is `cc_exec_entity`, with `true` for index 1. -/
structure CalloutCpu where
  exec : Bool → CcExec
  next : Option Nat
  wheel : BitVec 32 → List Nat
  expireq : List Nat
  callfree : List Nat
  softticks : BitVec 32
  bucket : BitVec 32

/-- What happens around the functions of callouts. -/
inductive TraceEvent where
  | called (c : Nat)
  | returned (c : Nat)
  | drained (drain arg : Nat)
deriving DecidableEq, Repr

/-- The state of the callout facility. -/
structure Kernel where
  cc : CalloutCpu
  callouts : Nat → Callout
  ticks : BitVec 32
  now : Nat
  log : List (Event Nat (Nat × Nat))
  trace : List TraceEvent

/-- What a function may do: `callout_reset_tick_on`, or `_callout_stop_safe` without
`CS_DRAIN`, which is `callout_stop` or, with a drain function,
`callout_async_drain`. -/
inductive CalloutOp where
  | reset (c : Nat) (toTicks : BitVec 32) (ftn arg : Nat) (directExec : Bool)
  | stop (c : Nat) (executing : Bool) (drain : Option Nat)
deriving DecidableEq, Repr

/-- What the rest of the kernel supplies: the mask of the wheel, and the functions,
each given by what it does with callouts. -/
structure Env where
  callwheelmask : BitVec 32
  body : Nat → Nat → Kernel → List CalloutOp

/-- `callout_get_bucket`. -/
def Env.bucketOf (env : Env) (time : BitVec 32) : BitVec 32 := time &&& env.callwheelmask

namespace Kernel

/-- Changing one callout. -/
def setCallout (kernel : Kernel) (c : Nat) (change : Callout → Callout) : Kernel :=
  { kernel with callouts := Function.update kernel.callouts c (change (kernel.callouts c)) }

/-- Changing one exec entity. -/
def setExec (kernel : Kernel) (direct : Bool) (change : CcExec → CcExec) : Kernel :=
  { kernel with
    cc := { kernel.cc with
      exec := Function.update kernel.cc.exec direct (change (kernel.cc.exec direct)) } }

/-- Recording an event of the facility. -/
def record (kernel : Kernel) (event : Event Nat (Nat × Nat)) : Kernel :=
  { kernel with log := kernel.log ++ [event] }

/-- Recording a call. -/
def note (kernel : Kernel) (event : TraceEvent) : Kernel :=
  { kernel with trace := kernel.trace ++ [event] }

/-- `LIST_REMOVE` of a callout from its bucket. -/
def unlink (kernel : Kernel) (c : Nat) : Kernel :=
  { kernel with cc := { kernel.cc with wheel := fun bucket => (kernel.cc.wheel bucket).erase c } }

/-- Taking a pending callout off its list, where `cc_next` may stand on it. -/
def takeOff (env : Env) (kernel : Kernel) (c : Nat) : Kernel :=
  if (kernel.callouts c).processed then
    { kernel with cc := { kernel.cc with expireq := kernel.cc.expireq.erase c } }
  else
    let items := kernel.cc.wheel (env.bucketOf (kernel.callouts c).time)
    unlink { kernel with cc := { kernel.cc with next := Cursor.moveOff items c kernel.cc.next } } c

end Kernel

open Kernel

variable (env : Env)

/-- `callout_cc_add`. -/
def calloutCcAdd (c : Nat) (toTicks : BitVec 32) (ftn arg : Nat) (directExec : Bool)
    (kernel : Kernel) : Kernel :=
  let time := kernel.ticks + toTicks
  let bucket := env.bucketOf time
  let kernel := kernel.setCallout c fun callout =>
    { callout with
      time := time, func := some ftn, arg := arg, active := true, pending := true
      processed := false, direct := callout.direct || directExec }
  { kernel with
    cc := { kernel.cc with
      wheel := Function.update kernel.cc.wheel bucket (c :: kernel.cc.wheel bucket)
      next := if kernel.cc.bucket = bucket then some c else kernel.cc.next } }

/-- `callout_cc_del`. -/
def calloutCcDel (c : Nat) (kernel : Kernel) : Kernel :=
  if (kernel.callouts c).localAlloc then
    let kernel := kernel.setCallout c fun callout => { callout with func := none }
    { kernel with cc := { kernel.cc with callfree := c :: kernel.cc.callfree } }
  else kernel

/-- The delay that `callout_reset_tick_on` uses. -/
def atLeastOne (toTicks : BitVec 32) : BitVec 32 := if toTicks.toInt ≤ 0 then 1 else toTicks

/-- Taking a callout that is pending out of the wheel, as both `callout_reset_tick_on`
and `_callout_stop_safe` do. -/
def disarm (c : Nat) (kernel : Kernel) : Kernel :=
  (kernel.takeOff env c).setCallout c fun callout =>
    { callout with pending := false, active := false }

/-- `callout_reset_tick_on`, with its return value. -/
def calloutResetTickOn (c : Nat) (toTicks : BitVec 32) (ftn arg : Nat) (directExec : Bool)
    (kernel : Kernel) : Kernel × Int :=
  let exec := kernel.cc.exec directExec
  let running := exec.curr = some c
  let cancels := running ∧ (kernel.callouts c).lock.isSome ∧ !exec.cancel
  let kernel :=
    if cancels then kernel.setExec directExec fun exec => { exec with cancel := true } else kernel
  if running ∧ exec.waiting then (kernel, if cancels then 1 else 0)
  else
    let pending := (kernel.callouts c).pending
    let kernel := if pending then disarm env c kernel else kernel
    (calloutCcAdd env c (atLeastOne toTicks) ftn arg directExec kernel,
      if cancels ∨ pending then 1 else 0)

/-- The last part of `_callout_stop_safe`. -/
def stopPending (c : Nat) (direct : Bool) (cancelled : Int) (kernel : Kernel) : Kernel × Int :=
  if (kernel.callouts c).pending then (calloutCcDel c (disarm env c kernel), cancelled)
  else (kernel, if (kernel.cc.exec direct).curr = some c then cancelled else -1)

/-- `_callout_stop_safe` without `CS_DRAIN`, with its return value. `mtx_owned` is 1, so
that every lock counts as held. -/
def calloutStopSafe (c : Nat) (executing : Bool) (drain : Option Nat) (kernel : Kernel) :
    Kernel × Int :=
  let callout := kernel.callouts c
  let exec := kernel.cc.exec callout.direct
  let failed := if executing then 1 else 0
  let kernel :=
    if callout.dfrMigration ∧ callout.pending ∧ callout.active then
      kernel.setCallout c fun callout => { callout with pending := false, active := false }
    else kernel
  if exec.curr = some c then
    let kernel := kernel.setCallout c fun callout => { callout with active := false }
    if callout.lock.isSome ∧ !exec.cancel ∧ drain.isNone then
      ((kernel.setExec callout.direct fun exec => { exec with cancel := true }).setCallout c
        fun callout => { callout with dfrMigration := false }, 1)
    else
      let kernel :=
        if drain.isSome then
          kernel.setExec callout.direct fun exec => { exec with drain := drain }
        else kernel
      if callout.dfrMigration then
        (kernel.setCallout c fun callout => { callout with dfrMigration := false }, failed)
      else stopPending env c callout.direct failed kernel
  else stopPending env c callout.direct 1 kernel

/-- What a function does, recorded as what the client asked for. -/
def perform (kernel : Kernel) : CalloutOp → Kernel
  | .reset c toTicks ftn arg directExec =>
    (calloutResetTickOn env c toTicks ftn arg directExec kernel).1.record
      (.armed c (kernel.now + (atLeastOne toTicks).toNat) (ftn, arg))
  | .stop c executing drain =>
    (calloutStopSafe env c executing drain kernel).1.record (.stopped c)

/-- Calling a function. -/
def call (func arg : Nat) (kernel : Kernel) : Kernel :=
  (env.body func arg kernel).foldl (perform env) kernel

/-- The start of `softclock_call_cc`: the callout is no longer pending, and is the one
in progress. -/
def enter (c : Nat) (direct : Bool) (kernel : Kernel) : Kernel :=
  (kernel.setCallout c fun callout =>
    if callout.localAlloc then
      { callout with
        pending := false, processed := false, direct := false, returnUnlocked := false
        dfrMigration := false }
    else { callout with pending := false }).setExec direct fun exec =>
      { exec with curr := some c, cancel := false, drain := none }

/-- The call of the function in `softclock_call_cc`, unless the callout was cancelled
before its lock was taken. -/
def callFunction (c : Nat) (direct : Bool) (callout : Callout) (kernel : Kernel) : Kernel :=
  if callout.lock.isSome ∧ (kernel.cc.exec direct).cancel then kernel
  else
    let kernel :=
      if callout.lock.isSome then kernel.setExec direct fun exec => { exec with cancel := true }
      else kernel
    match callout.func with
    | none => kernel
    | some func =>
      (call env func callout.arg
        ((kernel.record (.ran c kernel.now (func, callout.arg))).note (.called c))).note
          (.returned c)

/-- The end of `softclock_call_cc`. -/
def leave (c : Nat) (direct : Bool) (callout : Callout) (kernel : Kernel) : Kernel :=
  let drain := (kernel.cc.exec direct).drain
  let kernel := kernel.setExec direct fun exec => { exec with curr := none }
  let kernel :=
    match drain with
    | none => kernel
    | some drain =>
      call env drain callout.arg
        ((kernel.setExec direct fun exec => { exec with drain := none }).note
          (.drained drain callout.arg))
  let kernel :=
    if (kernel.cc.exec direct).waiting then
      kernel.setExec direct fun exec => { exec with waiting := false }
    else kernel
  if callout.localAlloc then calloutCcDel c kernel else kernel

/-- `softclock_call_cc`. -/
def softclockCallCc (c : Nat) (direct : Bool) (kernel : Kernel) : Kernel :=
  let callout := kernel.callouts c
  leave env c direct callout (callFunction env c direct callout (enter c direct kernel))

/-- The inner loop of `softclock`, with `cursor` for its variable `c`. It has not come
to its end where the fuel is used up. -/
def walkBucket (curticks : BitVec 32) : Nat → Option Nat → Kernel → Option Kernel
  | 0, _, _ => none
  | _ + 1, none, kernel => some kernel
  | fuel + 1, some c, kernel =>
    let items := kernel.cc.wheel (env.bucketOf curticks)
    if (kernel.callouts c).time ≠ curticks then
      walkBucket curticks fuel (Cursor.next items c) kernel
    else
      let kernel := { kernel with
        cc := { kernel.cc with
          next := Cursor.next items c, bucket := env.bucketOf curticks } }
      let kernel := softclockCallCc env c true (kernel.unlink c)
      walkBucket curticks fuel kernel.cc.next
        { kernel with cc := { kernel.cc with next := none } }

/-- `softclock`. -/
def softclock : Nat → Kernel → Option Kernel
  | 0, _ => none
  | fuel + 1, kernel =>
    if kernel.cc.softticks = kernel.ticks then some kernel
    else
      let curticks := kernel.cc.softticks
      let items := kernel.cc.wheel (env.bucketOf curticks)
      let kernel := { kernel with cc := { kernel.cc with softticks := curticks + 1 } }
      (walkBucket env curticks fuel items.head? kernel).bind (softclock fuel)

/-- `callout_tick`. -/
def calloutTick : Nat → Kernel → Option Kernel
  | 0, _ => none
  | fuel + 1, kernel =>
    if (kernel.cc.softticks - kernel.ticks).toInt < 0 then
      if kernel.cc.wheel (env.bucketOf kernel.cc.softticks) = [] then
        calloutTick fuel
          { kernel with cc := { kernel.cc with softticks := kernel.cc.softticks + 1 } }
      else softclock env fuel kernel
    else some kernel

/-- `ff_hardclock`. -/
def ffHardclock (fuel : Nat) (kernel : Kernel) : Option Kernel :=
  calloutTick env fuel { kernel with ticks := kernel.ticks + 1, now := kernel.now + 1 }

/-- A call from outside. -/
inductive KernelCall where
  | op (op : CalloutOp)
  | hardclock
deriving DecidableEq, Repr

def runCall (fuel : Nat) (kernel : Kernel) : KernelCall → Option Kernel
  | .op op => some (perform env kernel op)
  | .hardclock => ffHardclock env fuel kernel

/-- A sequence of calls. -/
def runCalls (fuel : Nat) (calls : List KernelCall) (kernel : Kernel) : Option Kernel :=
  calls.foldlM (runCall env fuel) kernel

/-- The calls come to their end in `kernel'`, given enough fuel. -/
def RunsTo (calls : List KernelCall) (kernel kernel' : Kernel) : Prop :=
  ∃ enough, ∀ fuel, enough ≤ fuel → runCalls env fuel calls kernel = some kernel'

/-- `callout_cpu_init`, with clients' callouts initialised and `cc_softticks` equal to
`ticks`. -/
def initial (inits : Nat → CalloutInit) (ticks : BitVec 32) : Kernel where
  cc :=
    { exec := fun _ => { curr := none, drain := none, cancel := false, waiting := false }
      next := none
      wheel := fun _ => []
      expireq := []
      callfree := []
      softticks := ticks
      bucket := 0 }
  callouts c := calloutInit (inits c)
  ticks := ticks
  now := ticks.toNat
  log := []
  trace := []

end FStack.Timeout
