import FStack.Std.Steps
import Mathlib.Data.List.Basic

/-!
# Sessions on a shared socket

Actions that talk over one UDP socket are told apart by a session number that every datagram
carries. An action gets a connection from a pool when it is initialised, and is entered under a new
number into a hash; what comes in for the number is put into the buffer of the connection that the
action has. `Reset` gives the connection back to the pool. The entry stays, with its connection,
until the action is destroyed.
-/

namespace FStack.Micro

open Steps

/-- `IMtAction`, as far as its sessions go: `_conn`, the members of `ISession`, and the hash value of
its entry, which is zero without one. -/
structure MtAction where
  conn : Option Nat
  sessionId : BitVec 32
  sessionFlag : Bool
  thread : Option Nat
  connection : Option Nat
  hashValue : BitVec 32
deriving DecidableEq, Repr

structure SessionDatagram where
  session : BitVec 32
  payload : Nat
deriving DecidableEq, Repr

/-- `MtMsgBuf`: a buffer to send from, or one with what has come in. -/
inductive MtMsgBuf where
  | send
  | recv (datagram : SessionDatagram)
deriving DecidableEq, Repr

/-- `UdpSessionConn`. -/
structure UdpSessionConn where
  action : Option Nat
  ntfyObj : Bool
  msgBuff : Option MtMsgBuf
deriving DecidableEq, Repr

/-- The action objects that there are, the connections in memory, the pool of connections, and the
hash of the sessions with the number given last. -/
structure SessionWorld where
  objects : List Nat
  actions : Nat → MtAction
  conns : Nat → Option UdpSessionConn
  udpSessionQueue : List Nat
  buckets : Nat → List Nat
  currSession : BitVec 32

/-- What happens: an action is made, is initialised by a thread, is reset or is destroyed, or a
datagram comes in. A connection that is made new has some address; there may be no memory for a
buffer or for a notification object. -/
inductive SessionEvent where
  | create (action : Nat)
  | init (action thread address : Nat) (buffer ntfy : Bool)
  | reset (action : Nat)
  | destroy (action : Nat)
  | input (datagram : SessionDatagram)
deriving DecidableEq, Repr

namespace MtAction

/-- A new action. -/
def new : MtAction := ⟨none, 0, false, none, none, 0⟩

end MtAction

/-- The largest prime number up to 100000, as `GetMaxPrimeNum` finds it. -/
def sessionHashMax : Nat := 99991

/-- `_max_free` of a pool. -/
def poolMaxFree : Nat := 500

namespace SessionWorld

variable (world : SessionWorld)

def setAction (index : Nat) (action : MtAction) : SessionWorld :=
  { world with actions := Function.update world.actions index action }

def setConn (address : Nat) (conn : Option UdpSessionConn) : SessionWorld :=
  { world with conns := Function.update world.conns address conn }

/-- A connection in memory is written to. -/
def updateConn (address : Nat) (write : UdpSessionConn → UdpSessionConn) : SessionWorld :=
  world.setConn address ((world.conns address).map write)

/-! ### The hash -/

def bucketOf (hash : BitVec 32) : Nat := hash.toNat % sessionHashMax

/-- The test of `HashFind` and `HashRemove` for an entry. -/
def hashMatches (id : BitVec 32) (index : Nat) : Bool :=
  (world.actions index).hashValue == id && (world.actions index).sessionId == id

/-- `FindSession`. -/
def findSession (id : BitVec 32) : Option Nat :=
  (world.buckets (bucketOf id)).find? (world.hashMatches id)

/-- `HashInsert`. -/
def hashInsert (index : Nat) : SessionWorld :=
  let action := world.actions index
  if action.hashValue ≠ 0 then world
  else
    let idx := bucketOf action.sessionId
    { world.setAction index { action with hashValue := action.sessionId } with
      buckets := Function.update world.buckets idx (index :: world.buckets idx) }

/-- `InsertSession`. -/
def insertSession (index : Nat) : SessionWorld :=
  let action := world.actions index
  if action.sessionFlag then world
  else (world.setAction index { action with sessionFlag := true }).hashInsert index

/-- `RemoveSession`. -/
def removeSession (id : BitVec 32) : SessionWorld :=
  match world.findSession id with
  | none => world
  | some found =>
    { world.setAction found { world.actions found with hashValue := 0 } with
      buckets := Function.update world.buckets (bucketOf id)
        ((world.buckets (bucketOf id)).eraseP (world.hashMatches id)) }

/-- `GetSessionId`. -/
def nextSession : BitVec 32 :=
  if world.currSession + 1 = 0 then world.currSession + 2 else world.currSession + 1

/-! ### The pool -/

/-- `AllocPtr`, with the address of a connection that is made new. -/
def allocConn (address : Nat) : SessionWorld × Nat :=
  match world.udpSessionQueue with
  | first :: rest => ({ world with udpSessionQueue := rest }, first)
  | [] => (world.setConn address (some ⟨none, false, none⟩), address)

/-- `FreeConnection`. -/
def freeConnection (address : Nat) : SessionWorld :=
  if poolMaxFree ≤ world.udpSessionQueue.length then world.setConn address none
  else { world.setConn address (some ⟨none, false, none⟩) with
    udpSessionQueue := world.udpSessionQueue ++ [address] }

/-! ### Actions -/

/-- `InitConnEnv`, for an action with a UDP session. -/
def initConnEnv (index thread address : Nat) (buffer ntfy : Bool) : SessionWorld :=
  if (world.actions index).conn ≠ none then world
  else
    let (world, conn) := world.allocConn address
    let action := { world.actions index with conn := some conn }
    let world := (world.setAction index action).updateConn conn ({ · with action := some index })
    if !buffer then world
    else
      let world := world.updateConn conn ({ · with msgBuff := some .send })
      if !ntfy then world
      else
        let world := world.updateConn conn ({ · with ntfyObj := true })
        let id := world.nextSession
        let world := { world.setAction index { action with
          thread := some thread, connection := some conn, sessionId := id } with currSession := id }
        world.insertSession index

/-- `IMtAction::Reset`. -/
def resetAction (index : Nat) : SessionWorld :=
  match (world.actions index).conn with
  | none => world
  | some conn =>
    (world.freeConnection conn).setAction index { world.actions index with conn := none }

/-- The destructors of an action and of its session. -/
def destroyAction (index : Nat) : SessionWorld :=
  let world := world.resetAction index
  let world := if (world.actions index).sessionFlag then
      world.removeSession (world.actions index).sessionId
    else world
  { world with objects := world.objects.erase index }

/-- The connection into which `InputNotify` puts a datagram: that of the session it finds, if the
session has a thread and the connection a notification object. -/
def delivery (datagram : SessionDatagram) : Option Nat :=
  match world.findSession datagram.session with
  | none => none
  | some found =>
    match (world.actions found).thread, (world.actions found).connection with
    | some _, some conn =>
      match world.conns conn with
      | some state => if state.ntfyObj then some conn else none
      | none => none
    | _, _ => none

/-- `InputNotify`, for one datagram. -/
def inputNotify (datagram : SessionDatagram) : SessionWorld :=
  match world.delivery datagram with
  | none => world
  | some conn => world.updateConn conn ({ · with msgBuff := some (.recv datagram) })

/-- What happens to objects that there are; `new` gives an address that is not in use. -/
def step : SessionEvent → SessionWorld
  | .create index =>
    if index ∈ world.objects then world
    else { world.setAction index .new with objects := index :: world.objects }
  | .init index thread address buffer ntfy =>
    if index ∉ world.objects then world
    else if world.udpSessionQueue = [] ∧ world.conns address ≠ none then world
    else world.initConnEnv index thread address buffer ntfy
  | .reset index => if index ∈ world.objects then world.resetAction index else world
  | .destroy index => if index ∈ world.objects then world.destroyAction index else world
  | .input datagram => world.inputNotify datagram

/-- Nothing has been made. -/
def start : SessionWorld := ⟨[], fun _ => .new, fun _ => none, [], fun _ => [], 0⟩

/-- A datagram is put only into the connection that the action which is registered under its number
has at that time; and no connection is looked at that is not in memory. -/
def Isolated : SessionEvent → Prop
  | .input datagram =>
    (∀ conn ∈ world.delivery datagram, ∃ index ∈ world.findSession datagram.session,
      (world.actions index).conn = some conn ∧
        ∃ state ∈ world.conns conn, state.action = some index) ∧
    ∀ index ∈ world.findSession datagram.session, ∀ conn ∈ (world.actions index).connection,
      world.conns conn ≠ none
  | _ => True

/-- When an action is initialised, it is not registered, no action that is registered has been reset,
and none has the number that is given next. When an action that is registered is reset, there is
room in the pool. -/
def Orderly : SessionEvent → Prop
  | .init index _ _ _ _ => (world.actions index).sessionFlag = false ∧
      ∀ other ∈ world.objects, (world.actions other).sessionFlag = true →
        (world.actions other).conn ≠ none ∧ (world.actions other).sessionId ≠ world.nextSession
  | .reset index => (world.actions index).sessionFlag = true →
      world.udpSessionQueue.length < poolMaxFree
  | _ => True

instance : DecidablePred world.Orderly
  | .init .. => inferInstanceAs (Decidable (_ ∧ _))
  | .reset _ => inferInstanceAs (Decidable (_ → _))
  | .create _ | .destroy _ | .input _ => inferInstanceAs (Decidable True)

end SessionWorld

end FStack.Micro
