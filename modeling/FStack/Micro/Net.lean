import FStack.Micro.Link

/-!
# The links of all destinations

`CNetMgr` keeps a `CDestLinks` for each destination, protocol and type of connection, with a list
of up to three links. `SendRecv` takes a new link as long as there are fewer, and the first of the
list otherwise. A link that fails, or that has not been used for a while, wakes up and unlinks its
handlers, leaves the list and goes into a pool, from where it is taken for any destination.

Links are objects in memory. Events reach them through the pointers in the entries of the proxy,
and a link that is destroyed while it has no `CDestLinks` is deleted.

What one link does with its handlers is the model of `CSockLink`; here each handler is linked to
one of many links, and a link sees those of the others as not linked.
-/

namespace FStack.Micro

open Function Steps

/-- In the model of one link its object has the address 0. -/
def ObjPtr.swap (i : Nat) : ObjPtr → ObjPtr
  | .stack thread offset => .stack thread offset
  | .lasting address => .lasting (Equiv.swap 0 i address)

/-- The entries, with the addresses 0 and `i` exchanged. -/
def KqueueProxy.swap (proxy : KqueueProxy) (i : Nat) : KqueueProxy :=
  { proxy with kqrefs := fun fd =>
      { proxy.kqrefs fd with kqobj := (proxy.kqrefs fd).kqobj.map (ObjPtr.swap i) } }

/-- `Reset` of a handler whose thread may be in `SendRecv`. -/
def CSockLink.reset (link : CSockLink) (h : Nat) : CSockLink :=
  (link.unlink h).modify h fun old =>
    { CNetHandler.new with phase := old.phase, ioWait := old.ioWait, ret := old.ret }

/-- The key of a `CDestLinks`. -/
structure DestKey where
  addr : BitVec 32
  port : BitVec 16
  protoType : ProtoType
  connType : ConnType
  deriving DecidableEq, Repr

structure CDestLinks where
  sockList : List Nat
  currLink : Nat
  maxLinks : Nat
  deriving DecidableEq, Repr

/-- After `Reset`. -/
def CDestLinks.new : CDestLinks := ⟨[], 0, 3⟩

/-- Handlers and links by their addresses. `conns` is `_conn_ptr`, `last` the link that
`WaitConnect` keeps in a local variable, `parents` is `_parents`, and `allocated` are the links
that have been constructed and not deleted. Of `links` only what belongs to one link is read; the
handlers, the proxy and the thread that runs are here. -/
structure CNetMgr where
  handlers : Nat → CNetHandler
  conns : Nat → Option Nat
  last : Nat → Nat
  links : Nat → CSockLink
  parents : Nat → Option DestKey
  allocated : Nat → Bool
  sockLinkPool : List Nat
  ipHash : DestKey → Option CDestLinks
  proxy : KqueueProxy
  active : Option Nat

namespace CNetMgr

section View

/-- The handler is linked to another link. -/
def away (net : CNetMgr) (i h : Nat) : Bool := (net.conns h).any (· ≠ i)

/-- What a link sees. -/
def view (net : CNetMgr) (i : Nat) : CSockLink :=
  { net.links i with
    handlers := fun h =>
      if net.away i h then { net.handlers h with conn := false, stateFlags := fun _ => false }
      else net.handlers h
    proxy := net.proxy.swap i
    active := net.active }

def store (net : CNetMgr) (i : Nat) (link : CSockLink) : CNetMgr :=
  { net with
    handlers := fun h => if net.away i h then net.handlers h else link.handlers h
    conns := fun h =>
      if net.away i h then net.conns h else if (link.handlers h).conn then some i else none
    links := update net.links i link
    proxy := link.proxy.swap i
    active := link.active }

def onLink (net : CNetMgr) (i : Nat) (act : CSockLink → CSockLink) : CNetMgr :=
  net.store i (act (net.view i))

end View

section Links

/-- `new CSockLink`, in memory that is free. -/
def construct (net : CNetMgr) (i : Nat) : CNetMgr :=
  { net with
    links := update net.links i (.init .tcp net.proxy)
    parents := update net.parents i none
    allocated := update net.allocated i true }

/-- `fresh` is where there is memory for a new link. -/
def allocSockLink (net : CNetMgr) (fresh : Option Nat) : CNetMgr × Option Nat :=
  match net.sockLinkPool with
  | i :: rest => ({ net with sockLinkPool := rest }, some i)
  | [] =>
    match fresh with
    | none => (net, none)
    | some i => if net.allocated i then (net, none) else (net.construct i, some i)

/-- The link is entered into the list of a destination. -/
def enter (net : CNetMgr) (key : DestKey) (dest : CDestLinks) (i : Nat) : CNetMgr :=
  { net with
    links := update net.links i { net.links i with protoType := key.protoType }
    parents := update net.parents i (some key)
    ipHash := update net.ipHash key
      (some { dest with sockList := dest.sockList ++ [i], currLink := dest.currLink + 1 }) }

def getSockLink (net : CNetMgr) (key : DestKey) (dest : CDestLinks) (fresh : Option Nat) :
    CNetMgr × Option Nat :=
  if dest.currLink < dest.maxLinks then
    match net.allocSockLink fresh with
    | (net, none) => (net, none)
    | (net, some i) => (net.enter key dest i, some i)
  else
    match dest.sockList with
    | [] => (net, none)
    | i :: rest =>
      ({ net with
          ipHash := update net.ipHash key (some { dest with sockList := rest ++ [i] }) }, some i)

/-- `memory` is whether there is memory for a `CDestLinks`. -/
def findCreateDest (net : CNetMgr) (key : DestKey) (memory : Bool) :
    CNetMgr × Option CDestLinks :=
  match net.ipHash key with
  | some dest => (net, some dest)
  | none =>
    if memory then
      ({ net with ipHash := update net.ipHash key (some .new) }, some .new)
    else (net, none)

def getConnLink (net : CNetMgr) (key : DestKey) (memory : Bool) (fresh : Option Nat) :
    CNetMgr × Option Nat :=
  match net.findCreateDest key memory with
  | (net, none) => (net, none)
  | (net, some dest) => net.getSockLink key dest fresh

/-- What `Destroy` does beside `Reset`: the link is deleted, or `FreeSockLink` puts it into the
pool. -/
def discard (net : CNetMgr) (i : Nat) : CNetMgr :=
  match net.parents i with
  | none => { net with allocated := update net.allocated i false }
  | some key =>
    { net with
      parents := update net.parents i none
      ipHash := update net.ipHash key ((net.ipHash key).map fun dest =>
        { dest with sockList := dest.sockList.erase i, currLink := dest.currLink - 1 })
      sockLinkPool := net.sockLinkPool ++ [i] }

def destroy (net : CNetMgr) (i : Nat) (errno : Int) (accepts : Change → Bool) : CNetMgr :=
  (net.onLink i fun link => { link with errno }.destroy accepts .tcp).discard i

/-- The deleted links are the first of the pool. -/
def recycleItem (net : CNetMgr) (count : Nat) : CNetMgr :=
  { net with
    allocated := fun i => net.allocated i && !(net.sockLinkPool.take count).contains i
    sockLinkPool := net.sockLinkPool.drop count }

end Links

section Events

def sendRecv (net : CNetMgr) (h : Nat) (request : Request) (addr : BitVec 32) (port : BitVec 16)
    (protoType : ProtoType) (memory : Bool) (fresh : Option Nat) (sock : SockAnswer)
    (answer : ConnectAnswer) (accepts : Change → Bool) : CNetMgr :=
  let request : Request := { request with dest := addr ≠ 0 ∧ port ≠ 0 }
  let (net, found) :=
    if request.checkParams < 0 then (net, none)
    else net.getConnLink ⟨addr, port, protoType, request.connType⟩ memory fresh
  let i := found.getD (net.last h)
  { net with last := update net.last h i }.onLink i
    (·.sendRecv h { request with memory := found.isSome } sock answer accepts)

/-- The link that an event of a descriptor is for. -/
def notified (net : CNetMgr) (fd : Int) : Option Nat :=
  match (net.proxy.kqFdRefGet fd).bind KqFdRef.kqobj with
  | some (.lasting i) => some i
  | _ => none

/-- Nothing more can be written. -/
def outputFails (net : CNetMgr) (i : Nat) (answers : List WriteAnswer) : Bool :=
  ((net.view i).established.sendCache none answers).2 < 0

def outputNotify (net : CNetMgr) (i : Nat) (answers : List WriteAnswer)
    (accepts : Change → Bool) : CNetMgr :=
  let after := net.onLink i (·.outputNotify answers accepts .tcp)
  if net.outputFails i answers then after.discard i else after

/-- `expired` are the links that have not been used for a while. -/
def timerNotify (net : CNetMgr) (key : DestKey) (expired : Nat → Bool) (accepts : Change → Bool) :
    CNetMgr :=
  match net.ipHash key with
  | none => net
  | some dest =>
    let net := (dest.sockList.filter expired).foldl
      (fun net i => net.destroy i (net.links i).errno accepts) net
    if (net.ipHash key).any (·.sockList = []) then
      { net with ipHash := update net.ipHash key none }
    else net

inductive Input
  | sendRecv (h : Nat) (request : Request) (addr : BitVec 32) (port : BitVec 16)
      (protoType : ProtoType) (memory : Bool) (fresh : Option Nat) (sock : SockAnswer)
      (answer : ConnectAnswer)
  | waitSend (h : Nat) (answers : List WriteAnswer)
  | waitRecv (h : Nat)
  | wakeup (h : Nat)
  | outputNotify (fd : Int) (answers : List WriteAnswer)
  /-- `InputNotify` or `HangupNotify`, when it fails. -/
  | inputNotify (fd : Int) (errno : Int)
  /-- `InputNotify` hands a response to a session. -/
  | respond (h : Nat) (len : Nat)
  | timerNotify (key : DestKey) (expired : Nat → Bool)
  | resetHandler (h : Nat)
  | recycleItem (count : Nat)

/-- A step, with what the calls of `ff_kevent` answer. -/
structure Event where
  input : Input
  accepts : Change → Bool

/-- As for one link. -/
def Enabled (net : CNetMgr) : Input → Prop
  | .sendRecv h .. => net.active = none ∧ (net.handlers h).phase = .out
  | .waitSend h _ => net.active = some h ∧ (net.handlers h).phase = .connected
  | .waitRecv h => net.active = some h ∧ (net.handlers h).phase = .sent
  | .wakeup h => net.active = none ∧
      ((net.handlers h).phase = .connect ∨ (net.handlers h).phase = .send ∨
        (net.handlers h).phase = .recv)
  | .outputNotify _ _ | .inputNotify _ _ | .respond _ _ | .timerNotify _ _ | .resetHandler _
  | .recycleItem _ => net.active = none

instance (net : CNetMgr) : DecidablePred net.Enabled
  | .sendRecv .. | .waitSend .. | .waitRecv .. | .wakeup .. => inferInstanceAs (Decidable (_ ∧ _))
  | .outputNotify .. | .inputNotify .. | .respond .. | .timerNotify .. | .resetHandler ..
  | .recycleItem .. => inferInstanceAs (Decidable (_ = _))

def perform (net : CNetMgr) (accepts : Change → Bool) : Input → CNetMgr
  | .sendRecv h request addr port protoType memory fresh sock answer =>
    net.sendRecv h request addr port protoType memory fresh sock answer accepts
  | .waitSend h answers => net.onLink (net.last h) (·.waitSend h answers accepts)
  | .waitRecv h => net.onLink (net.last h) (·.waitRecv h)
  | .wakeup h => net.onLink (net.last h) (·.wakeup h)
  | .outputNotify fd answers =>
    match net.notified fd with
    | none => net
    | some i => net.outputNotify i answers accepts
  | .inputNotify fd errno =>
    match net.notified fd with
    | none => net
    | some i => net.destroy i errno accepts
  | .respond h len => net.onLink (net.last h) (·.respond h len)
  | .timerNotify key expired => net.timerNotify key expired accepts
  | .resetHandler h => net.onLink (net.last h) (·.reset h)
  | .recycleItem count => net.recycleItem count

/-- What cannot happen changes nothing. -/
def step (net : CNetMgr) (event : Event) : CNetMgr :=
  if net.Enabled event.input then net.perform event.accepts event.input else net

/-- Before the first `SendRecv`. -/
def start (maxNum : Int) : CNetMgr where
  handlers _ := .new
  conns _ := none
  last _ := 0
  links _ := .init .tcp (.initKqueue maxNum)
  parents _ := none
  allocated _ := false
  sockLinkPool := []
  ipHash _ := none
  proxy := .initKqueue maxNum
  active := none

end Events

section Property

/-- A link that has been taken from the pool, or made. -/
def InUse (net : CNetMgr) (i : Nat) : Prop := net.allocated i = true ∧ i ∉ net.sockLinkPool

/-- Every handler is in the list that its flag says, and every link in the list of one
destination. -/
structure InPlace (net : CNetMgr) : Prop where
  single : ∀ h type other, (net.handlers h).stateFlags type = true →
    (net.handlers h).stateFlags other = true → type = other
  listed : ∀ h type, (net.handlers h).stateFlags type = true →
    ∃ i, net.conns h = some i ∧ ((net.links i).lists type).count h = 1 ∧
      ∀ j other, h ∈ (net.links j).lists other → j = i ∧ other = type
  unlisted : ∀ h, (∀ type, (net.handlers h).stateFlags type = false) →
    ∀ i type, h ∉ (net.links i).lists type
  used : ∀ i, net.InUse i → ∃ key dest, net.ipHash key = some dest ∧ dest.sockList.count i = 1 ∧
    ∀ key' dest', net.ipHash key' = some dest' → i ∈ dest'.sockList → key' = key
  counted : ∀ key dest, net.ipHash key = some dest →
    dest.currLink = dest.sockList.length ∧ dest.currLink ≤ dest.maxLinks

/-- The steps in which a link is closed. -/
def closes (net : CNetMgr) : Input → Bool
  | .outputNotify fd answers => (net.notified fd).any (net.outputFails · answers)
  | .inputNotify _ _ | .timerNotify _ _ => true
  | _ => false

/-- Where a link is closed, `KqueueDelObj` is not refused anything. -/
def Unregisters (net : CNetMgr) (event : Event) : Prop :=
  net.closes event.input = true → ∀ change, event.accepts change = true

end Property

end CNetMgr

end FStack.Micro
