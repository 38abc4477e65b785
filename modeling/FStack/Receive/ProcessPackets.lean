import FStack.Receive.Clone
import FStack.Receive.VethInput

/-!
# The receive loop

`process_packets` takes a burst of packets, from a NIC queue or from a dispatch
ring, and gives every packet away: to the user's dispatcher, the other queues of
the port, KNI, the BSD stack or the mempool. The model answers the list of
things it does with packets, in order. An `RxFaults` record holds the outcome of
every fallible call made for one packet, so a list of them is one pattern of
failures; `none` is a run in which the classifier never returns.
-/

namespace FStack

/-- `FF_DISPATCH_ERROR`. -/
def ffDispatchError : Int := -1

/-- `FF_DISPATCH_RESPONSE`. -/
def ffDispatchResponse : Int := -2

/-- `enum FF_KNICTL_ACTION`. -/
inductive KnictlAction where
  | default
  | allToKni
  | allToFf
  | max
deriving DecidableEq, Repr

/-- What a packet dispatcher leaves behind: its return value, the bytes of the
packet it was shown, and the length it stored. -/
structure DispatchAnswer where
  ret : Int
  data : List UInt8
  len : UInt16

/-- `dispatch_func_t`: data, length, current queue and number of queues. -/
abbrev Dispatcher := List UInt8 → UInt16 → Nat → Nat → DispatchAnswer

/-- The globals `process_packets` reads. -/
structure RxGlobals where
  filter : FilterGlobals
  nbQueueList : Nat → Nat
  packetDispatcher : Option Dispatcher
  procPrimary : Bool
  knictlAction : KnictlAction
  kniAccept : Bool

/-- The arguments of one `process_packets` call apart from the burst; `rxCsum`
is the interface context's checksum offload flag. -/
structure RxCall where
  portId : Nat
  queueId : Nat
  rxCsum : Bool
  pktsFromRing : Bool

/-- Outcomes of the fallible calls made while one packet is processed. -/
structure RxFaults where
  dispatchEnqueue : Bool
  cloneAlloc : Nat → AllocOutcomes
  cloneEnqueue : Nat → Bool
  kniCloneAlloc : AllocOutcomes
  kniEnqueue : Bool
  veth : VethFaults

/-- What `process_packets` does with packets. `outsideRings` is the use of a
dispatch ring pointer from outside the port's array of rings. -/
inductive RxEvent where
  | cloned (mc : Packet)
  | freed (pkt : Packet)
  | toStack (pkt : Packet) (chain : List BsdMbuf)
  | toKniRing (portId : Nat) (pkt : Packet)
  | toDispatchRing (portId queueId : Nat) (pkt : Packet)
  | toTxTable (portId : Nat) (pkt : Packet)
  | outsideRings (portId : Nat) (index : Int) (pkt : Packet)
deriving DecidableEq, Repr

/-- `ff_kni_enqueue`: enqueue the packet, and own it. -/
def ffKniEnqueue (portId : Nat) (enqueued : Bool) (pkt : Packet) : RxEvent :=
  if enqueued then .toKniRing portId pkt else .freed pkt

/-- `rte_ring_enqueue` to a dispatch ring, and the free that answers a full ring. -/
def dispatchEnqueue (portId queueId : Nat) (enqueued : Bool) (pkt : Packet) : RxEvent :=
  if enqueued then .toDispatchRing portId queueId pkt else .freed pkt

/-- The events of `ff_veth_input`. -/
def vethEvents (rxCsum : Bool) (faults : VethFaults) (pkt : Packet) : List RxEvent :=
  match ffVethInput rxCsum faults pkt with
  | .dropped frees => frees.map .freed
  | .input chain => [.toStack pkt chain]

/-- A clone and what is then done with it. -/
def cloneEvents (result : CloneResult) (give : Packet → RxEvent) : List RxEvent :=
  match result with
  | .noMbuf => []
  | .failed mc => [.cloned mc, .freed mc]
  | .cloned mc => [.cloned mc, give mc]

/-- The dispatcher may rewrite the bytes it is shown. -/
def Packet.rewritten (pkt : Packet) (data : List UInt8) : Packet :=
  { pkt with head := { pkt.head with room := data } }

/-- The `FF_DISPATCH_RESPONSE` branch: the packet takes the dispatcher's length
and, where it carries a VLAN tag and has headroom, gets its VLAN header back. -/
def Packet.response (pkt : Packet) (len : UInt16) : Packet :=
  let head := { pkt.head with dataLen := len, pktLen := len.toUInt32 }
  if head.vlanTci ≠ 0 ∧ rteVlanHdrLen ≤ head.headroom then
    let tci := head.vlanTci.toNat
    let tag := [0x81, 0x00, UInt8.ofNat (tci / 256), UInt8.ofNat (tci % 256)]
    { pkt with
      head :=
        { head with
          room := head.room.take 12 ++ tag ++ head.room.drop 12
          headroom := head.headroom - rteVlanHdrLen
          dataLen := head.dataLen + 4
          pktLen := head.pktLen + 4 } }
  else { pkt with head := head }

@[simp] theorem Packet.rewritten_addr (pkt : Packet) (data : List UInt8) :
    (pkt.rewritten data).addr = pkt.addr := rfl

@[simp] theorem Packet.rewritten_next (pkt : Packet) (data : List UInt8) :
    (pkt.rewritten data).next = pkt.next := rfl

@[simp] theorem Packet.response_addr (pkt : Packet) (len : UInt16) :
    (pkt.response len).addr = pkt.addr := by
  simp only [response]
  split <;> rfl

variable (globals : RxGlobals) (call : RxCall)

/-- Number of queues of the port. -/
def RxGlobals.nbQueues : Nat := globals.nbQueueList call.portId

/-- The dispatcher's answer, where it is consulted: packets from a ring are not
dispatched again. -/
def dispatcherAnswer (pkt : Packet) : Option DispatchAnswer :=
  if call.pktsFromRing then none
  else globals.packetDispatcher.map fun dispatcher =>
    dispatcher pkt.head.room pkt.head.dataLen call.queueId (globals.nbQueues call)

/-- How the dispatcher part of the loop body ends: the packet is done with, or
goes on to the classifier with the length the dispatcher left. -/
inductive Dispatched where
  | done (event : RxEvent)
  | classify (pkt : Packet) (len : UInt16)

/-- The dispatcher part of the loop body. -/
def dispatch (faults : RxFaults) (pkt : Packet) : Dispatched :=
  match dispatcherAnswer globals call pkt with
  | none => .classify pkt pkt.head.dataLen
  | some answer =>
    let rtem := pkt.rewritten answer.data
    if answer.ret = ffDispatchResponse then
      .done (.toTxTable call.portId (rtem.response answer.len))
    else if answer.ret = ffDispatchError ∨ (globals.nbQueues call : Int) ≤ answer.ret then
      .done (.freed rtem)
    else if answer.ret ≠ call.queueId then
      -- A value below `FF_DISPATCH_RESPONSE` passes both tests above.
      if answer.ret < 0 then .done (.outsideRings call.portId answer.ret rtem)
      else .done (dispatchEnqueue call.portId answer.ret.toNat faults.dispatchEnqueue rtem)
    else .classify rtem answer.len

/-- Copies of a broadcast frame for the other queues of the port. The copy for
queue `j` takes its names from `addr + j * segments` on. -/
def broadcast (faults : RxFaults) (addr : Nat) (rtem : Packet) : List RxEvent :=
  (List.range (globals.nbQueues call)).flatMap fun j =>
    if j = call.queueId then []
    else cloneEvents (pktmbufDeepClone (faults.cloneAlloc j) (addr + j * rtem.segs.length) rtem)
      (dispatchEnqueue call.portId j (faults.cloneEnqueue j))

/-- The copy of a broadcast frame for KNI, which only the primary process makes. -/
def kniCopy (faults : RxFaults) (addr : Nat) (rtem : Packet) : List RxEvent :=
  if globals.filter.enableKni && globals.procPrimary then
    cloneEvents
      (pktmbufDeepClone faults.kniCloneAlloc
        (addr + globals.nbQueues call * rtem.segs.length) rtem)
      (ffKniEnqueue call.portId faults.kniEnqueue)
  else []

/-- Whether a frame that is not broadcast goes to KNI instead of the stack. -/
def routesToKni (filter : FilterReturn) : Bool :=
  globals.filter.enableKni &&
    match globals.knictlAction with
    | .allToKni => true
    | .allToFf => false
    | .default =>
      (filter = .kni && globals.kniAccept) || (filter = .unknown && !globals.kniAccept)
    | .max => false

/-- ARP and neighbour discovery frames concern every queue. -/
def isBroadcast (filter : FilterReturn) : Bool := filter = .arp || filter = .ndp

/-- The loop body behind the classifier. -/
def deliver (faults : RxFaults) (addr : Nat) (rtem : Packet) (filter : FilterReturn) :
    List RxEvent :=
  if isBroadcast filter then
    (if call.pktsFromRing then [] else broadcast globals call faults addr rtem) ++
      kniCopy globals call faults addr rtem ++ vethEvents call.rxCsum faults.veth rtem
  else if routesToKni globals filter then
    [ffKniEnqueue call.portId faults.kniEnqueue rtem]
  else vethEvents call.rxCsum faults.veth rtem

/-- One iteration of the loop of `process_packets`. -/
def processPacket (addr : Nat) (pkt : Packet) (faults : RxFaults) : Option (List RxEvent) :=
  match dispatch globals call faults pkt with
  | .done event => some [event]
  | .classify rtem len =>
    (protocolFilter globals.filter rtem.head.room len.toNat).map
      (deliver globals call faults addr rtem)

/-- `process_packets`; clones are named from `addr` on, at most one per queue and
one for KNI for each packet. -/
def processPackets : Nat → List (Packet × RxFaults) → Option (List RxEvent)
  | _, [] => some []
  | addr, (pkt, faults) :: rest => do
      let events ← processPacket globals call addr pkt faults
      let others ← processPackets (addr + (globals.nbQueues call + 1) * pkt.segs.length) rest
      pure (events ++ others)

/-- A batch is its first packet and then the rest. -/
theorem processPackets_cons {addr : Nat} {pkt : Packet} {faults : RxFaults}
    {rest : List (Packet × RxFaults)} {events : List RxEvent} :
    processPackets globals call addr ((pkt, faults) :: rest) = some events ↔
      ∃ first others, processPacket globals call addr pkt faults = some first ∧
        processPackets globals call (addr + (globals.nbQueues call + 1) * pkt.segs.length) rest =
          some others ∧ first ++ others = events := by
  simp only [processPackets, Option.bind_eq_bind, Option.bind_eq_some_iff, Option.pure_def,
    Option.some.injEq]
  constructor
  · rintro ⟨first, head, others, tail, same⟩
    exact ⟨first, others, head, tail, same⟩
  · rintro ⟨first, others, head, tail, same⟩
    exact ⟨first, head, others, tail, same⟩

end FStack
