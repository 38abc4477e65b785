import FStack.Receive.ProcessPackets
import FStack.Std.Fair

/-!
# Processes, dispatch rings and broadcast frames

Several processes share the ports of a machine, each polling a queue of its own.
A process runs a loop over its queues: it takes packets from the queue's
dispatch ring, then frames from the NIC, and hands each batch to
`process_packets`, which may enqueue copies to the dispatch rings of other
processes. A process moves one event at a time, so the moves of different
processes interleave between any two of them.

Pools and rings are never exhausted here, and there is no dispatcher. Every
frame received gets a number, which its copies keep.
-/

namespace FStack

open Fair Function

/-- `MAX_PKT_BURST` of the receive loop. -/
def rxBurst : Nat := 32

/-- The number of the frame whose bytes a packet holds. -/
def Packet.frame (pkt : Packet) : Nat := pkt.head.frame

/-- A frame as the NIC delivers it: its data lies inside its buffer. -/
structure RxFrame where
  pkt : Packet
  inside : pkt.head.dataLen.toNat ≤ pkt.head.room.length

/-- A frame with its number. -/
def RxFrame.stamped (frame : RxFrame) (number : Nat) : Packet :=
  { frame.pkt with head := { frame.pkt.head with frame := number } }

/-- The memory that the mempools hand out for the copies of one packet. -/
structure CloneMemory where
  clone : Nat → Nat → List UInt8
  kniClone : Nat → List UInt8

/-- No call fails. -/
def CloneMemory.granted (memory : CloneMemory) : RxFaults where
  dispatchEnqueue := true
  cloneAlloc j k := some (memory.clone j k)
  cloneEnqueue _ := true
  kniCloneAlloc k := some (memory.kniClone k)
  kniEnqueue := true
  veth := { mGethdr := true, mPkthdrInit := true, mGet := fun _ => true }

/-- The processes of a machine. `polls` is the `rx_queue_list` of each process, and
`owner` the process that polls a queue: every queue has one, and a process polls
at most one queue of a port. -/
structure FanOut where
  globals : RxGlobals
  rxCsum : Nat → Bool
  nbProcs : Nat
  primary : Nat
  polls : Nat → List (Nat × Nat)
  owner : Nat × Nat → Nat
  noDispatcher : globals.packetDispatcher = none
  polls_iff : ∀ proc key, key ∈ polls proc ↔ key.2 < globals.nbQueueList key.1 ∧ owner key = proc
  owner_lt : ∀ key, key.2 < globals.nbQueueList key.1 → owner key < nbProcs
  onePerPort : ∀ proc key key', key ∈ polls proc → key' ∈ polls proc → key.1 = key'.1 → key = key'

/-- A process: where it is in its loop, the queue it works for, and what is left to
do of the current batch. Without an answer from the classifier, `todo` is none. -/
structure ProcState where
  pc : Nat
  current : Nat × Nat
  todo : Option (List RxEvent)

/-- A frame received, with the queue it came from. -/
structure Reception where
  key : Nat × Nat
  pkt : Packet

/-- The machine: its processes, the dispatch ring of each queue, what the stack of
each queue and the KNI of each port have got, and the frames received. -/
structure SysState where
  procs : Nat → ProcState
  rings : Nat × Nat → List Packet
  stack : Nat × Nat → List Packet
  kni : Nat → List Packet
  received : List Reception

/-- A move: the process that moves, the frames `rte_eth_rx_burst` returns if it is
called, and the memory for copies. -/
structure RxMove where
  proc : Nat
  frames : List RxFrame
  memory : Nat → CloneMemory

/-- Appending a packet to one of several lists. -/
def push {Key : Type} [DecidableEq Key] (lists : Key → List Packet) (key : Key) (pkt : Packet) :
    Key → List Packet :=
  update lists key (lists key ++ [pkt])

/-- What an event of a process that works for queue `current` does. -/
def SysState.perform (state : SysState) (current : Nat × Nat) : RxEvent → SysState
  | .toStack pkt _ => { state with stack := push state.stack current pkt }
  | .toKniRing portId pkt => { state with kni := push state.kni portId pkt }
  | .toDispatchRing portId queueId pkt =>
    { state with rings := push state.rings (portId, queueId) pkt }
  | _ => state

namespace FanOut

variable (sys : FanOut)

/-- The globals of a process. -/
def globalsOf (proc : Nat) : RxGlobals := { sys.globals with procPrimary := proc = sys.primary }

/-- The arguments of `process_packets` for a queue. -/
def callFor (key : Nat × Nat) (pktsFromRing : Bool) : RxCall where
  portId := key.1
  queueId := key.2
  rxCsum := sys.rxCsum key.1
  pktsFromRing := pktsFromRing

/-- `process_packets` on a batch. -/
def batchEvents (proc : Nat) (key : Nat × Nat) (pktsFromRing : Bool)
    (memory : Nat → CloneMemory) (pkts : List Packet) : Option (List RxEvent) :=
  processPackets (sys.globalsOf proc) (sys.callFor key pktsFromRing) 0
    (pkts.zipIdx.map fun entry => (entry.1, (memory entry.2).granted))

/-- The next place in the loop over the queues; each has two parts. -/
def nextPc (proc pc : Nat) : Nat := (pc + 1) % (2 * (sys.polls proc).length)

/-- `process_dispatch_ring`. -/
def takeFromRing (move : RxMove) (key : Nat × Nat) (state : SysState) : SysState :=
  let ring := state.rings key
  { state with
    rings := update state.rings key (ring.drop rxBurst)
    procs :=
      update state.procs move.proc
        { pc := sys.nextPc move.proc (state.procs move.proc).pc
          current := key
          todo := sys.batchEvents move.proc key true move.memory (ring.take rxBurst) } }

/-- The frames of a burst, numbered from `first` on. -/
def numbered (first : Nat) (frames : List RxFrame) : List Packet :=
  (frames.take rxBurst).zipIdx.map fun entry => entry.1.stamped (first + entry.2)

/-- `rte_eth_rx_burst` and `process_packets`. -/
def receive (move : RxMove) (key : Nat × Nat) (state : SysState) : SysState :=
  let pkts := numbered state.received.length move.frames
  { state with
    received := state.received ++ pkts.map fun pkt => { key := key, pkt := pkt }
    procs :=
      update state.procs move.proc
        { pc := sys.nextPc move.proc (state.procs move.proc).pc
          current := key
          todo := sys.batchEvents move.proc key false move.memory pkts } }

/-- The process performs the next event of its batch. -/
def performNext (proc : Nat) (event : RxEvent) (rest : List RxEvent) (state : SysState) :
    SysState :=
  let process := state.procs proc
  let state := state.perform process.current event
  { state with procs := update state.procs proc { process with todo := some rest } }

/-- One move. -/
def move (move : RxMove) (state : SysState) : SysState :=
  let process := state.procs move.proc
  match process.todo with
  | none => state
  | some (event :: rest) => performNext move.proc event rest state
  | some [] =>
    match (sys.polls move.proc)[process.pc / 2]? with
    | none => state
    | some key =>
      if process.pc % 2 = 0 then sys.takeFromRing move key state
      else sys.receive move key state

/-- The processes of the machine as interleaved agents. -/
def interleaved : Interleaved SysState Nat RxMove where
  agent := RxMove.proc
  move := sys.move

/-- The machine before anything was received. -/
def initial : SysState where
  procs _ := { pc := 0, current := (0, 0), todo := some [] }
  rings _ := []
  stack _ := []
  kni _ := []
  received := []

end FanOut

end FStack
