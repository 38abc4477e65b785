import FStack.Receive.Delivery

/-!
# Neighbour frames reach every queue

A frame that the NIC
flagged with a bad checksum while checksum offload is on is an exception: `ff_veth_input`
drops every copy of it, so that only KNI gets one.

A run is said to be running while the classifier answers.
-/

namespace FStack

open Fair FanOut List Option

/-- The classifier answers for a frame with complete headers. -/
structure Answered (globals : FilterGlobals) (pkt : Packet) : Prop where
  complete : HeaderComplete pkt.head.room pkt.head.dataLen.toNat
  answer : (protocolFilter globals pkt.head.room pkt.head.dataLen.toNat).isSome = true

section Running

variable {sys : FanOut} {choices : Nat → RxMove}

/-- The classifier answers for copies as it does for the frame. -/
theorem Answered.copy {globals : FilterGlobals} {orig copy : Packet}
    (answered : Answered globals orig) (same : CopyOf orig copy) :
    (protocolFilter globals copy.head.room copy.head.dataLen.toNat).isSome = true := by
  rw [same.head.dataLen, ← protocolFilter_sameBytes globals orig.head.dataLen.toNat_lt answered.complete
    same.bytes]
  exact answered.answer

/-- A batch whose headers are readable is processed. -/
theorem processPackets_isSome {globals : RxGlobals} {call : RxCall}
    (noDispatcher : globals.packetDispatcher = none) {addr : Nat}
    {batch : List (Packet × RxFaults)}
    (answered : ∀ entry ∈ batch, (protocolFilter globals.filter entry.1.head.room
      entry.1.head.dataLen.toNat).isSome = true) :
    ∃ events, processPackets globals call addr batch = some events := by
  induction batch generalizing addr with
  | nil => exact ⟨[], rfl⟩
  | cons entry rest ih =>
    obtain ⟨filter, classified⟩ :=
      isSome_iff_exists.mp (answered entry mem_cons_self)
    obtain ⟨others, tail⟩ := ih fun entry within => answered entry (mem_cons_of_mem _ within)
    refine ⟨deliver globals call entry.2 addr entry.1 filter ++ others,
      (processPackets_cons globals call).mpr ⟨_, others, ?_, tail, rfl⟩⟩
    rw [processPacket_eq noDispatcher, classified, map_some]

theorem FanOut.batchEvents_isSome {proc : Nat} {key : Nat × Nat} {fromRing : Bool}
    {memory : Nat → CloneMemory} {pkts : List Packet}
    (answered : ∀ pkt ∈ pkts, (protocolFilter sys.globals.filter pkt.head.room
      pkt.head.dataLen.toNat).isSome = true) :
    ∃ events, sys.batchEvents proc key fromRing memory pkts = some events := by
  refine processPackets_isSome (sys.globalsOf_noDispatcher proc) fun entry within => ?_
  obtain ⟨⟨pkt, index⟩, indexed, rfl⟩ := mem_map.mp within
  exact answered pkt (fst_mem_of_mem_zipIdx indexed)

/-- A process that starts a batch the classifier answers keeps the machine running. -/
theorem SysState.Running.update {state next : SysState} {proc : Nat} {process : ProcState}
    (running : state.Running) (procs : next.procs = Function.update state.procs proc process)
    (answered : process.todo ≠ none) : next.Running := by
  intro other
  rw [procs]
  rcases eq_or_ne other proc with rfl | another
  · rwa [Function.update_self]
  · rw [Function.update_of_ne another]
    exact running other

/-- One move keeps the machine running, if the classifier answers for what was and is
received. -/
theorem FanOut.Sound.running_move {state : SysState} {move : RxMove} (sound : sys.Sound state)
    (running : state.Running)
    (known : ∀ reception ∈ state.received, Answered sys.globals.filter reception.pkt)
    (answered : ∀ frame ∈ move.frames, Answered sys.globals.filter frame.pkt) :
    (sys.move move state).Running ∧
      ∀ reception ∈ (sys.move move state).received,
        Answered sys.globals.filter reception.pkt := by
  refine move_rule (motive := fun next => next.Running ∧ ∀ reception ∈ next.received,
    Answered sys.globals.filter reception.pkt) move state ⟨running, known⟩ ?_ ?_ ?_
  · intro event rest todo
    constructor
    · have procs : (FanOut.performNext move.proc event rest state).procs =
          Function.update state.procs move.proc { state.procs move.proc with todo := some rest } := by
        simp [FanOut.performNext]
      exact running.update procs (some_ne_none rest)
    · have received : (FanOut.performNext move.proc event rest state).received = state.received :=
        state.perform_received _ event
      rwa [received]
  · intro key idle polled even
    obtain ⟨events, done⟩ : ∃ events, sys.batchEvents move.proc key true move.memory
        ((state.rings key).take rxBurst) = some events := by
      refine batchEvents_isSome fun pkt within => ?_
      obtain ⟨reception, found, -, copy⟩ := sound.rings key pkt (mem_of_mem_take within)
      exact (known reception (mem_of_getElem? found)).copy copy
    exact ⟨running.update rfl (by rw [done]; exact some_ne_none events), known⟩
  · intro key idle polled odd
    have new : ∀ pkt ∈ numbered state.received.length move.frames,
        Answered sys.globals.filter pkt := by
      intro pkt within
      obtain ⟨entry, indexed, rfl⟩ := mem_map.mp within
      have frame := answered entry.1 (mem_of_mem_take (fst_mem_of_mem_zipIdx indexed))
      exact ⟨frame.complete, frame.answer⟩
    obtain ⟨events, done⟩ : ∃ events, sys.batchEvents move.proc key false move.memory
        (numbered state.received.length move.frames) = some events :=
      batchEvents_isSome fun pkt within => (new pkt within).answer
    refine ⟨running.update rfl (by rw [done]; exact some_ne_none events), ?_⟩
    intro reception within
    rcases mem_append.mp within with before | burst
    · exact known reception before
    · obtain ⟨pkt, member, rfl⟩ := mem_map.mp burst
      exact new pkt member

/-- If the classifier answers for every frame that comes in, the machine keeps running. -/
theorem FanOut.running_of_answered
    (answered : ∀ time, ∀ frame ∈ (choices time).frames, Answered sys.globals.filter frame.pkt)
    (time : Nat) : (sys.interleaved.stateAt initial choices time).Running := by
  have both : sys.Sound (sys.interleaved.stateAt initial choices time) ∧
      (sys.interleaved.stateAt initial choices time).Running ∧
      ∀ reception ∈ (sys.interleaved.stateAt initial choices time).received,
        Answered sys.globals.filter reception.pkt := by
    induction time with
    | zero => exact ⟨sys.sound_initial, fun _ => some_ne_none [], fun _ => nofun⟩
    | succ time ih =>
      obtain ⟨sound, running, known⟩ := ih
      have moved := sound.running_move running known (answered time)
      exact ⟨sound.moved (choices time) moved.1, moved⟩
  exact both.2.1

end Running

/-- In every fair run, a neighbour frame is delivered exactly once to the stack of
every queue of its port, or to none if it is flagged, and exactly once to KNI.
Packets from a ring are never broadcast again. -/
theorem FanOut.neighbour_deliveredOnce (sys : FanOut) (choices : Nat → RxMove)
    (fair : sys.interleaved.FairTo choices (· < sys.nbProcs))
    (running : ∀ time, (sys.interleaved.stateAt initial choices time).Running)
    {time frame : Nat} {reception : Reception}
    (received : (sys.interleaved.stateAt initial choices time).received[frame]? = some reception)
    (neighbour : IsNeighbour sys.globals.filter reception.pkt) :
    (∀ queue, queue < sys.globals.nbQueueList reception.key.1 →
      if sys.rxCsum reception.key.1 && csumBad reception.pkt then
        ∀ later, ((sys.interleaved.stateAt initial choices later).stack
          (reception.key.1, queue)).countP (carries frame) = 0
      else DeliveredOnce (fun later => (sys.interleaved.stateAt initial choices later).stack
        (reception.key.1, queue)) frame) ∧
      (sys.globals.filter.enableKni = true →
        (∃ queue, (reception.key.1, queue) ∈ sys.polls sys.primary) →
        DeliveredOnce (fun later => (sys.interleaved.stateAt initial choices later).kni
          reception.key.1) frame) ∧
      ∀ proc key memory pkts events, sys.batchEvents proc key true memory pkts = some events →
        ∀ portId queueId copy, .toDispatchRing portId queueId copy ∉ events := by
  refine ⟨fun queue inPort => ?_, fun enabled ⟨queue, polled⟩ => ?_, ?_⟩
  · split_ifs with flagged
    · exact flagged_not_delivered running received flagged queue
    · have due : Target.Due ⟨(reception.key.1, queue), false⟩ sys reception :=
        ⟨rfl, inPort, fun _ => Bool.eq_false_iff.mpr flagged, nofun⟩
      have once := deliveredOnce fair running received neighbour due
      exact once
  · obtain ⟨inPort, owned⟩ := (sys.polls_iff _ _).mp polled
    have due : Target.Due ⟨(reception.key.1, queue), true⟩ sys reception :=
      ⟨rfl, inPort, nofun, fun _ => ⟨enabled, owned⟩⟩
    have once := deliveredOnce fair running received neighbour due
    exact once
  · intro proc key memory pkts events done portId queueId copy within
    exact batchEvents_fromRing done _ within portId queueId copy rfl

/-- The start of an ARP request. -/
def arpBytes : List UInt8 := [255, 255, 255, 255, 255, 255, 2, 0, 0, 0, 0, 1, 8, 6, 0, 1]

/-- An ARP request as the NIC delivers it. -/
def arpFrame (olFlags : BitVec 64) : RxFrame where
  pkt :=
    { head :=
        { plainSegment 0 with
          room := arpBytes
          dataLen := 16
          pktLen := 16
          nbSegs := 1
          olFlags := olFlags }
      next := [] }
  inside := show 16 ≤ arpBytes.length by decide

/-- A port with two queues, each polled by a process of its own. -/
def twoProcesses (rxCsum : Bool) : FanOut where
  globals :=
    { filter := { enableKni := true, tcpPortBitmap := fun _ => 0, udpPortBitmap := fun _ => 0 }
      nbQueueList := fun portId => if portId = 0 then 2 else 0
      packetDispatcher := none
      procPrimary := true
      knictlAction := .default
      kniAccept := false }
  rxCsum _ := rxCsum
  nbProcs := 2
  primary := 0
  polls proc := if proc < 2 then [(0, proc)] else []
  owner key := key.2
  noDispatcher := rfl
  polls_iff := by
    rintro proc ⟨portId, queueId⟩
    by_cases port : portId = 0 <;> by_cases small : proc < 2 <;> simp [port, small] <;> omega
  owner_lt := by
    rintro ⟨portId, queueId⟩ inPort
    by_cases port : portId = 0 <;> simp_all
  onePerPort := by
    rintro proc key key' polled polled' -
    split_ifs at polled polled' <;> simp_all

/-- The processes take turns, and ARP frames come in all the time. -/
def arpTurns (olFlags : BitVec 64) (time : Nat) : RxMove where
  proc := time % 2
  frames := [arpFrame olFlags]
  memory _ := { clone := fun _ _ => [], kniClone := fun _ => [] }

theorem arpTurns_fair (rxCsum : Bool) (olFlags : BitVec 64) :
    (twoProcesses rxCsum).interleaved.FairTo (arpTurns olFlags)
      (· < (twoProcesses rxCsum).nbProcs) := by
  intro proc inside time
  have inside : proc < 2 := inside
  refine ⟨2 * time + proc, by omega, ?_⟩
  show (2 * time + proc) % 2 = proc
  omega

theorem arpBytes_complete : HeaderComplete arpBytes 16 := by decide

theorem arpBytes_classified (globals : FilterGlobals) :
    protocolFilter globals arpBytes 16 = some .arp := by
  have etherType : be16At arpBytes 12 = rteEtherTypeArp := by decide
  simp [protocolFilter, etherPayload, etherType, rteEtherAddrLen, rteEtherTypeArp,
    rteEtherTypeVlan]

theorem arpFrame_neighbour (rxCsum : Bool) (olFlags : BitVec 64) (number : Nat) :
    IsNeighbour (twoProcesses rxCsum).globals.filter ((arpFrame olFlags).stamped number) :=
  ⟨arpBytes_complete, .arp, rfl, arpBytes_classified _⟩

theorem arpTurns_running (rxCsum : Bool) (olFlags : BitVec 64) (time : Nat) :
    ((twoProcesses rxCsum).interleaved.stateAt initial (arpTurns olFlags) time).Running := by
  refine running_of_answered (fun time frame within => ?_) time
  obtain rfl := mem_singleton.mp within
  exact ⟨arpBytes_complete, congrArg isSome (arpBytes_classified _)⟩

/-- A good ARP frame reaches both stacks and KNI. -/
theorem arp_deliveredOnce :
    (∀ queue, queue < 2 → DeliveredOnce (fun later => ((twoProcesses true).interleaved.stateAt
      initial (arpTurns 0) later).stack (0, queue)) 0) ∧
      DeliveredOnce (fun later => ((twoProcesses true).interleaved.stateAt
        initial (arpTurns 0) later).kni 0) 0 := by
  have received : ((twoProcesses true).interleaved.stateAt initial (arpTurns 0)
      3).received[0]? = some ⟨(0, 0), (arpFrame 0).stamped 0⟩ := rfl
  obtain ⟨toStacks, kni, -⟩ := neighbour_deliveredOnce (twoProcesses true) (arpTurns 0)
    (arpTurns_fair true 0) (arpTurns_running true 0) received (arpFrame_neighbour true 0 0)
  exact ⟨toStacks, kni rfl ⟨0, by decide⟩⟩

/-- An ARP frame that the NIC flagged never reaches the stack that polls its queue. -/
theorem arp_not_deliveredOnce :
    (twoProcesses true).interleaved.FairTo (arpTurns pktRxL4CksumBad)
        (· < (twoProcesses true).nbProcs) ∧
      (∀ time, ((twoProcesses true).interleaved.stateAt initial (arpTurns pktRxL4CksumBad)
        time).Running) ∧
      (∃ reception, ((twoProcesses true).interleaved.stateAt initial
          (arpTurns pktRxL4CksumBad) 3).received[0]? = some reception ∧ reception.key = (0, 0) ∧
        IsNeighbour (twoProcesses true).globals.filter reception.pkt) ∧
      ¬DeliveredOnce (fun later => ((twoProcesses true).interleaved.stateAt initial
        (arpTurns pktRxL4CksumBad) later).stack (0, 0)) 0 := by
  have received : ((twoProcesses true).interleaved.stateAt initial
      (arpTurns pktRxL4CksumBad) 3).received[0]? =
        some ⟨(0, 0), (arpFrame pktRxL4CksumBad).stamped 0⟩ := rfl
  have running := arpTurns_running true pktRxL4CksumBad
  refine ⟨arpTurns_fair true _, running,
    ⟨_, received, rfl, arpFrame_neighbour true pktRxL4CksumBad 0⟩, ?_⟩
  rintro ⟨-, settled, once⟩
  have never := flagged_not_delivered running received (by decide) 0 settled
  have some_time := once settled le_rfl
  rw [never] at some_time
  cases some_time

end FStack
