import FStack.Receive.Neighbour
import FStack.Std.Lists
import Mathlib.Algebra.BigOperators.Group.Finset.Piecewise

/-!
# Copies in flight

For every place that a neighbour frame must reach, the stack of a queue or the
KNI of a port, there is one copy of it: delivered, in a dispatch ring, or in what
a process still has to do. `credit` counts those copies. Performing an event and
taking packets from a ring move copies and keep the count; receiving the frame
makes it one.
-/

namespace FStack

open Function List RxEvent

/-- A place a frame must reach: the stack of a queue, or KNI by way of that queue. -/
structure Target where
  key : Nat × Nat
  kni : Bool

/-- Whether a packet holds the frame with a number. -/
def carries (frame : Nat) (pkt : Packet) : Bool := pkt.frame = frame

/-- The packet an event is about. -/
def RxEvent.packet : RxEvent → Packet
  | .cloned pkt | .freed pkt | .toStack pkt _ | .toKniRing _ pkt | .toDispatchRing _ _ pkt
  | .toTxTable _ pkt | .outsideRings _ _ pkt => pkt

namespace Target

variable (target : Target)

/-- What has arrived. -/
def delivered (state : SysState) : List Packet :=
  if target.kni then state.kni target.key.1 else state.stack target.key

/-- An event that makes the frame arrive. -/
def finishes (frame : Nat) (current : Nat × Nat) : RxEvent → Bool
  | .toStack pkt _ => !target.kni && current == target.key && carries frame pkt
  | .toKniRing portId pkt => target.kni && portId == target.key.1 && carries frame pkt
  | _ => false

/-- An event that puts the frame into the ring of the queue. -/
def forwards (frame : Nat) : RxEvent → Bool
  | .toDispatchRing portId queueId pkt => (portId, queueId) == target.key && carries frame pkt
  | _ => false

/-- An event that brings the frame closer. -/
def brings (frame : Nat) (current : Nat × Nat) (event : RxEvent) : Bool :=
  target.finishes frame current event || target.forwards frame event

/-- How many copies a process still has to bring. -/
def pending (frame : Nat) (process : ProcState) : Nat :=
  (process.todo.getD []).countP (target.brings frame process.current)

/-- The frame is to reach the target: the stack does not drop it, and KNI gets its
copies from the primary. -/
structure Due (sys : FanOut) (reception : Reception) : Prop where
  port : reception.key.1 = target.key.1
  queue : target.key.2 < sys.globals.nbQueueList target.key.1
  stack : target.kni = false → (sys.rxCsum target.key.1 && csumBad reception.pkt) = false
  kni : target.kni = true →
    sys.globals.filter.enableKni = true ∧ sys.owner target.key = sys.primary

end Target

open Target

/-- The copies of a frame on the way to a target or there. -/
def FanOut.credit (sys : FanOut) (target : Target) (frame : Nat) (state : SysState) : Nat :=
  (target.delivered state).countP (carries frame) +
    (state.rings target.key).countP (carries frame) +
    ∑ proc ∈ Finset.range sys.nbProcs, target.pending frame (state.procs proc)

section Events

variable {target : Target} {frame : Nat}

theorem Target.brings_frame {current : Nat × Nat} {event : RxEvent}
    (brings : target.brings frame current event = true) : event.packet.frame = frame := by
  cases event <;>
    simp_all [Target.brings, finishes, forwards, carries, packet]

variable (target frame)

theorem countP_push {Key : Type} [DecidableEq Key] (lists : Key → List Packet) (key here : Key)
    (pkt : Packet) (P : Packet → Bool) :
    (push lists key pkt here).countP P =
      (lists here).countP P + if key == here && P pkt then 1 else 0 := by
  by_cases same : here = key
  · subst same
    simp [push]
  · simp [push, same, Ne.symm same]

section

variable (state : SysState) (current : Nat × Nat) (event : RxEvent)

/-- An event that finishes adds to what was delivered, and no other does. -/
theorem Target.delivered_perform :
    (target.delivered (state.perform current event)).countP (carries frame) =
      (target.delivered state).countP (carries frame) +
        if target.finishes frame current event then 1 else 0 := by
  obtain ⟨key, kni⟩ := target
  cases event with
  | toStack | toKniRing =>
    cases kni <;> simp [delivered, SysState.perform, finishes, countP_push]
  | _ => rfl

/-- An event that forwards adds to the ring, and no other does. -/
theorem Target.rings_perform :
    ((state.perform current event).rings target.key).countP (carries frame) =
      (state.rings target.key).countP (carries frame) +
        if target.forwards frame event then 1 else 0 := by
  cases event with
  | toDispatchRing portId queueId pkt =>
    simp [SysState.perform, forwards, countP_push]
  | _ => rfl

@[simp] theorem SysState.perform_procs : (state.perform current event).procs = state.procs := by
  cases event <;> rfl

@[simp] theorem SysState.perform_received :
    (state.perform current event).received = state.received := by
  cases event <;> rfl

end

/-- An event does not both finish and forward. -/
theorem Target.brings_eq_add (current : Nat × Nat) (event : RxEvent) :
    (if target.brings frame current event then 1 else 0) =
      (if target.finishes frame current event then 1 else 0) +
        if target.forwards frame event then 1 else 0 := by
  cases event <;> simp [brings, finishes, forwards]

end Events

section Batches

variable {globals : RxGlobals} {call : RxCall} {addr : Nat} {events : List RxEvent}

/-- What holds of the events of every packet holds of the events of a batch. -/
theorem processPackets_forall {Holds : RxEvent → Prop} {batch : List (Packet × RxFaults)}
    (done : processPackets globals call addr batch = some events)
    (each : ∀ entry ∈ batch, ∀ addr events,
      processPacket globals call addr entry.1 entry.2 = some events →
        ∀ event ∈ events, Holds event) : ∀ event ∈ events, Holds event := by
  induction batch generalizing addr events with
  | nil =>
    obtain rfl := Option.some.inj done
    exact fun event within => absurd within not_mem_nil
  | cons entry rest ih =>
    obtain ⟨first, others, head, tail, rfl⟩ := (processPackets_cons globals call).mp done
    intro event within
    rcases mem_append.mp within with within | within
    · exact each entry mem_cons_self addr first head event within
    · exact ih tail (fun entry within => each entry (mem_cons_of_mem _ within)) event within

/-- Events are counted packet by packet. -/
theorem processPackets_countP {P : RxEvent → Bool} (worth : Packet → Nat)
    {batch : List (Packet × RxFaults)} (done : processPackets globals call addr batch = some events)
    (each : ∀ entry ∈ batch, ∀ addr events,
      processPacket globals call addr entry.1 entry.2 = some events →
        events.countP P = worth entry.1) :
    events.countP P = (batch.map fun entry => worth entry.1).sum := by
  induction batch generalizing addr events with
  | nil =>
    obtain rfl := Option.some.inj done
    rfl
  | cons entry rest ih =>
    obtain ⟨first, others, head, tail, rfl⟩ := (processPackets_cons globals call).mp done
    rw [countP_append, map_cons, sum_cons,
      each entry mem_cons_self addr first head,
      ih tail fun entry within => each entry (mem_cons_of_mem _ within)]

/-- What may be done with a packet when no call fails. -/
inductive Emits (call : RxCall) (pkt : Packet) : RxEvent → Prop
  | cloned {copy : Packet} (frame : copy.frame = pkt.frame) : Emits call pkt (.cloned copy)
  | toKniRing {copy : Packet} (frame : copy.frame = pkt.frame) :
    Emits call pkt (.toKniRing call.portId copy)
  | toDispatchRing {copy : Packet} (queueId : Nat) (nic : call.pktsFromRing = false)
    (frame : copy.frame = pkt.frame)
    (same : pkt.head.dataLen.toNat ≤ pkt.head.room.length → CopyOf pkt copy) :
    Emits call pkt (.toDispatchRing call.portId queueId copy)
  | freed : Emits call pkt (.freed pkt)
  | toStack (chain : List BsdMbuf) (kept : (call.rxCsum && csumBad pkt) = false) :
    Emits call pkt (.toStack pkt chain)

/-- Everything done with a packet or its copies is done with its frame. -/
theorem Emits.frame {pkt : Packet} {event : RxEvent} (emits : Emits call pkt event) :
    event.packet.frame = pkt.frame := by
  cases emits with
  | cloned frame => exact frame
  | toKniRing frame => exact frame
  | toDispatchRing _ _ frame => exact frame
  | freed | toStack => rfl

/-- When no call fails, all that is done with a packet carries its frame. -/
theorem processPacket_emits (noDispatcher : globals.packetDispatcher = none) {pkt : Packet}
    {memory : CloneMemory}
    (done : processPacket globals call addr pkt memory.granted = some events) :
    ∀ event ∈ events, Emits call pkt event := by
  rw [processPacket_eq noDispatcher] at done
  obtain ⟨filter, -, rfl⟩ := Option.map_eq_some_iff.mp done
  intro event within
  have toStack (chain : List BsdMbuf) (within : event ∈ if call.rxCsum && csumBad pkt then
      [freed pkt] else [.toStack pkt chain]) : Emits call pkt event := by
    split_ifs at within with flagged <;> obtain rfl := mem_singleton.mp within
    · exact .freed
    · exact .toStack chain (Bool.eq_false_iff.mpr flagged)
  cases broadcast : isBroadcast filter with
  | true =>
    obtain ⟨copy, kniCopy, chain, frames, kniFrame, copies, events⟩ :=
      deliver_granted globals call addr pkt memory broadcast
    rw [events, neighbourEvents, mem_append, mem_append] at within
    rcases within with (within | within) | within
    · split_ifs at within with ring
      · cases within
      · obtain ⟨j, -, within⟩ := mem_flatMap.mp within
        split_ifs at within
        · cases within
        · rcases mem_pair.mp within with rfl | rfl
          · exact .cloned (frames j)
          · exact .toDispatchRing j (Bool.eq_false_iff.mpr ring) (frames j) (copies · j)
    · split_ifs at within
      · rcases mem_pair.mp within with rfl | rfl
        · exact .cloned kniFrame
        · exact .toKniRing kniFrame
      · cases within
    · exact toStack chain within
  | false =>
    obtain ⟨chain, input⟩ := vethEvents_granted call.rxCsum memory pkt
    cases routes : routesToKni globals filter with
    | true =>
      simp only [deliver, broadcast, routes] at within
      obtain rfl := mem_singleton.mp within
      exact .toKniRing rfl
    | false =>
      simp only [deliver, broadcast, routes, input] at within
      exact toStack chain within

end Batches

section Neighbours

variable {sys : FanOut} {target : Target} {frame proc : Nat} {key : Nat × Nat}
  {reception : Reception} {pkt : Packet} {events : List RxEvent} {fromRing : Bool}
  {memory : Nat → CloneMemory} {pkts : List Packet}

/-- Among the copies of a frame for the other queues, one is the target's. -/
theorem countP_copies {copy : Nat → Packet} (frames : ∀ j, (copy j).frame = frame)
    (port : key.1 = target.key.1) {size : Nat} (queue : target.key.2 < size) :
    ((range size).flatMap fun j =>
        if j = key.2 then []
        else [cloned (copy j), .toDispatchRing key.1 j (copy j)]).countP
      (target.brings frame key) = if key = target.key then 0 else 1 := by
  rw [Lists.countP_flatMap_range target.key.2]
  · have same : target.key.2 = key.2 ↔ key = target.key := by
      rw [Prod.ext_iff, port, eq_comm]
      simp
    simp only [same]
    split_ifs
    · rfl
    · simp [brings, finishes, forwards, carries, frames, port]
  · intro other different
    split_ifs
    · rfl
    · have elsewhere : ((key.1, other) == target.key) = false := by
        simpa [Prod.ext_iff] using fun _ => different
      simp [brings, finishes, forwards, elsewhere]

theorem FanOut.globalsOf_noDispatcher (sys : FanOut) (proc : Nat) :
    (sys.globalsOf proc).packetDispatcher = none := sys.noDispatcher

section

variable (due : target.Due sys reception) (port : key.1 = target.key.1)

include due port

/-- The owner's stack is given the frame once. -/
theorem countP_forStack (own : pkt.frame = frame)
    (flags : csumBad pkt = csumBad reception.pkt) (fromRing : Bool) (chain : List BsdMbuf) :
    (if (sys.callFor key fromRing).rxCsum && csumBad pkt then [freed pkt]
        else [.toStack pkt chain]).countP (target.brings frame key) =
      if target.kni = false ∧ key = target.key then 1 else 0 := by
  cases kni : target.kni with
  | true => split_ifs <;> simp_all [brings, finishes, forwards]
  | false =>
    have kept : ((sys.callFor key fromRing).rxCsum && csumBad pkt) = false := by
      rw [flags, ← due.stack kni, ← port]
      rfl
    rw [kept]
    by_cases here : key = target.key <;>
      simp [brings, finishes, forwards, carries, kni, own]

variable (polled : key ∈ sys.polls proc)

include polled

/-- A process that polls a queue of the port for KNI's sake polls the target's. -/
theorem Target.Due.primary_iff (kni : target.kni = true) :
    proc = sys.primary ↔ key = target.key := by
  have owned := (due.kni kni).2
  constructor
  · intro primary
    refine sys.onePerPort proc key target.key polled ?_ port
    exact (sys.polls_iff proc target.key).mpr ⟨due.queue, owned.trans primary.symm⟩
  · intro same
    rw [← owned, ← same]
    exact ((sys.polls_iff proc key).mp polled).2.symm

/-- The kernel interface is given the frame once. -/
theorem countP_forKni {kniCopy : Packet} (kniFrame : kniCopy.frame = frame) (fromRing : Bool) :
    (if (sys.globalsOf proc).filter.enableKni && (sys.globalsOf proc).procPrimary then
        [cloned kniCopy, .toKniRing (sys.callFor key fromRing).portId kniCopy]
      else []).countP
      (target.brings frame key) = if target.kni ∧ key = target.key then 1 else 0 := by
  cases kni : target.kni with
  | false => split_ifs <;> simp_all [brings, finishes, forwards]
  | true =>
    have enabled : (sys.globalsOf proc).filter.enableKni = true := (due.kni kni).1
    have primary : (sys.globalsOf proc).procPrimary = true ↔ key = target.key :=
      decide_eq_true_iff.trans (due.primary_iff port polled kni)
    simp only [enabled, Bool.true_and, primary, true_and]
    split_ifs
    · simp [brings, finishes, forwards, carries, FanOut.callFor, kni,
        kniFrame, port]
    · rfl

/-- A neighbour frame from the NIC brings one copy to every target, one from a ring
only to the target of that ring. -/
theorem countP_neighbourEvents (fromRing : Bool) {kniCopy : Packet} {copy : Nat → Packet} {chain : List BsdMbuf}
    (own : pkt.frame = frame) (frames : ∀ j, (copy j).frame = frame)
    (kniFrame : kniCopy.frame = frame) (flags : csumBad pkt = csumBad reception.pkt) :
    (neighbourEvents (sys.globalsOf proc) (sys.callFor key fromRing) pkt copy kniCopy chain).countP
      (target.brings frame key) = if fromRing ∧ key ≠ target.key then 0 else 1 := by
  have inPort : target.key.2 < (sys.globalsOf proc).nbQueueList key.1 := port ▸ due.queue
  have arrives : (if target.kni = true ∧ key = target.key then 1 else 0) +
      (if target.kni = false ∧ key = target.key then 1 else 0) =
        if key = target.key then 1 else 0 := by
    cases target.kni <;> simp
  rw [neighbourEvents, countP_append, countP_append, countP_forStack due port own flags,
    Nat.add_assoc, countP_forKni due port polled kniFrame, arrives]
  cases fromRing with
  | true => by_cases here : key = target.key <;> simp [FanOut.callFor]
  | false =>
    refine (congrArg (· + _) (countP_copies frames port inPort)).trans ?_
    by_cases here : key = target.key <;> simp [here]

/-- What a packet of a due frame brings to a target. -/
theorem processPacket_brings (neighbour : IsNeighbour sys.globals.filter reception.pkt)
    {addr : Nat} {memory : CloneMemory} (copy : CopyOf reception.pkt pkt)
    (done : processPacket (sys.globalsOf proc) (sys.callFor key fromRing) addr pkt
      memory.granted = some events) :
    events.countP (target.brings reception.pkt.frame key) =
      if fromRing ∧ key ≠ target.key then 0 else 1 := by
  obtain ⟨filter, broadcast, classified⟩ := copy.classified neighbour
  rw [processPacket_eq (sys.globalsOf_noDispatcher proc)] at done
  obtain ⟨filter', classified', rfl⟩ := Option.map_eq_some_iff.mp done
  obtain rfl : filter = filter' := Option.some.inj (classified.symm.trans classified')
  obtain ⟨copies, kniCopy, chain, frames, kniFrame, -, events⟩ :=
    deliver_granted (sys.globalsOf proc) (sys.callFor key fromRing) addr pkt memory broadcast
  rw [events]
  exact countP_neighbourEvents due port polled fromRing copy.frame
    (fun j => (frames j).trans copy.frame) (kniFrame.trans copy.frame) copy.csumBad

end

theorem processPacket_brings_other (other : pkt.frame ≠ frame) {addr : Nat} {memory : CloneMemory}
    (done : processPacket (sys.globalsOf proc) (sys.callFor key fromRing) addr pkt
      memory.granted = some events) : events.countP (target.brings frame key) = 0 := by
  refine countP_eq_zero.mpr fun event within brings => other ?_
  rw [← (processPacket_emits (sys.globalsOf_noDispatcher proc) done event within).frame]
  exact brings_frame brings

/-- What holds of the events of every packet of a batch holds of all its events. -/
theorem FanOut.batchEvents_forall {Holds : RxEvent → Prop}
    (done : sys.batchEvents proc key fromRing memory pkts = some events)
    (each : ∀ pkt ∈ pkts, ∀ addr (memory : CloneMemory) events,
      processPacket (sys.globalsOf proc) (sys.callFor key fromRing) addr pkt memory.granted =
        some events → ∀ event ∈ events, Holds event) : ∀ event ∈ events, Holds event := by
  refine processPackets_forall done fun entry within addr events step => ?_
  obtain ⟨⟨pkt, index⟩, indexed, rfl⟩ := mem_map.mp within
  exact each pkt (fst_mem_of_mem_zipIdx indexed) addr _ events step

/-- Packets from a ring are never put into a ring again. -/
theorem FanOut.batchEvents_fromRing
    (done : sys.batchEvents proc key true memory pkts = some events) :
    ∀ event ∈ events, ∀ portId queueId copy, event ≠ .toDispatchRing portId queueId copy := by
  refine batchEvents_forall done ?_
  rintro _ _ _ _ _ step _ within portId queueId copy rfl
  cases processPacket_emits (sys.globalsOf_noDispatcher proc) step _ within with
  | toDispatchRing _ nic => cases nic

/-- A batch brings as many copies as it has packets of the frame. -/
theorem FanOut.batchEvents_brings (worth : Nat)
    (done : sys.batchEvents proc key fromRing memory pkts = some events)
    (each : ∀ pkt ∈ pkts, pkt.frame = frame → ∀ addr (memory : CloneMemory) events,
      processPacket (sys.globalsOf proc) (sys.callFor key fromRing) addr pkt memory.granted =
        some events → events.countP (target.brings frame key) = worth) :
    events.countP (target.brings frame key) = worth * pkts.countP (carries frame) := by
  rw [processPackets_countP (fun pkt => if carries frame pkt then worth else 0) done ?_,
    map_map, ← Lists.sum_map_ite_const]
  · conv_rhs => rw [← zipIdx_map_fst 0 pkts, map_map]
    rfl
  intro entry within addr events step
  obtain ⟨⟨pkt, index⟩, indexed, rfl⟩ := mem_map.mp within
  by_cases own : pkt.frame = frame
  · rw [each pkt (fst_mem_of_mem_zipIdx indexed) own addr _ events step]
    simp [carries, own]
  · rw [processPacket_brings_other own step]
    simp [carries, own]

end Neighbours

section Moves

variable {sys : FanOut} {target : Target} {frame proc : Nat}

/-- A sum over processes changes by what one of them changes. -/
theorem sum_update {size : Nat} (inside : proc < size) (worth : ProcState → Nat)
    (procs : Nat → ProcState) (process : ProcState) :
    ∑ other ∈ Finset.range size, worth (update procs proc process other) +
        worth (procs proc) =
      ∑ other ∈ Finset.range size, worth (procs other) + worth process := by
  have member : proc ∈ Finset.range size := mem_range.mpr inside
  have moved (other : Nat) : worth (update procs proc process other) =
      update (fun other => worth (procs other)) proc (worth process) other :=
    apply_update (fun _ => worth) procs proc process other
  simp only [moved]
  rw [Finset.sum_update_of_mem member, ← Finset.sum_erase_add _ _ member, Finset.sdiff_singleton_eq_erase]
  omega

variable {state : SysState}

/-- Performing an event keeps the number of copies. -/
theorem FanOut.credit_performNext (inside : proc < sys.nbProcs) {event : RxEvent}
    {rest : List RxEvent} (todo : (state.procs proc).todo = some (event :: rest)) :
    sys.credit target frame (performNext proc event rest state) =
      sys.credit target frame state := by
  have moved := sum_update inside (target.pending frame) state.procs
    ⟨(state.procs proc).pc, (state.procs proc).current, some rest⟩
  have before : target.pending frame (state.procs proc) =
      target.pending frame ⟨(state.procs proc).pc, (state.procs proc).current, some rest⟩ +
        if target.brings frame (state.procs proc).current event then 1 else 0 := by
    simp [pending, todo, countP_cons]
  have deliveries := target.delivered_perform frame state (state.procs proc).current event
  have enqueued := target.rings_perform frame state (state.procs proc).current event
  have parts := target.brings_eq_add frame (state.procs proc).current event
  simp only [credit, performNext, SysState.perform_procs]
  change (target.delivered (state.perform _ event)).countP _ +
    ((state.perform _ event).rings target.key).countP _ + _ = _
  omega

variable (target frame) in
/-- A process that has nothing to do gets the events of a batch. -/
theorem FanOut.credit_batch {next : SysState} {pc : Nat} {key : Nat × Nat} {events : List RxEvent}
    (inside : proc < sys.nbProcs) (idle : (state.procs proc).todo = some [])
    (procs : next.procs = update state.procs proc ⟨pc, key, some events⟩)
    (same : target.delivered next = target.delivered state) :
    sys.credit target frame next + (state.rings target.key).countP (carries frame) =
      sys.credit target frame state + (next.rings target.key).countP (carries frame) +
        events.countP (target.brings frame key) := by
  have moved := sum_update inside (target.pending frame) state.procs ⟨pc, key, some events⟩
  have before : target.pending frame (state.procs proc) = 0 := by
    simp [pending, idle]
  have after : target.pending frame ⟨pc, key, some events⟩ =
      events.countP (target.brings frame key) := rfl
  unfold credit
  rw [procs, same]
  omega

/-- The process that takes the packets of a ring has what the ring had. -/
theorem FanOut.credit_takeFromRing {move : RxMove} (inside : move.proc < sys.nbProcs)
    {key : Nat × Nat} (idle : (state.procs move.proc).todo = some []) {events : List RxEvent}
    (done : sys.batchEvents move.proc key true move.memory ((state.rings key).take rxBurst) =
      some events)
    (brought : events.countP (target.brings frame key) =
      if key = target.key then ((state.rings key).take rxBurst).countP (carries frame) else 0) :
    sys.credit target frame (sys.takeFromRing move key state) = sys.credit target frame state := by
  have batch := credit_batch target frame inside idle
    (show (sys.takeFromRing move key state).procs = _ by simp only [takeFromRing, done]; rfl) rfl
  have remaining : ((sys.takeFromRing move key state).rings target.key).countP (carries frame) +
      events.countP (target.brings frame key) =
        (state.rings target.key).countP (carries frame) := by
    rw [brought]
    dsimp only [takeFromRing]
    by_cases here : key = target.key
    · rw [if_pos here, ← here, update_self, Nat.add_comm, ← countP_append,
        take_append_drop]
    · rw [if_neg here, update_of_ne (symm here), Nat.add_zero]
  omega

/-- Received frames add what their events bring. -/
theorem FanOut.credit_receive {move : RxMove} (inside : move.proc < sys.nbProcs) {key : Nat × Nat}
    (idle : (state.procs move.proc).todo = some []) {events : List RxEvent}
    (done : sys.batchEvents move.proc key false move.memory
      (numbered state.received.length move.frames) = some events) :
    sys.credit target frame (sys.receive move key state) =
      sys.credit target frame state + events.countP (target.brings frame key) := by
  have batch := credit_batch target frame inside idle
    (show (sys.receive move key state).procs = _ by simp only [receive, done]; rfl) rfl
  have same : (sys.receive move key state).rings = state.rings := rfl
  rw [same] at batch
  omega

end Moves

end FStack
