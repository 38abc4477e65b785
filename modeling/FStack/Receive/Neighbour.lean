import FStack.Packet.Reads
import FStack.Receive.FanOut

/-!
# Neighbour frames and their copies

A neighbour frame is an ARP or neighbour discovery frame with complete headers. Copies
made by `pktmbuf_deep_clone` agree with it on everything its class and its treatment
depend on, although the rest of their buffers is stale.
-/

namespace FStack

/-- A segment starts with the data of another one, and has its length and flags. The data is
the same if that of the original lies inside its buffer. -/
structure SegmentCopy (orig copy : RteMbuf) : Prop where
  dataLen : copy.dataLen = orig.dataLen
  data : orig.data <+: copy.data
  olFlags : copy.olFlags = orig.olFlags

/-- A copy holds the data of every segment and the flags of the original, its length and its
number. -/
structure CopyOf (orig copy : Packet) : Prop where
  segs : List.Forall₂ SegmentCopy orig.segs copy.segs
  bytes : SameBytes orig.head.dataLen.toNat orig.head.room copy.head.room
  pktLen : copy.head.pktLen = orig.head.pktLen
  frame : copy.frame = orig.frame

theorem SegmentCopy.refl (seg : RteMbuf) : SegmentCopy seg seg := ⟨rfl, List.prefix_rfl, rfl⟩

theorem SegmentCopy.trans {orig copy again : RteMbuf} (first : SegmentCopy orig copy)
    (second : SegmentCopy copy again) : SegmentCopy orig again :=
  ⟨second.dataLen.trans first.dataLen, first.data.trans second.data,
    second.olFlags.trans first.olFlags⟩

/-- What was copied is the data, if there was as much as the segment says. -/
theorem SegmentCopy.data_eq {orig copy : RteMbuf} (same : SegmentCopy orig copy)
    (inside : orig.dataLen.toNat ≤ orig.room.length) : copy.data = orig.data := by
  refine (same.data.eq_of_length_le ?_).symm
  rw [RteMbuf.data, RteMbuf.data, same.dataLen, List.length_take_of_le inside]
  exact List.length_take_le ..

theorem CopyOf.refl (pkt : Packet) : CopyOf pkt pkt :=
  ⟨List.forall₂_same.mpr fun seg _ => .refl seg, fun _ _ => rfl, rfl, rfl⟩

variable {copy orig : Packet}

/-- The data of a packet is copied as a whole. -/
theorem CopyOf.data_eq (same : CopyOf orig copy)
    (inside : ∀ seg ∈ orig.segs, seg.dataLen.toNat ≤ seg.room.length) : copy.data = orig.data := by
  have segs := same.segs
  unfold Packet.data
  generalize orig.segs = originals at segs inside
  generalize copy.segs = copies at segs
  induction segs with
  | nil => rfl
  | cons here _ ih =>
    obtain ⟨first, rest⟩ := List.forall_mem_cons.mp inside
    rw [List.flatMap_cons, List.flatMap_cons, here.data_eq first, ih rest]

theorem CopyOf.head (same : CopyOf orig copy) : SegmentCopy orig.head copy.head :=
  (List.forall₂_cons.mp same.segs).1

theorem CopyOf.csumBad (same : CopyOf orig copy) : csumBad copy = csumBad orig := by
  unfold FStack.csumBad
  rw [same.head.olFlags]

/-- An ARP or neighbour discovery frame with complete headers. -/
structure IsNeighbour (globals : FilterGlobals) (pkt : Packet) : Prop where
  complete : HeaderComplete pkt.head.room pkt.head.dataLen.toNat
  classified : ∃ filter, isBroadcast filter = true ∧
    protocolFilter globals pkt.head.room pkt.head.dataLen.toNat = some filter

/-- A copy is classified like the packet. -/
theorem CopyOf.classified (same : CopyOf orig copy) {globals : FilterGlobals}
    (neighbour : IsNeighbour globals orig) :
    ∃ filter, isBroadcast filter = true ∧
      protocolFilter globals copy.head.room copy.head.dataLen.toNat = some filter := by
  obtain ⟨filter, broadcast, classified⟩ := neighbour.classified
  refine ⟨filter, broadcast, ?_⟩
  rw [same.head.dataLen, ← classified]
  exact (protocolFilter_sameBytes globals orig.head.dataLen.toNat_lt neighbour.complete
    same.bytes).symm

theorem byteAt_append_take (data stale : List UInt8) (count : Nat) (inside : count ≤ data.length) :
    SameBytes count data (data.take count ++ stale) := by
  intro offset before
  unfold byteAt
  rw [List.getD_eq_getElem?_getD, List.getD_eq_getElem?_getD,
    List.getElem?_append_left (by rw [List.length_take]; omega), List.getElem?_take_of_lt before]


theorem segmentCopy_deepAttach (mi m : RteMbuf) : SegmentCopy m (pktmbufDeepAttach mi m) := by
  refine ⟨rfl, ?_, rfl⟩
  rw [RteMbuf.data, RteMbuf.data, List.prefix_take_iff]
  exact ⟨List.prefix_append .., List.length_take_le ..⟩

/-- With every allocation granted, the loop copies every segment. -/
theorem cloneSegs_granted {alloc : AllocOutcomes} (granted : ∀ k, (alloc k).isSome = true)
    (addr index : Nat) (segs : List RteMbuf) : (cloneSegs alloc addr index segs).2 = true ∧
      List.Forall₂ SegmentCopy segs (cloneSegs alloc addr index segs).1 := by
  induction segs generalizing index with
  | nil => exact ⟨rfl, .nil⟩
  | cons md rest ih =>
    obtain ⟨room, found⟩ := Option.isSome_iff_exists.mp (granted index)
    obtain ⟨finished, copies⟩ := ih (index + 1)
    simp only [cloneSegs, found]
    exact ⟨finished, .cons (segmentCopy_deepAttach ..) copies⟩

/-- With every allocation granted, a clone is finished and is a copy. -/
theorem pktmbufDeepClone_granted (alloc : AllocOutcomes) (granted : ∀ k, (alloc k).isSome = true)
    (addr : Nat) (md : Packet) :
    ∃ mc, pktmbufDeepClone alloc addr md = .cloned mc ∧ mc.frame = md.frame ∧
      (md.head.dataLen.toNat ≤ md.head.room.length → CopyOf md mc) := by
  obtain ⟨room, found⟩ := Option.isSome_iff_exists.mp (granted 0)
  obtain ⟨finished, copies⟩ := cloneSegs_granted granted addr 1 md.next
  refine ⟨clonePacket addr room md (cloneSegs alloc addr 1 md.next).1, ?_, rfl, fun inside => ?_⟩
  · simp only [pktmbufDeepClone, found, finished, if_true]
  · have head := segmentCopy_deepAttach (rtePktmbufAlloc addr room) md.head
    exact ⟨.cons ⟨head.dataLen, head.data, head.olFlags⟩ copies,
      byteAt_append_take _ _ _ inside, rfl, rfl⟩

/-- What is done with a neighbour frame when nothing fails: copies for the other
queues, a copy for KNI, and the stack. -/
def neighbourEvents (globals : RxGlobals) (call : RxCall) (pkt : Packet) (copy : Nat → Packet)
    (kniCopy : Packet) (chain : List BsdMbuf) : List RxEvent :=
  (if call.pktsFromRing then []
    else (List.range (globals.nbQueues call)).flatMap fun j =>
      if j = call.queueId then []
      else [.cloned (copy j), .toDispatchRing call.portId j (copy j)]) ++
  (if globals.filter.enableKni && globals.procPrimary then
      [.cloned kniCopy, .toKniRing call.portId kniCopy]
    else []) ++
  if call.rxCsum && csumBad pkt then [.freed pkt] else [.toStack pkt chain]

/-- With memory, a packet goes to the stack unless its checksum is bad. -/
theorem vethEvents_granted (rxCsum : Bool) (memory : CloneMemory) (pkt : Packet) :
    ∃ chain, vethEvents rxCsum memory.granted.veth pkt =
      if rxCsum && csumBad pkt then [.freed pkt] else [.toStack pkt chain] := by
  unfold vethEvents
  cases flagged : rxCsum && csumBad pkt with
  | true =>
    refine ⟨[], ?_⟩
    rw [ffVethInput_noHeader (by simp [headerObtained, flagged])]
    rfl
  | false =>
    have complete : (ffVethChain memory.granted.veth.mGet 0 pkt.next).2 = true :=
      (ffVethChain_complete_iff _ 0 pkt.next).mpr fun _ _ => rfl
    have obtained : headerObtained rxCsum memory.granted.veth pkt = true := by
      simp [headerObtained, flagged, CloneMemory.granted]
    obtain ⟨hdr, -, input⟩ := ffVethInput_complete obtained complete
    exact ⟨_, by rw [input]; rfl⟩

/-- Without a dispatcher every packet is classified by its own length. -/
theorem processPacket_eq {globals : RxGlobals} (noDispatcher : globals.packetDispatcher = none)
    (call : RxCall) (addr : Nat) (pkt : Packet) (faults : RxFaults) :
    processPacket globals call addr pkt faults =
      (protocolFilter globals.filter pkt.head.room pkt.head.dataLen.toNat).map
        (deliver globals call faults addr pkt) := by
  have consulted : dispatcherAnswer globals call pkt = none := by
    simp [dispatcherAnswer, noDispatcher]
  simp [processPacket, dispatch, consulted]

/-- The events of a broadcast frame when nothing fails. -/
theorem deliver_granted (globals : RxGlobals) (call : RxCall) (addr : Nat) (pkt : Packet)
    (memory : CloneMemory) {filter : FilterReturn} (broadcast : isBroadcast filter = true) :
    ∃ copy kniCopy chain, (∀ j, (copy j : Packet).frame = pkt.frame) ∧
      (kniCopy : Packet).frame = pkt.frame ∧
      (pkt.head.dataLen.toNat ≤ pkt.head.room.length → ∀ j, CopyOf pkt (copy j)) ∧
      deliver globals call memory.granted addr pkt filter =
        neighbourEvents globals call pkt copy kniCopy chain := by
  have clones (j : Nat) := pktmbufDeepClone_granted (memory.granted.cloneAlloc j) (fun _ => rfl)
    (addr + j * pkt.segs.length) pkt
  choose copy cloned frames copies using clones
  obtain ⟨kniCopy, kniCloned, kniFrame, -⟩ := pktmbufDeepClone_granted memory.granted.kniCloneAlloc
    (fun _ => rfl) (addr + globals.nbQueues call * pkt.segs.length) pkt
  obtain ⟨chain, input⟩ := vethEvents_granted call.rxCsum memory pkt
  refine ⟨copy, kniCopy, chain, frames, kniFrame, fun inside j => copies j inside, ?_⟩
  simp only [deliver, broadcast, input, FStack.broadcast, FStack.kniCopy, cloned, kniCloned]
  rfl

end FStack
