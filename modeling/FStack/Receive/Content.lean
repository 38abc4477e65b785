import FStack.Receive.VethInput

/-!
# What the stack gets of a received packet

The chain that `ff_veth_input` passes on presents the packet: one mbuf for each segment, with
its data in the segment itself, and a header that has the length of the packet.

The checksum status of a packet is a field of two bits of its flags. `PKT_RX_IP_CKSUM_NONE` and
`PKT_RX_L4_CKSUM_NONE`, by which a driver says that the bytes of the checksum are not correct
but that the packet has been verified, contain the bit of the value for a bad checksum, and the
test of `ff_veth_input` looks at that bit alone.
-/

namespace FStack

open BitVec

/-- `PKT_RX_IP_CKSUM_MASK`. -/
def pktRxIpCksumMask : BitVec 64 := 0x90

/-- `PKT_RX_IP_CKSUM_NONE`. -/
def pktRxIpCksumNone : BitVec 64 := 0x90

/-- `PKT_RX_L4_CKSUM_MASK`. -/
def pktRxL4CksumMask : BitVec 64 := 0x108

/-- `PKT_RX_L4_CKSUM_NONE`. -/
def pktRxL4CksumNone : BitVec 64 := 0x108

namespace Packet

/-- The NIC reports that the IP or the L4 checksum is wrong. -/
def cksumBad (pkt : Packet) : Prop :=
  pkt.head.olFlags &&& pktRxIpCksumMask = pktRxIpCksumBad ∨
    pkt.head.olFlags &&& pktRxL4CksumMask = pktRxL4CksumBad

/-- The NIC reports that the packet is intact, but that the IP or the L4 checksum is not in it. -/
def cksumNone (pkt : Packet) : Prop :=
  pkt.head.olFlags &&& pktRxIpCksumMask = pktRxIpCksumNone ∨
    pkt.head.olFlags &&& pktRxL4CksumMask = pktRxL4CksumNone

instance (pkt : Packet) : Decidable pkt.cksumBad := inferInstanceAs (Decidable (_ ∨ _))

instance (pkt : Packet) : Decidable pkt.cksumNone := inferInstanceAs (Decidable (_ ∨ _))

end Packet

/-- The data of a BSD mbuf: as many bytes from its data pointer on as it has. -/
def BsdMbuf.data (m : BsdMbuf) : List UInt8 := m.mData.room.take m.mLen.toNat

/-- A chain presents a packet. The data pointers lie in the packet's own segments. -/
structure Presents (chain : List BsdMbuf) (pkt : Packet) : Prop where
  segments : chain.map (·.mData) = pkt.segs
  bytes : chain.flatMap BsdMbuf.data = pkt.data
  header : ∃ hdr ∈ chain.head?, ∃ pkthdr ∈ hdr.pkthdr, pkthdr.len.toNat = pkt.data.length

/-- The stack gets the packet, or the packet is dropped and that for its checksum. -/
structure ReceivedAs (rxCsum : Bool) (pkt : Packet) (outcome : VethOutcome) : Prop where
  dropped : (∃ frees, outcome = .dropped frees) ↔ rxCsum = true ∧ pkt.cksumBad
  input : ∀ chain, outcome = .input chain → Presents chain pkt

/-- A field of two bits takes each of its values by its bits. -/
theorem and_pair (flags : BitVec 64) (i j : Nat) :
    flags &&& (twoPow 64 i ||| twoPow 64 j) =
      (if flags.getLsbD i then twoPow 64 i else 0#64) |||
        if flags.getLsbD j then twoPow 64 j else 0#64 := by
  rw [and_or_distrib_left, and_twoPow, and_twoPow]

/-- The test of `ff_veth_input` is met by the values for bad and for missing checksums. -/
theorem csumBad_iff (pkt : Packet) : csumBad pkt = true ↔ pkt.cksumBad ∨ pkt.cksumNone := by
  have tested := and_pair pkt.head.olFlags 4 3
  have ip := and_pair pkt.head.olFlags 4 7
  have l4 := and_pair pkt.head.olFlags 3 8
  change pkt.head.olFlags &&& (pktRxIpCksumBad ||| pktRxL4CksumBad) = _ at tested
  change pkt.head.olFlags &&& pktRxIpCksumMask = _ at ip
  change pkt.head.olFlags &&& pktRxL4CksumMask = _ at l4
  unfold csumBad Packet.cksumBad Packet.cksumNone
  rw [tested, ip, l4]
  cases pkt.head.olFlags.getLsbD 3 <;> cases pkt.head.olFlags.getLsbD 4 <;>
    cases pkt.head.olFlags.getLsbD 7 <;> cases pkt.head.olFlags.getLsbD 8 <;> decide

/-- Every allocation that is made for a packet succeeds. -/
structure VethFaults.AllSucceed (faults : VethFaults) (pkt : Packet) : Prop where
  mGethdr : faults.mGethdr = true
  mPkthdrInit : faults.mPkthdrInit = true
  mGet : ∀ k < pkt.next.length, faults.mGet k = true

section Input

variable {rxCsum : Bool} {faults : VethFaults} {pkt : Packet}

theorem flatMap_data {chain : List BsdMbuf} (lengths : ∀ m ∈ chain, m.mLen = m.mData.dataLen) :
    chain.flatMap BsdMbuf.data = (chain.map (·.mData)).flatMap RteMbuf.data := by
  rw [List.flatMap_map]
  refine List.flatMap_congr fun m member => ?_
  rw [BsdMbuf.data, lengths m member]
  rfl

/-- With all mbufs obtained, a packet whose length fits 16 bits is presented. -/
theorem ffVethInput_presents (consistent : pkt.Consistent) (short : pkt.head.pktLen.toNat < 65536)
    (succeed : faults.AllSucceed pkt) (tested : (rxCsum && csumBad pkt) = false) :
    ∃ chain, ffVethInput rxCsum faults pkt = .input chain ∧ Presents chain pkt := by
  have obtained : headerObtained rxCsum faults pkt = true := by
    simp [headerObtained, tested, succeed.mGethdr, succeed.mPkthdrInit]
  have complete : (ffVethChain faults.mGet 0 pkt.next).2 = true := by
    refine (ffVethChain_complete_iff faults.mGet 0 pkt.next).mpr fun k inside => ?_
    rw [Nat.zero_add]
    exact succeed.mGet k inside
  obtain ⟨hdr, heads, input⟩ := ffVethInput_complete obtained complete
  have segments : (hdr :: (ffVethChain faults.mGet 0 pkt.next).1).map (·.mData) = pkt.segs := by
    rw [List.map_cons, ffVethChain_mData complete, heads.mData, Packet.segs]
  have lengths : ∀ m ∈ hdr :: (ffVethChain faults.mGet 0 pkt.next).1,
      m.mLen = m.mData.dataLen :=
    List.forall_mem_cons.mpr
      ⟨heads.mData ▸ heads.mLen, ffVethChain_mLen faults.mGet 0 pkt.next⟩
  refine ⟨_, input, segments, ?_, hdr, rfl, ?_⟩
  · rw [flatMap_data lengths, segments, Packet.data]
  · obtain ⟨pkthdr, found, len⟩ := Option.map_eq_some_iff.mp heads.len
    refine ⟨pkthdr, found, ?_⟩
    rw [len, UInt32.toNat_toUInt16, Nat.mod_eq_of_lt short, consistent.length]

theorem ffVethInput_tested (tested : (rxCsum && csumBad pkt) = true) :
    ffVethInput rxCsum faults pkt = .dropped [pkt] :=
  ffVethInput_noHeader (by simp [headerObtained, tested])

end Input

/-- For every received packet, if all mbufs are obtained: the stack gets the packet, and the
packet is dropped exactly for a bad checksum, provided that an intact packet whose checksum is
missing does not meet a context with checksum offload. -/
theorem receivedAs_iff (rxCsum : Bool) (faults : VethFaults) (pkt : Packet)
    (consistent : pkt.Consistent) (short : pkt.head.pktLen.toNat < 65536)
    (succeed : faults.AllSucceed pkt) :
    ReceivedAs rxCsum pkt (ffVethInput rxCsum faults pkt) ↔
      (rxCsum = true → pkt.cksumNone → pkt.cksumBad) := by
  cases tested : rxCsum && csumBad pkt with
  | true =>
    rw [ffVethInput_tested tested]
    obtain ⟨offload, flagged⟩ := (Bool.and_eq_true _ _).mp tested
    refine ⟨fun received _ _ => ?_, fun allowed => ⟨?_, ?_⟩⟩
    · exact (received.dropped.mp ⟨_, rfl⟩).2
    · refine iff_of_true ⟨_, rfl⟩ ⟨offload, ?_⟩
      exact ((csumBad_iff pkt).mp flagged).elim id (allowed offload)
    · rintro chain ⟨⟩
  | false =>
    obtain ⟨chain, input, presents⟩ := ffVethInput_presents consistent short succeed tested
    have passed : rxCsum = true → ¬ (pkt.cksumBad ∨ pkt.cksumNone) := by
      intro offload flagged
      rw [offload, (csumBad_iff pkt).mpr flagged] at tested
      cases tested
    rw [input]
    refine iff_of_true ⟨?_, ?_⟩ fun offload none => absurd (.inr none) (passed offload)
    · refine iff_of_false (by rintro ⟨frees, ⟨⟩⟩) ?_
      rintro ⟨offload, bad⟩
      exact passed offload (.inl bad)
    · rintro _ ⟨⟩
      exact presents

theorem receivedAs_twoSegments :
    ReceivedAs true twoSegments (ffVethInput true vethGranted twoSegments) :=
  (receivedAs_iff true vethGranted twoSegments ⟨by decide, by decide⟩ (by decide)
    ⟨rfl, rfl, fun _ _ => rfl⟩).mpr fun _ => by decide

/-- A packet of a virtual NIC that has been verified but carries no L4 checksum. -/
def verifiedPacket : Packet :=
  { twoSegments with head := { plainSegment 0 with olFlags := pktRxL4CksumNone } }

/-- The packet is intact by its flags, and dropped. -/
theorem not_receivedAs_verifiedPacket :
    ¬ verifiedPacket.cksumBad ∧
      ffVethInput true vethGranted verifiedPacket = .dropped [verifiedPacket] ∧
      ¬ ReceivedAs true verifiedPacket (ffVethInput true vethGranted verifiedPacket) := by
  refine ⟨by decide, by decide, fun received => ?_⟩
  exact absurd (received.dropped.mp ⟨[verifiedPacket], by decide⟩).2 (by decide)

end FStack
