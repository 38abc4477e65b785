import FStack.Packet.Mbuf

/-!
# From DPDK packets to BSD mbufs

`ff_veth_input` wraps each segment of a packet in a BSD mbuf. Only the header
mbuf carries a free routine, and that routine frees the whole DPDK packet.
-/

namespace FStack

/-- Outcomes of the BSD allocations made for one packet: `m_gethdr`,
`m_pkthdr_init`, and `m_get` for each further segment. -/
structure VethFaults where
  mGethdr : Bool
  mPkthdrInit : Bool
  mGet : Nat → Bool

/-- Every allocation succeeds. -/
def vethGranted : VethFaults where
  mGethdr := true
  mPkthdrInit := true
  mGet _ := true

/-- `m_free`: the packets its external free routine hands to `rte_pktmbuf_free`. -/
def mFree (m : BsdMbuf) : List Packet := m.extFree.toList

/-- `ff_mbuf_free`, that is `m_freem`: every mbuf of the chain, head first. -/
def ffMbufFree (chain : List BsdMbuf) : List Packet := chain.flatMap mFree

/-- `ff_mbuf_gethdr`. Where `m_pkthdr_init` fails the mbuf is lost, but the
packet was not attached to it yet. -/
def ffMbufGethdr (faults : VethFaults) (pkt : Packet) (rxCsum : Bool) : Option BsdMbuf :=
  if !faults.mGethdr then none
  else if !faults.mPkthdrInit then none
  else
    some
      { mData := pkt.head
        mLen := pkt.head.dataLen
        extFree := some pkt
        pkthdr := some
          { len := pkt.head.pktLen.toUInt16
            csumValid := rxCsum
            vlanTag := none } }

/-- `ff_mbuf_set_vlan_info`. -/
def ffMbufSetVlanInfo (hdr : BsdMbuf) (vlanTci : UInt16) : BsdMbuf :=
  { hdr with pkthdr := hdr.pkthdr.map fun pkthdr => { pkthdr with vlanTag := some vlanTci } }

/-- `ff_mbuf_get`: external storage without a free routine. -/
def ffMbufGet (obtained : Bool) (seg : RteMbuf) : Option BsdMbuf :=
  if !obtained then none
  else some { mData := seg, mLen := seg.dataLen, extFree := none, pkthdr := none }

/-- The loop of `ff_veth_input` over the further segments: the mbufs linked so
far, and whether it reached the end. -/
def ffVethChain (mGet : Nat → Bool) : Nat → List RteMbuf → List BsdMbuf × Bool
  | _, [] => ([], true)
  | index, pn :: rest =>
    match ffMbufGet (mGet index) pn with
    | none => ([], false)
    | some mb =>
      let linked := ffVethChain mGet (index + 1) rest
      (mb :: linked.1, linked.2)

/-- What `ff_veth_input` does with a packet: the `rte_pktmbuf_free` calls it
makes, or the mbuf chain it passes to `if_input`. -/
inductive VethOutcome where
  | dropped (frees : List Packet)
  | input (chain : List BsdMbuf)
deriving DecidableEq, Repr

/-- The NIC flagged a bad IP or L4 checksum. -/
def csumBad (pkt : Packet) : Bool :=
  pkt.head.olFlags &&& (pktRxIpCksumBad ||| pktRxL4CksumBad) ≠ 0

/-- `ff_veth_input`. -/
def ffVethInput (rxCsum : Bool) (faults : VethFaults) (pkt : Packet) : VethOutcome :=
  if rxCsum && csumBad pkt then .dropped [pkt]
  else
    match ffMbufGethdr faults pkt rxCsum with
    | none => .dropped [pkt]
    | some hdr =>
      let hdr :=
        if pkt.head.olFlags &&& pktRxVlanStripped ≠ 0 then ffMbufSetVlanInfo hdr pkt.head.vlanTci
        else hdr
      let linked := ffVethChain faults.mGet 0 pkt.next
      if linked.2 then .input (hdr :: linked.1)
      -- `ff_mbuf_free(hdr)` and then `rte_pktmbuf_free(pkt)`.
      else .dropped (ffMbufFree (hdr :: linked.1) ++ [pkt])

section

variable (mGet : Nat → Bool) (index : Nat) (segs : List RteMbuf)

/-- The loop reaches the end exactly when every `m_get` succeeds. -/
theorem ffVethChain_complete_iff :
    (ffVethChain mGet index segs).2 = true ↔ ∀ k, k < segs.length → mGet (index + k) = true := by
  induction segs generalizing index with
  | nil => simp [ffVethChain]
  | cons pn rest ih =>
    cases obtained : mGet index with
    | false =>
      refine iff_of_false (by simp [ffVethChain, ffMbufGet, obtained]) fun all => ?_
      have first := all 0 (by simp)
      simp [obtained] at first
    | true =>
      simp only [ffVethChain, ffMbufGet, obtained, Bool.not_true, Bool.false_eq_true, if_false]
      rw [ih]
      constructor
      · intro others k inside
        obtain _ | k := k
        · exact obtained
        · rw [show index + (k + 1) = index + 1 + k by omega]
          exact others k (by simpa using inside)
      · intro all k inside
        rw [show index + 1 + k = index + (k + 1) by omega]
        exact all (k + 1) (by simpa using inside)

/-- A finished loop has linked one mbuf for each segment, in order. -/
theorem ffVethChain_mData {mGet : Nat → Bool} {index : Nat} {segs : List RteMbuf}
    (complete : (ffVethChain mGet index segs).2 = true) :
    (ffVethChain mGet index segs).1.map (·.mData) = segs := by
  induction segs generalizing index with
  | nil => rfl
  | cons pn rest ih =>
    cases obtained : mGet index with
    | false => simp [ffVethChain, ffMbufGet, obtained] at complete
    | true =>
      simp only [ffVethChain, ffMbufGet, obtained, Bool.not_true, Bool.false_eq_true,
        if_false] at complete ⊢
      rw [List.map_cons, ih complete]

/-- What `ff_mbuf_get` gives for every segment holds of every mbuf behind the header. -/
theorem forall_mem_ffVethChain {holds : BsdMbuf → Prop}
    (one : ∀ seg, holds { mData := seg, mLen := seg.dataLen, extFree := none, pkthdr := none }) :
    ∀ m ∈ (ffVethChain mGet index segs).1, holds m := by
  induction segs generalizing index with
  | nil => simp [ffVethChain]
  | cons pn rest ih =>
    cases obtained : mGet index with
    | false => simp [ffVethChain, ffMbufGet, obtained]
    | true =>
      intro m member
      simp only [ffVethChain, ffMbufGet, obtained, Bool.not_true, Bool.false_eq_true, if_false,
        List.mem_cons] at member
      rcases member with rfl | member
      · exact one pn
      · exact ih (index + 1) m member

/-- No mbuf behind the header carries a free routine. -/
theorem ffVethChain_extFree : ∀ m ∈ (ffVethChain mGet index segs).1, m.extFree = none :=
  forall_mem_ffVethChain mGet index segs fun _ => rfl

/-- An mbuf behind the header is as long as the data of its segment. -/
theorem ffVethChain_mLen :
    ∀ m ∈ (ffVethChain mGet index segs).1, m.mLen = m.mData.dataLen :=
  forall_mem_ffVethChain mGet index segs fun _ => rfl

/-- Freeing a chain that is headed by the packet's header mbuf frees the packet
once, through the header. -/
theorem ffMbufFree_chain {hdr : BsdMbuf} {pkt : Packet} (owner : hdr.extFree = some pkt) :
    ffMbufFree (hdr :: (ffVethChain mGet index segs).1) = [pkt] := by
  have rest : (ffVethChain mGet index segs).1.flatMap mFree = [] := by
    rw [List.flatMap_eq_nil_iff]
    intro m member
    simp [mFree, ffVethChain_extFree mGet index segs m member]
  simp [ffMbufFree, rest, mFree, owner]

end

variable {pkt : Packet} {faults : VethFaults} {rxCsum : Bool}

/-- The header mbuf is obtained: the packet is not dropped for its checksum and
neither `m_gethdr` nor `m_pkthdr_init` fails. -/
def headerObtained (rxCsum : Bool) (faults : VethFaults) (pkt : Packet) : Bool :=
  !(rxCsum && csumBad pkt) && faults.mGethdr && faults.mPkthdrInit

/-- Without a header mbuf the packet is freed once. -/
theorem ffVethInput_noHeader (missing : headerObtained rxCsum faults pkt = false) :
    ffVethInput rxCsum faults pkt = .dropped [pkt] := by
  unfold ffVethInput ffMbufGethdr
  unfold headerObtained at missing
  cases dropped : rxCsum && csumBad pkt <;> cases gethdr : faults.mGethdr <;>
    cases init : faults.mPkthdrInit <;> simp_all

/-- The header mbuf that is made for a packet. -/
structure BsdMbuf.Heads (hdr : BsdMbuf) (pkt : Packet) : Prop where
  mData : hdr.mData = pkt.head
  mLen : hdr.mLen = pkt.head.dataLen
  extFree : hdr.extFree = some pkt
  len : hdr.pkthdr.map (·.len) = some pkt.head.pktLen.toUInt16

variable (obtained : headerObtained rxCsum faults pkt = true)

include obtained

/-- With a header mbuf and an mbuf for every further segment, the stack gets a
chain whose header alone owns the packet. -/
theorem ffVethInput_complete (complete : (ffVethChain faults.mGet 0 pkt.next).2 = true) :
    ∃ hdr : BsdMbuf, hdr.Heads pkt ∧
      ffVethInput rxCsum faults pkt = .input (hdr :: (ffVethChain faults.mGet 0 pkt.next).1) := by
  unfold headerObtained at obtained
  simp only [Bool.and_eq_true, Bool.not_eq_true'] at obtained
  obtain ⟨⟨checked, gethdr⟩, init⟩ := obtained
  unfold ffVethInput ffMbufGethdr
  simp only [checked, gethdr, init, complete]
  refine ⟨_, ?_, rfl⟩
  split <;> exact ⟨rfl, rfl, rfl, rfl⟩

/-- Where an mbuf is missing, the header's free routine and the error path free
the packet one after the other. -/
theorem ffVethInput_incomplete (incomplete : (ffVethChain faults.mGet 0 pkt.next).2 = false) :
    ffVethInput rxCsum faults pkt = .dropped [pkt, pkt] := by
  unfold headerObtained at obtained
  simp only [Bool.and_eq_true, Bool.not_eq_true'] at obtained
  obtain ⟨⟨checked, gethdr⟩, init⟩ := obtained
  unfold ffVethInput ffMbufGethdr
  simp only [checked, gethdr, init, incomplete, Bool.false_eq_true, Bool.not_true, if_false]
  rw [ffMbufFree_chain _ _ _ (by split <;> rfl)]
  rfl

end FStack
