import FStack.Packet.Classifier

/-!
# Deep clones

`pktmbuf_deep_clone` copies a packet segment by segment into fresh mbufs. Each
allocation may fail, and a fresh buffer still holds old bytes, so an allocation
outcome is either `none` or the memory the pool hands out.
-/

namespace FStack

/-- Outcomes of successive `rte_pktmbuf_alloc` calls: failure, or the stale
memory of the buffer handed out. -/
abbrev AllocOutcomes := Nat → Option (List UInt8)

/-- `rte_pktmbuf_alloc` followed by its reset: the mbuf named `addr` over the
given stale memory. -/
def rtePktmbufAlloc (addr : Nat) (room : List UInt8) : RteMbuf where
  addr := addr
  room := room
  dataLen := 0
  headroom := 128
  pktLen := 0
  nbSegs := 1
  olFlags := 0
  vlanTci := 0
  vlanTciOuter := 0
  port := 0xFFFF
  txOffload := 0
  hash := 0
  packetType := 0
  frame := 0

/-- `pktmbuf_deep_attach`: copy the data and the metadata of `m` into `mi`. -/
def pktmbufDeepAttach (mi m : RteMbuf) : RteMbuf :=
  { mi with
    dataLen := m.dataLen
    room := m.room.take m.dataLen.toNat ++ mi.room.drop m.dataLen.toNat
    port := m.port
    vlanTci := m.vlanTci
    vlanTciOuter := m.vlanTciOuter
    txOffload := m.txOffload
    hash := m.hash
    olFlags := m.olFlags
    packetType := m.packetType
    frame := m.frame }

/-- The loop of `pktmbuf_deep_clone` behind the first segment: the segments
attached, and whether every allocation succeeded. -/
def cloneSegs (alloc : AllocOutcomes) (addr : Nat) : Nat → List RteMbuf → List RteMbuf × Bool
  | _, [] => ([], true)
  | index, md :: rest =>
    match alloc index with
    | none => ([], false)
    | some room =>
      let copied := cloneSegs alloc addr (index + 1) rest
      (pktmbufDeepAttach (rtePktmbufAlloc (addr + index) room) md :: copied.1, copied.2)

/-- What `pktmbuf_deep_clone` comes to: no first mbuf, a partial copy that it
frees again, or the finished copy. -/
inductive CloneResult where
  | noMbuf
  | failed (mc : Packet)
  | cloned (mc : Packet)
deriving DecidableEq, Repr

/-- The copy under construction: the first mbuf with its packet fields, and the
segments linked behind it. The segment counter is 8 bits wide. -/
def clonePacket (addr : Nat) (room : List UInt8) (md : Packet) (segs : List RteMbuf) : Packet where
  head :=
    { pktmbufDeepAttach (rtePktmbufAlloc addr room) md.head with
      nbSegs := UInt16.ofNat ((1 + segs.length) % 256)
      pktLen := md.head.pktLen }
  next := segs

@[simp] theorem clonePacket_addr (addr : Nat) (room : List UInt8) (md : Packet)
    (segs : List RteMbuf) : (clonePacket addr room md segs).addr = addr := rfl

/-- `pktmbuf_deep_clone`; the mbufs it allocates are named from `addr` on. -/
def pktmbufDeepClone (alloc : AllocOutcomes) (addr : Nat) (md : Packet) : CloneResult :=
  match alloc 0 with
  | none => .noMbuf
  | some room =>
    let copied := cloneSegs alloc addr 1 md.next
    let mc := clonePacket addr room md copied.1
    if copied.2 then .cloned mc else .failed mc

/-- What a clone comes to; a copy, finished or not, is named by its first mbuf. -/
theorem pktmbufDeepClone_cases (alloc : AllocOutcomes) (addr : Nat) (md : Packet) :
    pktmbufDeepClone alloc addr md = .noMbuf ∨
      ∃ mc : Packet, mc.addr = addr ∧
        (pktmbufDeepClone alloc addr md = .cloned mc ∨
          pktmbufDeepClone alloc addr md = .failed mc) := by
  unfold pktmbufDeepClone
  cases alloc 0 with
  | none => exact .inl rfl
  | some room =>
    refine .inr ⟨_, clonePacket_addr addr room md (cloneSegs alloc addr 1 md.next).1, ?_⟩
    cases complete : (cloneSegs alloc addr 1 md.next).2 with
    | true => exact .inl (by simp [complete])
    | false => exact .inr (by simp [complete])

end FStack
