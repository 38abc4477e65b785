import FStack.Receive.VethInput

/-!
# How long received data stays valid

A chain passed to the stack points into the segments of one DPDK packet, and the
header mbuf's free routine gives all of these segments back at once. The stack
frees the mbufs of a chain in an order of its own; `LifetimeRespected` says that
along such an order no segment goes back while a live mbuf still points into it,
and that in the end all have gone back.
-/

namespace FStack

open List

/-- The mbufs of a chain that the stack still holds, and the segments that
`rte_pktmbuf_free` has given back. -/
structure StackMbufs where
  live : List BsdMbuf
  freed : List Nat
deriving Repr

/-- Segments given back when one mbuf is freed. -/
def freedSegments (m : BsdMbuf) : List Nat :=
  (mFree m).flatMap fun pkt => pkt.segs.map (·.addr)

namespace StackMbufs

/-- The chain as the stack gets it. -/
def received (chain : List BsdMbuf) : StackMbufs where
  live := chain
  freed := []

/-- The stack frees one mbuf. -/
def free (mbufs : StackMbufs) (m : BsdMbuf) : StackMbufs where
  live := mbufs.live.erase m
  freed := mbufs.freed ++ freedSegments m

/-- The stack frees mbufs one after the other; `m_freem` does so in link order. -/
def freeAll (mbufs : StackMbufs) (order : List BsdMbuf) : StackMbufs := order.foldl free mbufs

/-- No live mbuf points into a segment that was given back. -/
def Valid (mbufs : StackMbufs) : Prop := ∀ m ∈ mbufs.live, m.mData.addr ∉ mbufs.freed

theorem freeAll_freed (mbufs : StackMbufs) (order : List BsdMbuf) :
    (mbufs.freeAll order).freed = mbufs.freed ++ order.flatMap freedSegments := by
  induction order generalizing mbufs with
  | nil => simp [freeAll]
  | cons m rest ih =>
    change ((mbufs.free m).freeAll rest).freed = _
    rw [ih]
    simp [free]

/-- Freeing a part of the live mbufs leaves the others. -/
theorem freeAll_live {mbufs : StackMbufs} {done rest : List BsdMbuf}
    (held : mbufs.live.Perm (done ++ rest)) : (mbufs.freeAll done).live.Perm rest := by
  induction done generalizing mbufs with
  | nil => exact held
  | cons m done ih =>
    apply ih
    have erased := held.erase m
    rwa [cons_append, erase_cons_head] at erased

end StackMbufs

open StackMbufs

/-- Freeing `chain` in this order keeps every live mbuf's segment, and gives the
whole packet back. -/
def LifetimeRespected (pkt : Packet) (chain order : List BsdMbuf) : Prop :=
  (∀ done rest, order = done ++ rest → ((received chain).freeAll done).Valid) ∧
    ∀ seg ∈ pkt.segs, seg.addr ∈ ((received chain).freeAll order).freed

/-- What `ff_veth_input` builds: the header owns the packet, the other mbufs own
nothing, and each mbuf points into a segment of the packet. -/
structure Wraps (pkt : Packet) (hdr : BsdMbuf) (others : List BsdMbuf) : Prop where
  owner : hdr.extFree = some pkt
  unowned : ∀ m ∈ others, m.extFree = none
  data : (hdr :: others).map (·.mData) = pkt.segs

variable {chain : List BsdMbuf} {faults : VethFaults} {rxCsum : Bool}

/-- The chain has one mbuf for each segment, and its header owns the packet. -/
theorem ffVethInput_wraps {pkt : Packet} (input : ffVethInput rxCsum faults pkt = .input chain) :
    ∃ hdr others, chain = hdr :: others ∧ Wraps pkt hdr others := by
  cases obtained : headerObtained rxCsum faults pkt with
  | false => simp [ffVethInput_noHeader obtained] at input
  | true =>
    cases complete : (ffVethChain faults.mGet 0 pkt.next).2 with
    | false => simp [ffVethInput_incomplete obtained complete] at input
    | true =>
      obtain ⟨hdr, heads, built⟩ := ffVethInput_complete obtained complete
      rw [built] at input
      obtain rfl := VethOutcome.input.inj input
      refine ⟨hdr, _, rfl, heads.extFree, ffVethChain_extFree faults.mGet 0 pkt.next, ?_⟩
      rw [map_cons, ffVethChain_mData complete, heads.mData, Packet.segs]

namespace Wraps

variable {pkt : Packet} {hdr : BsdMbuf} {others : List BsdMbuf} (wraps : Wraps pkt hdr others)

include wraps

theorem freedSegments_hdr : freedSegments hdr = pkt.segs.map (·.addr) := by
  simp [freedSegments, mFree, wraps.owner]

theorem freedSegments_others {part : List BsdMbuf} (inside : ∀ m ∈ part, m ∈ others) :
    part.flatMap freedSegments = [] := by
  rw [flatMap_eq_nil_iff]
  intro m member
  simp [freedSegments, mFree, wraps.unowned m (inside m member)]

theorem mData_addr_mem {m : BsdMbuf} (member : m ∈ hdr :: others) :
    m.mData.addr ∈ pkt.segs.map (·.addr) := by
  rw [← wraps.data, map_map]
  exact mem_map_of_mem member

variable {done order : List BsdMbuf}

/-- A mbuf that outlives the header points into freed memory. -/
theorem invalid_of_hdr_first {last : BsdMbuf} (order : (done ++ [last]).Perm (hdr :: others))
    (early : hdr ∈ done) : ¬ ((received (hdr :: others)).freeAll done).Valid := by
  intro valid
  have left : ((received (hdr :: others)).freeAll done).live.Perm [last] :=
    freeAll_live order.symm
  have held := left.mem_iff.mpr (mem_singleton_self last)
  have pointsInto := wraps.mData_addr_mem (order.subset (by simp) : last ∈ hdr :: others)
  apply valid last held
  rw [freeAll_freed, mem_append]
  refine .inr (mem_flatMap.mpr ⟨hdr, early, ?_⟩)
  rwa [wraps.freedSegments_hdr]

/-- Nothing is given back before the header is freed. -/
theorem valid_of_hdr_last {rest : List BsdMbuf} (permuted : order.Perm others)
    (split : order ++ [hdr] = done ++ rest) :
    ((received (hdr :: others)).freeAll done).Valid := by
  rcases eq_nil_or_concat rest with rfl | ⟨rest, last, rfl⟩
  · -- Everything is freed, so no mbuf is left to be checked.
    rw [append_nil] at split
    subst split
    have left : ((received (hdr :: others)).freeAll (order ++ [hdr])).live.Perm [] := by
      apply freeAll_live
      rw [append_nil]
      exact (permuted.symm.cons hdr).trans (perm_append_singleton hdr order).symm
    intro m member
    simp [left.eq_nil] at member
  · rw [concat_eq_append, ← append_assoc] at split
    obtain ⟨split, -⟩ := append_inj' split rfl
    have early : ∀ m ∈ done, m ∈ others := fun m member =>
      permuted.mem_iff.mp (split ▸ mem_append_left _ member)
    intro m _
    simp [freeAll_freed, wraps.freedSegments_others early, received]

/-- An order of freeing respects the data exactly when it ends with the header. -/
theorem respected_iff (permuted : order.Perm (hdr :: others)) :
    LifetimeRespected pkt (hdr :: others) order ↔ order.getLast? = some hdr := by
  obtain rfl | ⟨done, last, rfl⟩ := eq_nil_or_concat order
  · simp at permuted
  rw [concat_eq_append] at permuted ⊢
  simp only [getLast?_append, getLast?_singleton, Option.some_or, Option.some.injEq]
  constructor
  · rintro ⟨valid, -⟩
    by_contra different
    have member : hdr ∈ done ++ [last] := permuted.mem_iff.mpr mem_cons_self
    have early : hdr ∈ done := by
      rcases mem_append.mp member with early | same
      · exact early
      · exact absurd (mem_singleton.mp same).symm different
    exact wraps.invalid_of_hdr_first permuted early (valid done [last] rfl)
  · rintro rfl
    have rest : done.Perm others := by
      have moved := (perm_append_singleton last done).symm.trans permuted
      exact (perm_cons last).mp moved
    refine ⟨fun first second split => wraps.valid_of_hdr_last rest split, fun seg member => ?_⟩
    rw [freeAll_freed, flatMap_append, mem_append, mem_append]
    refine .inr (.inr ?_)
    simpa [wraps.freedSegments_hdr] using ⟨seg, member, rfl⟩

end Wraps

/-- For a chain that `ff_veth_input` passes to the stack, an order of freeing its
mbufs respects the data exactly when it ends with the header mbuf. -/
theorem lifetimeRespected_iff {rxCsum : Bool} {faults : VethFaults} {pkt : Packet}
    {chain order : List BsdMbuf} (input : ffVethInput rxCsum faults pkt = .input chain)
    (permuted : order.Perm chain) :
    LifetimeRespected pkt chain order ↔ order.getLast? = chain.head? := by
  obtain ⟨hdr, others, rfl, wraps⟩ := ffVethInput_wraps input
  exact wraps.respected_iff permuted


/-- The header mbuf of `twoSegments`. -/
def headerMbuf : BsdMbuf where
  mData := plainSegment 0
  mLen := 1
  extFree := some twoSegments
  pkthdr := some { len := 2, csumValid := false, vlanTag := none }

/-- The mbuf for the second segment. -/
def secondMbuf : BsdMbuf where
  mData := plainSegment 1
  mLen := 1
  extFree := none
  pkthdr := none

/-- Freed from its end, the chain of `twoSegments` keeps its data to the last. -/
theorem lifetimeRespected_secondFirst :
    LifetimeRespected twoSegments [headerMbuf, secondMbuf] [secondMbuf, headerMbuf] :=
  have input : ffVethInput false vethGranted twoSegments = .input [headerMbuf, secondMbuf] := by
    decide
  (lifetimeRespected_iff input (Perm.swap _ _ _)).mpr rfl

/-- Freed from its head, as `m_freem` does, the second mbuf is left pointing into
a freed segment. -/
theorem not_lifetimeRespected_headerFirst :
    ffVethInput false vethGranted twoSegments = .input [headerMbuf, secondMbuf] ∧
      ¬ LifetimeRespected twoSegments [headerMbuf, secondMbuf] [headerMbuf, secondMbuf] := by
  refine ⟨by decide, ?_⟩
  rintro ⟨valid, -⟩
  have afterHeader := valid [headerMbuf] [secondMbuf] rfl
  exact afterHeader secondMbuf (by decide) (by decide)

end FStack
