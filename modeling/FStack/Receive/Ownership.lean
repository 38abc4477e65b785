import FStack.Receive.ProcessPackets
import FStack.Std.Ledger

/-!
# Who owns a received packet

Every packet `process_packets` receives and every clone it makes should be given away
exactly once: freed, or handed to the stack, the KNI ring, a dispatch ring of the port,
or the TX table.

The loop keeps this except in three situations, which `RxSound` excludes packet
by packet: a dispatcher answer below `FF_DISPATCH_RESPONSE` indexes the ring
array from outside, an endless IP-in-IP header keeps the classifier busy, and a
failing `m_get` behind an obtained header mbuf frees the packet twice.
-/

namespace FStack

open Ledger Ledger.Book List Option

/-- Clones acquire a packet; every way of giving a packet away releases it. -/
def rxBook : Book RxEvent Nat where
  acquired
    | .cloned mc => some mc.addr
    | _ => none
  released
    | .freed pkt => some pkt.addr
    | .toStack pkt _ => some pkt.addr
    | .toKniRing _ pkt => some pkt.addr
    | .toDispatchRing _ _ pkt => some pkt.addr
    | .toTxTable _ pkt => some pkt.addr
    | _ => none

/-- An event that gives away the packet named `addr` and acquires nothing. -/
def Gives (addr : Nat) (event : RxEvent) : Prop :=
  rxBook.acquired event = none ∧ rxBook.released event = some addr

theorem gives_ffKniEnqueue (portId : Nat) (enqueued : Bool) (pkt : Packet) :
    Gives pkt.addr (ffKniEnqueue portId enqueued pkt) := by
  cases enqueued <;> exact ⟨rfl, rfl⟩

theorem gives_dispatchEnqueue (portId queueId : Nat) (enqueued : Bool) (pkt : Packet) :
    Gives pkt.addr (dispatchEnqueue portId queueId enqueued pkt) := by
  cases enqueued <;> exact ⟨rfl, rfl⟩

variable {event : RxEvent}

theorem Gives.confined {addr : Nat} (gives : Gives addr event) :
    rxBook.Confined (· = addr) [event] := by
  simp [Book.Confined, acquisitions, releases, gives.1, gives.2]

theorem Gives.onceEach {addr : Nat} (gives : Gives addr event) :
    rxBook.OnceEach [addr] [event] := by
  simp [Book.OnceEach, acquisitions, releases, gives.1, gives.2]

section Clones

variable (alloc : AllocOutcomes) (addr : Nat) (md : Packet) {give : Packet → RxEvent}

section

variable (gives : ∀ mc, Gives mc.addr (give mc))

include gives

/-- A clone is acquired and given away once, also when it was not finished. -/
theorem cloneEvents_balance :
    let events := cloneEvents (pktmbufDeepClone alloc addr md) give
    (rxBook.acquisitions events = [] ∧ rxBook.releases events = []) ∨
      (rxBook.acquisitions events = [addr] ∧ rxBook.releases events = [addr]) := by
  rcases pktmbufDeepClone_cases alloc addr md with noMbuf | ⟨mc, named, cloned | failed⟩
  · exact .inl (by simp [cloneEvents, noMbuf])
  · obtain ⟨keeps, releases⟩ := gives mc
    refine .inr ?_
    simp only [cloneEvents, cloned, Book.acquisitions, Book.releases, filterMap_cons,
      keeps, releases]
    simp [rxBook, named]
  · refine .inr ?_
    simp [cloneEvents, failed, Book.acquisitions, Book.releases, rxBook, named]

theorem cloneEvents_confined :
    rxBook.Confined (· = addr) (cloneEvents (pktmbufDeepClone alloc addr md) give) := by
  rcases cloneEvents_balance alloc addr md gives with ⟨acquired, released⟩ | ⟨acquired, released⟩ <;>
    simp [Book.Confined, acquired, released]

theorem cloneEvents_onceEach :
    rxBook.OnceEach [] (cloneEvents (pktmbufDeepClone alloc addr md) give) := by
  rcases cloneEvents_balance alloc addr md gives with ⟨acquired, released⟩ | ⟨acquired, released⟩ <;>
    simp [Book.OnceEach, acquired, released]

end

end Clones

section Broadcast

variable (globals : RxGlobals) (call : RxCall) (faults : RxFaults) (addr : Nat) (rtem : Packet)

/-- Broadcasting names only the copies that it makes. -/
theorem broadcast_confined :
    rxBook.Confined
      (fun key => addr ≤ key ∧ key < addr + globals.nbQueues call * rtem.segs.length)
      (broadcast globals call faults addr rtem) := by
  refine confined_flatMap fun j member => ?_
  have inside : j < globals.nbQueues call := mem_range.mp member
  split
  · exact confined_nil _
  · refine (cloneEvents_confined _ _ _ (gives_dispatchEnqueue _ _ _)).mono ?_
    rintro key rfl
    have room : (j + 1) * rtem.segs.length ≤ globals.nbQueues call * rtem.segs.length :=
      Nat.mul_le_mul_right _ inside
    have some_seg : 0 < rtem.segs.length := by simp [Packet.segs]
    rw [Nat.add_mul] at room
    omega

/-- Every copy made for another queue is given away once. -/
theorem broadcast_onceEach : rxBook.OnceEach [] (broadcast globals call faults addr rtem) := by
  -- Copies for different queues have different names.
  refine onceEach_flatMap nodup_range
    (fun i j key (first : key = addr + i * rtem.segs.length)
      (second : key = addr + j * rtem.segs.length) => ?_) ?_ ?_
  · have same : i * rtem.segs.length = j * rtem.segs.length := by omega
    exact Nat.eq_of_mul_eq_mul_right (by simp [Packet.segs]) same
  · intro j
    split
    · exact confined_nil _
    · exact cloneEvents_confined _ _ _ (gives_dispatchEnqueue _ _ _)
  · intro j
    split
    · exact onceEach_nil
    · exact cloneEvents_onceEach _ _ _ (gives_dispatchEnqueue _ _ _)

theorem kniCopy_confined :
    rxBook.Confined (· = addr + globals.nbQueues call * rtem.segs.length)
      (kniCopy globals call faults addr rtem) := by
  unfold kniCopy
  split
  · exact cloneEvents_confined _ _ _ (gives_ffKniEnqueue _ _)
  · exact confined_nil _

theorem kniCopy_onceEach : rxBook.OnceEach [] (kniCopy globals call faults addr rtem) := by
  unfold kniCopy
  split
  · exact cloneEvents_onceEach _ _ _ (gives_ffKniEnqueue _ _)
  · exact onceEach_nil

/-- All copies of a broadcast frame. -/
def copies : List RxEvent :=
  (if call.pktsFromRing then [] else broadcast globals call faults addr rtem) ++
    kniCopy globals call faults addr rtem

/-- All copies together name only what they make. -/
theorem copies_confined :
    rxBook.Confined
      (fun key => addr ≤ key ∧ key < addr + (globals.nbQueues call + 1) * rtem.segs.length)
      (copies globals call faults addr rtem) := by
  have some_seg : 0 < rtem.segs.length := by simp [Packet.segs]
  have product : (globals.nbQueues call + 1) * rtem.segs.length =
      globals.nbQueues call * rtem.segs.length + rtem.segs.length := by
    rw [Nat.add_mul, Nat.one_mul]
  refine Book.Confined.append ?_ ?_
  · split
    · exact confined_nil _
    · refine (broadcast_confined globals call faults addr rtem).mono fun key inside => ?_
      omega
  · refine (kniCopy_confined globals call faults addr rtem).mono ?_
    rintro key rfl
    omega

/-- Every copy of a broadcast frame is given away once. -/
theorem copies_onceEach : rxBook.OnceEach [] (copies globals call faults addr rtem) := by
  unfold copies
  split
  · exact kniCopy_onceEach globals call faults addr rtem
  · refine onceEach_append_of_fresh ?_ (broadcast_confined globals call faults addr rtem)
      (kniCopy_confined globals call faults addr rtem)
      (broadcast_onceEach globals call faults addr rtem)
      (kniCopy_onceEach globals call faults addr rtem) (by simp)
    intro key inside
    omega

end Broadcast

/-- Once the header mbuf is obtained, no `m_get` for a further segment fails. -/
def VethSound (rxCsum : Bool) (faults : VethFaults) (pkt : Packet) : Prop :=
  headerObtained rxCsum faults pkt = true → ∀ k, k < pkt.next.length → faults.mGet k = true

section

variable (rxCsum : Bool) (faults : VethFaults) (pkt : Packet)

/-- Input names the packet only. -/
theorem vethEvents_confined : rxBook.Confined (· = pkt.addr) (vethEvents rxCsum faults pkt) := by
  unfold vethEvents
  cases obtained : headerObtained rxCsum faults pkt with
  | false =>
    rw [ffVethInput_noHeader obtained]
    simp [Book.Confined, acquisitions, releases, rxBook]
  | true =>
    cases complete : (ffVethChain faults.mGet 0 pkt.next).2 with
    | true =>
      obtain ⟨hdr, -, input⟩ := ffVethInput_complete obtained complete
      rw [input]
      simp [Book.Confined, acquisitions, releases, rxBook]
    | false =>
      rw [ffVethInput_incomplete obtained complete]
      simp [Book.Confined, acquisitions, releases, rxBook]

/-- `ff_veth_input` gives the packet away once exactly when the chain of mbufs it
starts is finished; otherwise it frees the packet twice. -/
theorem vethEvents_onceEach_iff :
    rxBook.OnceEach [pkt.addr] (vethEvents rxCsum faults pkt) ↔ VethSound rxCsum faults pkt := by
  unfold vethEvents VethSound
  cases obtained : headerObtained rxCsum faults pkt with
  | false =>
    rw [ffVethInput_noHeader obtained]
    simp [Book.OnceEach, acquisitions, releases, rxBook]
  | true =>
    have ends := ffVethChain_complete_iff faults.mGet 0 pkt.next
    simp only [Nat.zero_add] at ends
    cases complete : (ffVethChain faults.mGet 0 pkt.next).2 with
    | true =>
      obtain ⟨hdr, -, input⟩ := ffVethInput_complete obtained complete
      rw [input]
      have all := ends.mp complete
      simpa [Book.OnceEach, acquisitions, releases, rxBook] using all
    | false =>
      rw [ffVethInput_incomplete obtained complete]
      have missing : ¬ ∀ k, k < pkt.next.length → faults.mGet k = true := by
        intro all
        rw [ends.mpr all] at complete
        exact Bool.noConfusion complete
      simp [Book.OnceEach, releases, rxBook, missing]

end

section Loop

variable (globals : RxGlobals) (call : RxCall)

/-- A classified packet is passed to `ff_veth_input`. -/
def reachesStack (filter : FilterReturn) : Bool :=
  isBroadcast filter || !routesToKni globals filter

/-- Delivery names the packet and its copies only. -/
theorem deliver_confined (faults : RxFaults) (addr : Nat) (rtem : Packet) (filter : FilterReturn) :
    rxBook.Confined
      (fun key => key = rtem.addr ∨
        addr ≤ key ∧ key < addr + (globals.nbQueues call + 1) * rtem.segs.length)
      (deliver globals call faults addr rtem filter) := by
  have stack : rxBook.Confined
      (fun key => key = rtem.addr ∨
        addr ≤ key ∧ key < addr + (globals.nbQueues call + 1) * rtem.segs.length)
      (vethEvents call.rxCsum faults.veth rtem) :=
    (vethEvents_confined call.rxCsum faults.veth rtem).mono fun _ same => .inl same
  unfold deliver
  split
  · exact ((copies_confined globals call faults addr rtem).mono fun _ inside => .inr inside).append
      stack
  · split
    · exact (gives_ffKniEnqueue _ _ rtem).confined.mono fun _ same => .inl same
    · exact stack

variable {addr : Nat} {events : List RxEvent} {faults : RxFaults} {pkt : Packet}

/-- Behind the classifier only `ff_veth_input` can go wrong. -/
theorem deliver_onceEach_iff (faults : RxFaults) {rtem : Packet} (named : rtem.addr < addr)
    (filter : FilterReturn) :
    rxBook.OnceEach [rtem.addr] (deliver globals call faults addr rtem filter) ↔
      (reachesStack globals filter = true → VethSound call.rxCsum faults.veth rtem) := by
  have stack := vethEvents_onceEach_iff call.rxCsum faults.veth rtem
  unfold deliver reachesStack
  by_cases everyQueue : isBroadcast filter = true
  · have apart : rxBook.OnceEach ([] ++ [rtem.addr])
          (copies globals call faults addr rtem ++ vethEvents call.rxCsum faults.veth rtem) ↔ _ :=
      onceEach_append_iff (fun key inside => show ¬ key = rtem.addr by omega)
        (copies_confined globals call faults addr rtem)
        (vethEvents_confined call.rxCsum faults.veth rtem) (by simp) (by simp)
    simp only [everyQueue, Bool.true_or, true_imp_iff]
    rw [← stack]
    exact apart.trans (and_iff_right (copies_onceEach globals call faults addr rtem))
  · by_cases kni : routesToKni globals filter = true
    · simp [everyQueue, kni, (gives_ffKniEnqueue call.portId faults.kniEnqueue rtem).onceEach]
    · simp [everyQueue, kni, stack]

/-- An event that enqueues to a dispatch ring uses one of the port's own. -/
def OwnRing : RxEvent → Prop
  | .toDispatchRing portId queueId _ => portId = call.portId ∧ queueId < globals.nbQueues call
  | .outsideRings _ _ _ => False
  | _ => True

variable {globals call} in
theorem ownRing_dispatchEnqueue {queueId : Nat} (inside : queueId < globals.nbQueues call)
    (enqueued : Bool) (pkt : Packet) :
    OwnRing globals call (dispatchEnqueue call.portId queueId enqueued pkt) := by
  cases enqueued with
  | false => trivial
  | true => exact ⟨rfl, inside⟩

theorem ownRing_ffKniEnqueue (enqueued : Bool) (pkt : Packet) :
    OwnRing globals call (ffKniEnqueue call.portId enqueued pkt) := by
  cases enqueued <;> trivial

theorem ownRing_cloneEvents (result : CloneResult) {give : Packet → RxEvent}
    (own : ∀ mc, OwnRing globals call (give mc)) :
    ∀ event ∈ cloneEvents result give, OwnRing globals call event := by
  cases result with
  | noMbuf => simp [cloneEvents]
  | failed mc => simp [cloneEvents, OwnRing]
  | cloned mc => simpa [cloneEvents, OwnRing] using own mc

theorem ownRing_vethEvents (faults : VethFaults) (pkt : Packet) :
    ∀ event ∈ vethEvents call.rxCsum faults pkt, OwnRing globals call event := by
  unfold vethEvents
  split <;> simp [OwnRing]

section

variable (faults : RxFaults) (addr : Nat) (rtem : Packet)

/-- Copies go to the rings of the other queues. -/
theorem ownRing_copies :
    ∀ event ∈ copies globals call faults addr rtem, OwnRing globals call event := by
  intro event member
  rcases mem_append.mp member with copied | copied
  · split at copied
    · simp at copied
    · obtain ⟨j, inside, sent⟩ := mem_flatMap.mp copied
      split at sent
      · simp at sent
      · have own := ownRing_dispatchEnqueue (mem_range.mp inside) (faults.cloneEnqueue j)
        exact ownRing_cloneEvents globals call _ own event sent
  · unfold kniCopy at copied
    split at copied
    · exact ownRing_cloneEvents globals call _ (ownRing_ffKniEnqueue globals call _) event copied
    · simp at copied

/-- A delivery puts nothing into its own ring. -/
theorem ownRing_deliver (filter : FilterReturn) :
    ∀ event ∈ deliver globals call faults addr rtem filter, OwnRing globals call event := by
  unfold deliver
  split
  · intro event member
    rcases mem_append.mp member with copied | input
    · exact ownRing_copies globals call faults addr rtem event copied
    · exact ownRing_vethEvents globals call faults.veth rtem event input
  · split
    · simpa using ownRing_ffKniEnqueue globals call faults.kniEnqueue rtem
    · exact ownRing_vethEvents globals call faults.veth rtem

end

/-- The dispatcher, where it is consulted, answers `FF_DISPATCH_RESPONSE` or more. -/
def DispatchSound (pkt : Packet) : Prop :=
  ∀ answer, dispatcherAnswer globals call pkt = some answer → ffDispatchResponse ≤ answer.ret

/-- The ways the dispatcher part of the loop body can end. -/
theorem dispatch_cases (faults : RxFaults) (pkt : Packet) :
    (∃ event, dispatch globals call faults pkt = .done event ∧ Gives pkt.addr event ∧
      OwnRing globals call event ∧ DispatchSound globals call pkt) ∨
    (∃ index rtem, dispatch globals call faults pkt =
      .done (.outsideRings call.portId index rtem) ∧ ¬ DispatchSound globals call pkt) ∨
    ∃ rtem len, dispatch globals call faults pkt = .classify rtem len ∧ rtem.addr = pkt.addr ∧
      rtem.segs.length = pkt.segs.length ∧ DispatchSound globals call pkt := by
  unfold dispatch DispatchSound
  cases consulted : dispatcherAnswer globals call pkt with
  | none => exact .inr (.inr ⟨pkt, pkt.head.dataLen, rfl, rfl, rfl, by simp⟩)
  | some answer =>
    simp only [some.injEq, forall_eq']
    by_cases response : answer.ret = ffDispatchResponse
    · exact .inl ⟨_, if_pos response, ⟨rfl, by simp [rxBook]⟩, trivial, response.ge⟩
    rw [if_neg response]
    by_cases error : answer.ret = ffDispatchError ∨ (globals.nbQueues call : Int) ≤ answer.ret
    · refine .inl ⟨_, if_pos error, ⟨rfl, rfl⟩, trivial, ?_⟩
      simp only [ffDispatchError, ffDispatchResponse] at *
      omega
    rw [if_neg error]
    by_cases own : answer.ret = call.queueId
    · refine .inr (.inr ⟨_, _, if_neg (not_not.mpr own), rfl, by simp [Packet.segs], ?_⟩)
      simp only [ffDispatchResponse]
      omega
    rw [if_pos own]
    by_cases outside : answer.ret < 0
    · refine .inr (.inl ⟨_, _, if_pos outside, ?_⟩)
      simp only [ffDispatchError, ffDispatchResponse] at *
      omega
    · refine .inl ⟨_, if_neg outside, gives_dispatchEnqueue _ _ _ _,
        ownRing_dispatchEnqueue (by omega) _ _, ?_⟩
      simp only [ffDispatchResponse]
      omega

/-- What `process_packets` needs to give one packet away once. -/
structure RxSound (pkt : Packet) (faults : RxFaults) : Prop where
  dispatched : DispatchSound globals call pkt
  classified : ∀ rtem len, dispatch globals call faults pkt = .classify rtem len →
    (protocolFilter globals.filter rtem.head.room len.toNat).isSome = true
  chained : ∀ rtem len filter, dispatch globals call faults pkt = .classify rtem len →
    protocolFilter globals.filter rtem.head.room len.toNat = some filter →
    reachesStack globals filter = true → VethSound call.rxCsum faults.veth rtem

/-- Names one iteration may touch: the packet and the clones made for it. -/
def iterationNames (addr : Nat) (pkt : Packet) (key : Nat) : Prop :=
  key = pkt.addr ∨ addr ≤ key ∧ key < addr + (globals.nbQueues call + 1) * pkt.segs.length

/-- An iteration names its packet and its copies only. -/
theorem processPacket_confined (done : processPacket globals call addr pkt faults = some events) :
    rxBook.Confined (iterationNames globals call addr pkt) events := by
  unfold processPacket at done
  rcases dispatch_cases globals call faults pkt with
    ⟨event, ends, gives, -, -⟩ | ⟨index, rtem, ends, -⟩ | ⟨rtem, len, ends, named, segments, -⟩ <;>
    rw [ends] at done
  · obtain rfl := some.inj done
    exact gives.confined.mono fun _ same => .inl same
  · obtain rfl := some.inj done
    simp [Book.Confined, acquisitions, releases, rxBook]
  · obtain ⟨filter, -, rfl⟩ := map_eq_some_iff.mp done
    have inside := deliver_confined globals call faults addr rtem filter
    rw [named, segments] at inside
    exact inside

/-- One iteration returns and gives away its packet and its clones once exactly
when it is sound. -/
theorem processPacket_onceEach_iff (faults : RxFaults) (named : pkt.addr < addr) :
    (∃ events, processPacket globals call addr pkt faults = some events ∧
      rxBook.OnceEach [pkt.addr] events) ↔ RxSound globals call pkt faults := by
  unfold processPacket
  rcases dispatch_cases globals call faults pkt with
    ⟨event, ends, gives, -, sound⟩ | ⟨index, rtem, ends, unsound⟩ |
      ⟨rtem, len, ends, same, -, sound⟩
  · rw [ends]
    exact iff_of_true ⟨_, rfl, gives.onceEach⟩ ⟨sound, by simp [ends], by simp [ends]⟩
  · rw [ends]
    refine iff_of_false ?_ fun all => unsound all.dispatched
    rintro ⟨events, done, once⟩
    obtain rfl := some.inj done
    simp [Book.OnceEach, acquisitions, releases, rxBook] at once
  · rw [ends]
    cases classified : protocolFilter globals.filter rtem.head.room len.toNat with
    | none =>
      refine iff_of_false (by simp [classified]) fun all => ?_
      simpa [classified] using all.classified rtem len ends
    | some filter =>
      have named' : rtem.addr < addr := same ▸ named
      have once := deliver_onceEach_iff globals call faults named' filter
      rw [same] at once
      simp only [classified, map_some, some.injEq, exists_eq_left', once]
      constructor
      · intro chained
        refine ⟨sound, ?_, ?_⟩ <;> intro rtem' len' <;> simp only [ends]
        · rintro ⟨rfl, rfl⟩
          simp [classified]
        · rintro filter' ⟨rfl, rfl⟩ classified'
          obtain rfl : filter = filter' := some.inj (classified.symm.trans classified')
          exact chained
      · intro all
        exact all.chained rtem len filter ends classified

/-- With a sound dispatcher, whatever is enqueued goes to a ring of the port. -/
theorem ownRing_processPacket (sound : DispatchSound globals call pkt)
    (done : processPacket globals call addr pkt faults = some events) :
    ∀ event ∈ events, OwnRing globals call event := by
  unfold processPacket at done
  rcases dispatch_cases globals call faults pkt with
    ⟨event, ends, -, own, -⟩ | ⟨index, rtem, -, unsound⟩ | ⟨rtem, len, ends, -⟩
  · rw [ends] at done
    obtain rfl := some.inj done
    simpa using own
  · exact absurd sound unsound
  · rw [ends] at done
    obtain ⟨filter, -, rfl⟩ := map_eq_some_iff.mp done
    exact ownRing_deliver globals call faults addr rtem filter

/-- The loop gives away every packet and every clone once, and uses no ring
outside the port's own. -/
def GivesAwayOnce (addr : Nat) (packets : List (Packet × RxFaults)) : Prop :=
  ∃ events, processPackets globals call addr packets = some events ∧
    rxBook.OnceEach (packets.map (·.1.addr)) events ∧
    ∀ event ∈ events, OwnRing globals call event

/-- A batch names its packets and their copies only. -/
theorem processPackets_confined {packets : List (Packet × RxFaults)}
    (done : processPackets globals call addr packets = some events) :
    rxBook.Confined (fun key => key ∈ packets.map (·.1.addr) ∨ addr ≤ key) events := by
  induction packets generalizing addr events with
  | nil =>
    obtain rfl := some.inj done
    exact confined_nil _
  | cons entry rest ih =>
    obtain ⟨first, others, head, tail, rfl⟩ := (processPackets_cons globals call).mp done
    refine Book.Confined.append
      ((processPacket_confined globals call head).mono ?_) ((ih tail).mono ?_)
    · rintro key (rfl | inside)
      · simp
      · exact .inr inside.1
    · rintro key (member | above)
      · exact .inl (mem_cons_of_mem _ member)
      · exact .inr (by omega)

/-- A burst: distinct packets with their outcomes, none named like a clone. -/
structure Burst (addr : Nat) where
  packets : List (Packet × RxFaults)
  distinct : (packets.map (·.1.addr)).Nodup
  named : ∀ entry ∈ packets, entry.1.addr < addr

/-- The burst behind the first packet; later clones have higher names. -/
def Burst.tail {addr : Nat} {entry : Packet × RxFaults} {rest : List (Packet × RxFaults)}
    (burst : Burst addr) (same : burst.packets = entry :: rest) (later : Nat) :
    Burst (addr + later) where
  packets := rest
  distinct := by
    have distinct := burst.distinct
    rw [same] at distinct
    exact (nodup_cons.mp distinct).2
  named other member := by
    have inside := burst.named other (same ▸ mem_cons_of_mem _ member)
    omega

/-- The first packet and the rest of a burst are given away independently. -/
theorem givesAwayOnce_cons (burst : Burst addr) {rest : List (Packet × RxFaults)}
    (same : burst.packets = (pkt, faults) :: rest) :
    GivesAwayOnce globals call addr burst.packets ↔ RxSound globals call pkt faults ∧
      GivesAwayOnce globals call
        (addr + (globals.nbQueues call + 1) * pkt.segs.length) rest := by
  have named : pkt.addr < addr := burst.named (pkt, faults) (same ▸ mem_cons_self)
  have distinct := burst.distinct
  rw [same, map_cons, nodup_cons] at distinct
  have below : ∀ key ∈ rest.map (·.1.addr), key < addr := by
    intro key member
    obtain ⟨entry, inside, rfl⟩ := mem_map.mp member
    exact burst.named entry (same ▸ mem_cons_of_mem _ inside)
  have apart {first others : List RxEvent}
      (head : processPacket globals call addr pkt faults = some first)
      (tail : processPackets globals call
        (addr + (globals.nbQueues call + 1) * pkt.segs.length) rest = some others) :
      rxBook.OnceEach ([pkt.addr] ++ rest.map (·.1.addr)) (first ++ others) ↔ _ :=
    onceEach_append_iff
      (fun key inside outside => by
        rcases inside with rfl | inside <;> rcases outside with member | above
        · exact distinct.1 member
        · omega
        · exact absurd (below key member) (by omega)
        · omega)
      (processPacket_confined globals call head) (processPackets_confined globals call tail)
      (by simp [iterationNames]) (fun key member => .inl member)
  rw [same, ← processPacket_onceEach_iff globals call faults named]
  constructor
  · rintro ⟨events, done, once, own⟩
    obtain ⟨first, others, head, tail, rfl⟩ := (processPackets_cons globals call).mp done
    obtain ⟨onceFirst, onceOthers⟩ := (apart head tail).mp once
    exact ⟨⟨first, head, onceFirst⟩, others, tail, onceOthers,
      fun event member => own event (mem_append_right _ member)⟩
  · rintro ⟨⟨first, head, onceFirst⟩, others, tail, onceOthers, own⟩
    have sound := (processPacket_onceEach_iff globals call faults named).mp ⟨first, head, onceFirst⟩
    refine ⟨first ++ others, (processPackets_cons globals call).mpr ⟨_, _, head, tail, rfl⟩,
      (apart head tail).mpr ⟨onceFirst, onceOthers⟩, fun event member => ?_⟩
    rcases mem_append.mp member with member | member
    · exact ownRing_processPacket globals call sound.dispatched head event member
    · exact own event member

/-- The loop gives every packet and every clone away once exactly when each of
its iterations is sound. -/
theorem givesAwayOnce_iff {addr : Nat} (burst : Burst addr) :
    GivesAwayOnce globals call addr burst.packets ↔
      ∀ entry ∈ burst.packets, RxSound globals call entry.1 entry.2 := by
  generalize same : burst.packets = packets
  induction packets generalizing addr with
  | nil => simp [GivesAwayOnce, processPackets]
  | cons entry rest ih =>
    rw [← same, givesAwayOnce_cons globals call burst same, same, forall_mem_cons,
      ih (burst.tail same _) rfl]

end Loop

/-- One queue, neither dispatcher nor KNI. -/
def plainGlobals : RxGlobals where
  filter := { enableKni := false, tcpPortBitmap := fun _ => 0, udpPortBitmap := fun _ => 0 }
  nbQueueList _ := 1
  packetDispatcher := none
  procPrimary := true
  knictlAction := .default
  kniAccept := false

def plainCall : RxCall where
  portId := 0
  queueId := 0
  rxCsum := false
  pktsFromRing := false

/-- Every call succeeds but the `m_get` for the second segment. -/
def mGetFails : RxFaults where
  dispatchEnqueue := true
  cloneAlloc _ _ := some []
  cloneEnqueue _ := true
  kniCloneAlloc _ := some []
  kniEnqueue := true
  veth := { mGethdr := true, mPkthdrInit := true, mGet := fun _ => false }

/-- Two packets that reach the stack. -/
theorem givesAwayOnce_twoPackets :
    GivesAwayOnce plainGlobals plainCall 4
      [(twoSegments, { mGetFails with veth := vethGranted }),
        (⟨plainSegment 2, [plainSegment 3]⟩, { mGetFails with veth := vethGranted })] :=
  (givesAwayOnce_iff plainGlobals plainCall ⟨_, by decide, by decide⟩).mpr (by
    intro entry member
    simp only [mem_cons, not_mem_nil, or_false] at member
    rcases member with rfl | rfl <;>
    · refine ⟨fun _ none => ?_, fun rtem len classified => ?_, fun _ _ _ _ _ _ _ _ _ => rfl⟩
      · cases none
      · cases classified
        decide +kernel)

/-- A two-segment packet whose second mbuf cannot be had is freed twice. -/
theorem processPackets_freesTwice :
    processPackets plainGlobals plainCall 2 [(twoSegments, mGetFails)] =
        some [.freed twoSegments, .freed twoSegments] ∧
      ¬ GivesAwayOnce plainGlobals plainCall 2 [(twoSegments, mGetFails)] := by
  have run : processPackets plainGlobals plainCall 2 [(twoSegments, mGetFails)] =
      some [.freed twoSegments, .freed twoSegments] := by
    decide
  refine ⟨run, ?_⟩
  rintro ⟨events, done, once, -⟩
  obtain rfl := some.inj (run.symm.trans done)
  exact absurd (once 0 (by decide)) (by decide)

end FStack
