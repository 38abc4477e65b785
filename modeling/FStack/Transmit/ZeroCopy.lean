import FStack.Std.Steps
import FStack.Transmit.Burst
import Mathlib.Data.Vector.Defs

/-!
# Zero-copy transmission

With `FF_USE_PAGE_ARRAY` the packets of the stack are sent from the pages of their BSD
mbufs. `bsd_m_table` stands beside `m_table` and says which BSD mbuf a slot of the burst
table refers to; once the NIC has taken the packet, the mbuf moves to the ring
`nic_tx_ring` of the port, from which it is released when its slot is used again.

`send_single_packet` does not write `bsd_m_table`, so a dispatcher response is sent with
the BSD mbuf that an earlier packet left in the slot; and a send that fails empties the
table.
-/

namespace FStack.Transmit.PageArray

open Function Steps
open List hiding Vector

/-- `TX_QUEUE_SIZE`. -/
def txQueueSize : Nat := 512

/-- A packet in a burst table: how many segments it has, and the BSD mbuf whose data it
refers to. BSD mbufs are named by the calls that give them. -/
structure TxPkt where
  nbSegs : Nat
  owner : Option Nat
deriving DecidableEq, Repr

/-- `struct mbuf_table` with page arrays. -/
structure PageTable extends MbufTable TxPkt where
  bsdMTable : Nat → Option Nat

/-- `struct mbuf_txring`, and the BSD mbufs released on the port so far. -/
structure TxRing where
  head : Fin txQueueSize
  mTable : Vector (Option Nat) txQueueSize
  released : List Nat

/-- A port, and how many BSD mbufs it has been given. -/
structure TxPort where
  table : PageTable
  ring : TxRing
  given : Nat

/-- `ff_mbuf_free`, where there is an mbuf. -/
def TxRing.mbufFree (m : Option Nat) (ring : TxRing) : TxRing :=
  { ring with released := ring.released ++ m.toList }

/-- `Head_INC`. -/
def headInc (head : Fin txQueueSize) : Fin txQueueSize :=
  if next : head.val + 1 < txQueueSize then ⟨head.val + 1, next⟩ else ⟨0, by decide⟩

/-- One slot of the ring is used again: what it holds is released. -/
def TxRing.reuse (m : Option Nat) (ring : TxRing) : TxRing where
  head := headInc ring.head
  mTable := ring.mTable.set ring.head m
  released := (ring.mbufFree (ring.mTable.get ring.head)).released

/-- The loop of `ff_txring_enqueue`. -/
def TxRing.clear : Nat → TxRing → TxRing
  | 0, ring => ring
  | left + 1, ring => clear left (ring.reuse none)

/-- `ff_txring_enqueue`, and `ff_enq_tx_bsdmbuf` which calls it. -/
def ffTxringEnqueue (p segNum : Nat) (ring : TxRing) : TxRing :=
  (ring.clear (segNum - 1)).reuse (some p)

/-- What `send_burst` does with the BSD mbuf of a packet that the NIC took. -/
def enqSent (table : PageTable) (ring : TxRing) (i : Nat) : TxRing :=
  match table.bsdMTable i with
  | some p => ffTxringEnqueue p (table.mTable i).nbSegs ring
  | none => ring

/-- What `send_burst` does with the BSD mbuf of a packet that the NIC did not take. -/
def freeRejected (table : PageTable) (ring : TxRing) (i : Nat) : TxRing :=
  ring.mbufFree (table.bsdMTable i)

/-- `send_burst`. -/
def sendBurst (nic : TxBurst) (n : Nat) (port : TxPort) : TxPort :=
  let ret := (nic n).val
  let sent := (range ret).foldl (enqSent port.table) port.ring
  { port with ring := (range' ret (n - ret)).foldl (freeRejected port.table) sent }

/-- `qconf->tx_mbufs[port].len = len`. -/
def TxPort.setLen (len : Nat) (port : TxPort) : TxPort :=
  { port with table := { port.table with len := len } }

/-- `m_table[len] = m`. -/
def TxPort.storePkt (len : Nat) (m : TxPkt) (port : TxPort) : TxPort :=
  { port with table := { port.table with mTable := update port.table.mTable len m } }

/-- `bsd_m_table[len] = m`. -/
def TxPort.storeBsd (len : Nat) (m : Option Nat) (port : TxPort) : TxPort :=
  { port with
    table := { port.table with bsdMTable := update port.table.bsdMTable len m } }

/-- `send_single_packet`, for a response of `nbSegs` segments. -/
def sendSinglePacket (nic : TxBurst) (nbSegs : Nat) (port : TxPort) : TxPort :=
  let len := port.table.len
  let port := port.storePkt len ⟨nbSegs, none⟩
  let len := len + 1
  if len = maxPktBurst then (sendBurst nic maxPktBurst port).setLen 0 else port.setLen len

/-- Where the data of a BSD mbuf lies, in the pages of F-Stack or in a packet that was
received; and the number of segments of the `rte_mbuf` that is made for it, if it can be. -/
inductive MbufData where
  | pages (head : Option Nat)
  | cluster (head : Option Nat)
deriving DecidableEq, Repr

/-- `ff_if_send_onepkt`, with `m` null or an mbuf; nothing is left where `rte_panic` ends
the process. -/
def ffIfSendOnepkt (m : Option MbufData) (port : TxPort) : Option (TxPort × Nat) :=
  let id := port.given
  let taken := { port with given := port.given + 1 }
  let len := port.table.len
  let enter := fun nbSegs =>
    ((taken.storePkt len ⟨nbSegs, some id⟩).storeBsd len (some id), len + 1)
  match m with
  | none => some (port, 0)
  | some (.pages none) => some ({ taken with ring := port.ring.mbufFree (some id) }, 0)
  | some (.cluster none) => none
  | some (.pages (some nbSegs)) => some (enter nbSegs)
  | some (.cluster (some nbSegs)) => some (enter nbSegs)

/-- `ff_dpdk_if_send`. -/
def ffDpdkIfSend (nic : TxBurst) (m : Option MbufData) (port : TxPort) : Option TxPort := do
  let (port, len) ← ffIfSendOnepkt m port
  if len = maxPktBurst then some ((sendBurst nic maxPktBurst port).setLen 0)
  else some (port.setLen len)

/-- What the drain of `main_loop` does on a port. -/
def drainPort (nic : TxBurst) (port : TxPort) : TxPort :=
  if port.table.len = 0 then port else (sendBurst nic port.table.len port).setLen 0

/-- The ports of a process. -/
abbrev Ports := Nat → TxPort

def drain : (nic : Nat → TxBurst) → List Nat → Ports → Ports
  | _, [], ports => ports
  | nic, id :: rest, ports =>
    drain (fun turn => nic (turn + 1)) rest
      (update ports id (drainPort (nic 0) (ports id)))

/-- What the process does on its transmit side, with the answers of the NIC. -/
inductive ZcOp where
  | send (nic : TxBurst) (m : Option MbufData) (port : Nat)
  | response (nic : TxBurst) (nbSegs port : Nat)
  | drainPass (nic : Nat → TxBurst)

/-- One call in a process that has not panicked yet. -/
def zcCall (txPortId : List Nat) (ports : Ports) : ZcOp → Option Ports
  | .send nic m id => (ffDpdkIfSend nic m (ports id)).map (update ports id)
  | .response nic nbSegs id =>
    some (update ports id (sendSinglePacket nic nbSegs (ports id)))
  | .drainPass nic => some (drain nic txPortId ports)

def zcStep (txPortId : List Nat) (state : Option Ports) (op : ZcOp) : Option Ports :=
  state.bind fun ports => zcCall txPortId ports op

/-- The ring of a queue on which nothing was sent. -/
def TxRing.initial : TxRing := ⟨⟨0, by decide⟩, Vector.replicate txQueueSize none, []⟩

/-- A port of a process that has sent nothing yet. -/
def TxPort.initial : TxPort where
  table := ⟨⟨0, fun _ => ⟨0, none⟩⟩, fun _ => none⟩
  ring := .initial
  given := 0

namespace PageTable

/-- The BSD mbufs in the slots in use. -/
def pending (table : PageTable) : List (Option Nat) :=
  (range table.len).map table.bsdMTable

end PageTable

/-- How often a BSD mbuf is in the ring or has been released. -/
def TxRing.settled (ring : TxRing) (id : Nat) : Nat :=
  ring.mTable.count (some id) + ring.released.count id

/-- How often a BSD mbuf waits in the table, is in the ring or has been released. -/
def TxPort.places (port : TxPort) (id : Nat) : Nat :=
  port.table.pending.count (some id) + port.ring.settled id

/-- Every BSD mbuf that was given waits, is in the ring or has been released, and that
only once; and every slot in use has the BSD mbuf of its own packet. -/
structure TxPort.ReleasedOnce (port : TxPort) : Prop where
  once : ∀ id < port.given, port.places id = 1
  own : ∀ i < port.table.len, port.table.bsdMTable i = (port.table.mTable i).owner

/-- The same of every port of a process that has not panicked. -/
def ReleasedOnce (state : Option Ports) : Prop :=
  ∀ ports, state = some ports → ∀ id, (ports id).ReleasedOnce

/-- A send that fails finds no BSD mbuf waiting on the port, and a response goes to a
slot that no BSD mbuf was left in. -/
def TxPort.Tidy (port : TxPort) : Option MbufData → Prop
  | none | some (.pages none) => ∀ i < port.table.len, port.table.bsdMTable i = none
  | _ => True

def Tidy (state : Option Ports) : ZcOp → Prop
  | .send _ m id => ∀ ports, state = some ports → (ports id).Tidy m
  | .response _ _ id =>
    ∀ ports, state = some ports → (ports id).table.bsdMTable (ports id).table.len = none
  | .drainPass _ => True

section Ring

variable (ring : TxRing) (table : PageTable) (id : Nat)

theorem count_toList (m : Option Nat) : m.toList.count id = [m].count (some id) := by
  cases m with
  | none => rfl
  | some m => simp [count_singleton]

theorem settled_mbufFree (m : Option Nat) :
    (ring.mbufFree m).settled id = ring.settled id + [m].count (some id) := by
  rw [TxRing.settled, TxRing.mbufFree, count_append, count_toList, ← Nat.add_assoc]
  rfl

/-- Using a slot again releases what it holds, so nothing is lost. -/
theorem settled_reuse (m : Option Nat) :
    (ring.reuse m).settled id = ring.settled id + [m].count (some id) := by
  have old : ring.mTable.get ring.head = ring.mTable[ring.head.val] := rfl
  have there : ring.mTable[ring.head.val] = some id → 0 < ring.mTable.count (some id) :=
    fun same => Vector.count_pos_iff.mpr (same ▸ Vector.getElem_mem ring.head.isLt)
  simp only [TxRing.settled, TxRing.reuse, TxRing.mbufFree, count_append, count_toList, old,
    Vector.count_set, count_singleton, beq_iff_eq]
  by_cases same : ring.mTable[ring.head.val] = some id
  · have := there same
    rw [if_pos same]
    omega
  · rw [if_neg same]
    omega

theorem settled_clear (left : Nat) : (ring.clear left).settled id = ring.settled id := by
  induction left generalizing ring with
  | zero => rfl
  | succ left ih => exact (ih _).trans (settled_reuse ring id none)

theorem settled_ffTxringEnqueue (p segNum : Nat) :
    (ffTxringEnqueue p segNum ring).settled id = ring.settled id + [some p].count (some id) := by
  rw [ffTxringEnqueue, settled_reuse, settled_clear]

theorem settled_enqSent (i : Nat) :
    (enqSent table ring i).settled id = ring.settled id + [table.bsdMTable i].count (some id) := by
  unfold enqSent
  cases table.bsdMTable i with
  | none => rfl
  | some p => exact settled_ffTxringEnqueue ring id p _

theorem settled_freeRejected (i : Nat) :
    (freeRejected table ring i).settled id =
      ring.settled id + [table.bsdMTable i].count (some id) :=
  settled_mbufFree ring id _

/-- A loop over slots settles the BSD mbufs in them, if each of its rounds does. -/
theorem settled_foldl {round : TxRing → Nat → TxRing}
    (one : ∀ ring i, (round ring i).settled id =
      ring.settled id + [table.bsdMTable i].count (some id)) (slots : List Nat) :
    (slots.foldl round ring).settled id =
      ring.settled id + (slots.map table.bsdMTable).count (some id) := by
  induction slots generalizing ring with
  | nil => rfl
  | cons i rest ih =>
    rw [foldl_cons, ih, one, Nat.add_assoc, ← count_append]
    rfl

/-- A burst settles the BSD mbufs of the slots that are offered, whatever the NIC takes. -/
theorem settled_sendBurst (nic : TxBurst) (n : Nat) (port : TxPort) :
    (sendBurst nic n port).ring.settled id =
      port.ring.settled id + ((range n).map port.table.bsdMTable).count (some id) := by
  have taken : (nic n).val ≤ n := Nat.le_of_lt_succ (nic n).isLt
  have split : range n = range (nic n).val ++ range' (nic n).val (n - (nic n).val) := by
    have append := @range'_append_1 0 (nic n).val (n - (nic n).val)
    rw [Nat.zero_add, Nat.add_sub_cancel' taken] at append
    rw [range_eq_range', range_eq_range', append]
  change TxRing.settled (foldl _ (foldl _ _ _) _) id = _
  rw [settled_foldl _ port.table id (settled_freeRejected · port.table id),
    settled_foldl _ port.table id (settled_enqSent · port.table id), split, map_append,
    count_append, Nat.add_assoc]

end Ring

section Port

variable {port : TxPort}

/-- A packet and a BSD mbuf, or none, enter the next slot. -/
def TxPort.push (m : TxPkt) (bsd : Option Nat) (port : TxPort) : TxPort :=
  ((port.storePkt port.table.len m).storeBsd port.table.len bsd).setLen (port.table.len + 1)

/-- All of the table is offered to the NIC. -/
def TxPort.flush (nic : TxBurst) (port : TxPort) : TxPort :=
  (sendBurst nic port.table.len port).setLen 0

/-- A table that is full by what has entered it is flushed. -/
def TxPort.settle (nic : TxBurst) (port : TxPort) : TxPort :=
  if port.table.len = maxPktBurst then port.flush nic else port

theorem storeBsd_self (len : Nat) :
    port.storeBsd len (port.table.bsdMTable len) = port := by
  rw [TxPort.storeBsd, update_eq_self]

/-- A packet is pushed, and the table is sent off when it is full. -/
theorem sendSinglePacket_eq (nic : TxBurst) (nbSegs : Nat) (port : TxPort) :
    sendSinglePacket nic nbSegs port =
      (port.push ⟨nbSegs, none⟩ (port.table.bsdMTable port.table.len)).settle nic := by
  have kept : (port.storePkt port.table.len ⟨nbSegs, none⟩).storeBsd port.table.len
      (port.table.bsdMTable port.table.len) = port.storePkt port.table.len ⟨nbSegs, none⟩ :=
    storeBsd_self _
  rw [TxPort.push, kept]
  change (if port.table.len + 1 = maxPktBurst then _ else _) =
    if port.table.len + 1 = maxPktBurst then (sendBurst nic (port.table.len + 1) _).setLen 0 else _
  split_ifs with full
  · rw [full]
    rfl
  · rfl

theorem places_push (m : TxPkt) (bsd : Option Nat) (id : Nat) :
    (port.push m bsd).places id = port.places id + [bsd].count (some id) := by
  change ((range (port.table.len + 1)).map (update port.table.bsdMTable _ bsd)).count _
    + port.ring.settled id = _
  rw [range_succ_map_update, count_append, Nat.add_right_comm]
  rfl

theorem places_flush (nic : TxBurst) (id : Nat) : (port.flush nic).places id = port.places id := by
  change 0 + (sendBurst nic port.table.len port).ring.settled id = _
  rw [settled_sendBurst, Nat.zero_add, Nat.add_comm]
  rfl

theorem places_settle (nic : TxBurst) (id : Nat) : (port.settle nic).places id = port.places id := by
  unfold TxPort.settle
  split_ifs
  · exact places_flush nic id
  · rfl

/-- The next BSD mbuf is given. -/
def TxPort.give (port : TxPort) : TxPort := { port with given := port.given + 1 }

/-- The next BSD mbuf is given, and released at once. -/
def TxPort.giveFreed (port : TxPort) : TxPort :=
  { port.give with ring := port.ring.mbufFree (some port.given) }

/-- The next BSD mbuf is given, and enters the table with its packet. -/
def TxPort.giveSent (nbSegs : Nat) (port : TxPort) : TxPort :=
  port.give.push ⟨nbSegs, some port.given⟩ (some port.given)

/-- All that `ff_dpdk_if_send` can do. -/
theorem ffDpdkIfSend_cases {nic : TxBurst} {m : Option MbufData} {port' : TxPort}
    (sent : ffDpdkIfSend nic m port = some port') :
    m = none ∧ port' = port.setLen 0 ∨
      m = some (.pages none) ∧ port' = (port.setLen 0).giveFreed ∨
      ∃ nbSegs, (m = some (.pages (some nbSegs)) ∨ m = some (.cluster (some nbSegs))) ∧
        port' = (port.giveSent nbSegs).settle nic := by
  have enter (nbSegs : Nat) (entered : (if port.table.len + 1 = maxPktBurst then
      some ((sendBurst nic maxPktBurst ((port.give.storePkt port.table.len
        ⟨nbSegs, some port.given⟩).storeBsd port.table.len (some port.given))).setLen 0)
      else some (((port.give.storePkt port.table.len ⟨nbSegs, some port.given⟩).storeBsd
        port.table.len (some port.given)).setLen (port.table.len + 1))) = some port') :
      port' = (port.giveSent nbSegs).settle nic := by
    change port' = if port.table.len + 1 = maxPktBurst then
      (sendBurst nic (port.table.len + 1) _).setLen 0 else _
    split_ifs at entered ⊢ with full
    · rw [full]
      exact (Option.some.inj entered).symm
    · exact (Option.some.inj entered).symm
  rcases m with _ | (_ | nbSegs) | (_ | nbSegs)
  · exact .inl ⟨rfl, (Option.some.inj sent).symm⟩
  · exact .inr (.inl ⟨rfl, (Option.some.inj sent).symm⟩)
  · exact .inr (.inr ⟨nbSegs, .inl rfl, enter nbSegs sent⟩)
  · cases sent
  · exact .inr (.inr ⟨nbSegs, .inr rfl, enter nbSegs sent⟩)

/-- What the calls keep: beside the property itself, every BSD mbuf in the table, in use
or left over, is one that was given, and one that was not given is nowhere. -/
structure TxPort.Sound (port : TxPort) : Prop extends port.ReleasedOnce where
  fresh : ∀ id, port.given ≤ id → port.places id = 0
  known : ∀ i id, port.table.bsdMTable i = some id → id < port.given

namespace TxPort.Sound

theorem initial : TxPort.initial.Sound where
  once _ below := absurd below (Nat.not_lt_zero _)
  own _ below := absurd below (Nat.not_lt_zero _)
  fresh id _ := by
    change 0 + ((Vector.replicate txQueueSize none).count (some id) + 0) = 0
    rw [Vector.count_replicate]
    rfl
  known _ _ found := nomatch found

variable (sound : port.Sound)

include sound

theorem flush (nic : TxBurst) : (port.flush nic).Sound where
  once id given := (places_flush nic id).trans (sound.once id given)
  own _ below := absurd below (Nat.not_lt_zero _)
  fresh id later := (places_flush nic id).trans (sound.fresh id later)
  known := sound.known

theorem settle (nic : TxBurst) : (port.settle nic).Sound := by
  unfold TxPort.settle
  split_ifs
  · exact sound.flush nic
  · exact sound

/-- A packet enters with its own BSD mbuf, or with none. -/
theorem own_push {m : TxPkt} {bsd : Option Nat} (same : bsd = m.owner) :
    ∀ i < (port.push m bsd).table.len,
      (port.push m bsd).table.bsdMTable i = ((port.push m bsd).table.mTable i).owner := by
  intro i below
  change update port.table.bsdMTable port.table.len bsd i =
    (update port.table.mTable port.table.len m i).owner
  rcases eq_or_ne i port.table.len with rfl | other
  · rw [update_self, update_self, same]
  · rw [update_of_ne other, update_of_ne other]
    exact sound.own i (Nat.lt_of_le_of_ne (Nat.le_of_lt_succ below) other)

/-- A response has no BSD mbuf, so nothing changes its place. -/
theorem respond (nbSegs : Nat) : (port.push ⟨nbSegs, none⟩ none).Sound where
  once id given := (places_push _ none id).trans (sound.once id given)
  own := sound.own_push rfl
  fresh id later := (places_push _ none id).trans (sound.fresh id later)
  known i id found := by
    change update port.table.bsdMTable port.table.len none i = some id at found
    rcases eq_or_ne i port.table.len with rfl | other
    · rw [update_self] at found
      cases found
    · rw [update_of_ne other] at found
      exact sound.known i id found

variable {port' : TxPort} {m : Option MbufData} {nic : TxBurst}

/-- The BSD mbuf that is given next gets one place. -/
theorem once_give
    (places : ∀ id, port'.places id = port.places id + [some port.given].count (some id)) :
    (∀ id < port.given + 1, port'.places id = 1) ∧
      ∀ id, port.given + 1 ≤ id → port'.places id = 0 := by
  refine ⟨fun id below => ?_, fun id later => ?_⟩
  · rw [places]
    rcases eq_or_ne id port.given with rfl | other
    · rw [sound.fresh _ (Nat.le_refl _), count_singleton_self]
    · rw [sound.once id (Nat.lt_of_le_of_ne (Nat.le_of_lt_succ below) other),
        count_singleton, if_neg (by simpa using symm other)]
  · rw [places, sound.fresh id (Nat.le_of_succ_le later), count_singleton,
      if_neg (by simpa using Nat.ne_of_lt later)]

theorem giveFreed : port.giveFreed.Sound := by
  have places (id : Nat) :
      port.giveFreed.places id = port.places id + [some port.given].count (some id) := by
    change _ + (port.ring.mbufFree (some port.given)).settled id = _
    rw [settled_mbufFree, ← Nat.add_assoc]
    rfl
  obtain ⟨once, fresh⟩ := sound.once_give places
  exact ⟨⟨once, sound.own⟩, fresh, fun i id found => Nat.lt_succ_of_lt (sound.known i id found)⟩

/-- The BSD mbuf of a packet that is sent has one place, the table. -/
theorem giveSent (nbSegs : Nat) : (port.giveSent nbSegs).Sound := by
  have places (id : Nat) : (port.giveSent nbSegs).places id =
      port.places id + [some port.given].count (some id) := places_push ..
  obtain ⟨once, fresh⟩ := sound.once_give places
  refine ⟨⟨once, sound.own_push rfl⟩, fresh, fun i id found => ?_⟩
  change update port.table.bsdMTable port.table.len (some port.given) i = some id at found
  rcases eq_or_ne i port.table.len with rfl | other
  · rw [update_self] at found
    cases found
    exact Nat.lt_succ_self _
  · rw [update_of_ne other] at found
    exact Nat.lt_succ_of_lt (sound.known i id found)

/-- Emptying the table loses the BSD mbufs that wait in it. -/
theorem places_setLen_iff :
    (∀ id < port.given, (port.setLen 0).places id = 1) ↔
      ∀ i < port.table.len, port.table.bsdMTable i = none := by
  constructor
  · intro kept i below
    by_contra waits
    obtain ⟨id, found⟩ := Option.ne_none_iff_exists'.mp waits
    have given := sound.known i id found
    have member : some id ∈ port.table.pending :=
      mem_map.mpr ⟨i, mem_range.mpr below, found⟩
    have counted := count_pos_iff.mpr member
    have before : port.table.pending.count (some id) + port.ring.settled id = 1 :=
      sound.once id given
    have after : 0 + port.ring.settled id = 1 := kept id given
    omega
  · intro empty id given
    have none_waits : port.table.pending.count (some id) = 0 := by
      apply count_eq_zero_of_not_mem
      intro member
      obtain ⟨i, below, found⟩ := mem_map.mp member
      rw [empty i (mem_range.mp below)] at found
      cases found
    rw [← sound.once id given, places, places, none_waits]
    rfl

theorem drop (empty : ∀ i < port.table.len, port.table.bsdMTable i = none) :
    (port.setLen 0).Sound where
  once := sound.places_setLen_iff.mpr empty
  own _ below := absurd below (Nat.not_lt_zero _)
  fresh id later := by
    have nowhere : _ + port.ring.settled id = 0 := sound.fresh id later
    change 0 + port.ring.settled id = 0
    omega
  known := sound.known

theorem ffDpdkIfSend (tidy : port.Tidy m) (sent : ffDpdkIfSend nic m port = some port') :
    port'.Sound := by
  obtain ⟨rfl, rfl⟩ | ⟨rfl, rfl⟩ | ⟨nbSegs, -, rfl⟩ := ffDpdkIfSend_cases sent
  · exact sound.drop tidy
  · exact (sound.drop tidy).giveFreed
  · exact (sound.giveSent nbSegs).settle nic

/-- A send after which every BSD mbuf has one place is tidy. -/
theorem tidy_send (nic : TxBurst)
    (once : ∀ port', PageArray.ffDpdkIfSend nic m port = some port' → port'.ReleasedOnce) :
    port.Tidy m := by
  rcases m with _ | (_ | nbSegs) | head
  · exact sound.places_setLen_iff.mp (once _ rfl).once
  · refine sound.places_setLen_iff.mp fun id given => ?_
    have kept : 0 + (port.ring.mbufFree (some port.given)).settled id = 1 :=
      (once _ rfl).once id (Nat.lt_succ_of_lt given)
    rw [settled_mbufFree, count_singleton,
      if_neg (by simpa using Nat.ne_of_gt given)] at kept
    exact kept
  · trivial
  · trivial

theorem sendSinglePacket (nic : TxBurst) (nbSegs : Nat)
    (free : port.table.bsdMTable port.table.len = none) :
    (sendSinglePacket nic nbSegs port).Sound := by
  rw [sendSinglePacket_eq, free]
  exact (sound.respond nbSegs).settle nic

/-- A BSD mbuf that was left in the slot of a response gets a second place. -/
theorem free_of_response {nbSegs : Nat}
    (once : (PageArray.sendSinglePacket nic nbSegs port).ReleasedOnce) :
    port.table.bsdMTable port.table.len = none := by
  by_contra left
  obtain ⟨id, found⟩ := Option.ne_none_iff_exists'.mp left
  have given := sound.known _ id found
  rw [sendSinglePacket_eq, found] at once
  have counted := once.once id (by unfold TxPort.settle; split_ifs <;> exact given)
  rw [places_settle, places_push, sound.once id given, count_singleton_self] at counted
  exact absurd counted (by decide)

theorem drainPort (nic : TxBurst) : (drainPort nic port).Sound := by
  unfold PageArray.drainPort
  split_ifs
  · exact sound
  · exact sound.flush nic

end TxPort.Sound

end Port

section Runs

variable {ports : Ports} {txPortId : List Nat}

theorem sound_update (sound : ∀ id, (ports id).Sound) {id : Nat} {port : TxPort}
    (one : port.Sound) (id' : Nat) : (update ports id port id').Sound := by
  rcases eq_or_ne id' id with rfl | other
  · rwa [update_self]
  · rw [update_of_ne other]
    exact sound id'

theorem sound_drain (nic : Nat → TxBurst) (sound : ∀ id, (ports id).Sound) (id : Nat) :
    (drain nic txPortId ports id).Sound := by
  induction txPortId generalizing nic ports with
  | nil => exact sound id
  | cons first rest ih => exact ih _ (sound_update sound ((sound first).drainPort (nic 0)))

/-- Every port of a process that has not panicked is sound. -/
def Sound (state : Option Ports) : Prop := ∀ ports, state = some ports → ∀ id, (ports id).Sound

variable {state : Option Ports}

/-- A tidy step keeps every BSD mbuf in one place. -/
theorem Sound.zcStep {op : ZcOp} (sound : Sound state) (tidy : Tidy state op) :
    Sound (zcStep txPortId state op) := by
  intro ports' next id'
  obtain ⟨ports, rfl, called⟩ := Option.bind_eq_some_iff.mp next
  have before := sound ports rfl
  cases op with
  | send nic m id =>
    obtain ⟨port', sent, rfl⟩ := Option.map_eq_some_iff.mp called
    exact sound_update before ((before id).ffDpdkIfSend (tidy ports rfl) sent) id'
  | response nic nbSegs id =>
    cases called
    exact sound_update before ((before id).sendSinglePacket nic nbSegs (tidy ports rfl)) id'
  | drainPass nic =>
    cases called
    exact sound_drain nic before id'

theorem Sound.releasedOnce (sound : Sound state) : ReleasedOnce state :=
  fun ports same id => (sound ports same id).toReleasedOnce

/-- From a sound state, a step after which every BSD mbuf has one place is tidy. -/
theorem Sound.tidy {op : ZcOp} (sound : Sound state)
    (once : ReleasedOnce (PageArray.zcStep txPortId state op)) : Tidy state op := by
  cases op with
  | send nic m id =>
    rintro ports rfl
    refine (sound ports rfl id).tidy_send nic fun port' sent => ?_
    have after := once (update ports id port') (by
      change Option.map _ _ = _
      rw [sent]
      rfl) id
    rwa [update_self] at after
  | response nic nbSegs id =>
    rintro ports rfl
    have after := once _ rfl id
    rw [update_self] at after
    exact (sound ports rfl id).free_of_response after
  | drainPass nic => trivial

/-- Every BSD mbuf is released once, and every slot has its own, as long as no response
goes to a slot that a BSD mbuf was left in and no send fails while others wait. -/
theorem releasedOnce_iff (txPortId : List Nat) (ops : List ZcOp) :
    Along (zcStep txPortId) (fun state op => ReleasedOnce (zcStep txPortId state op))
        (some fun _ => .initial) ops ↔
      Along (zcStep txPortId) Tidy (some fun _ => .initial) ops := by
  refine along_iff Sound (fun state op sound => ⟨sound.tidy, fun tidy => ?_⟩)
    (fun state op sound once => sound.zcStep (sound.tidy once)) ?_
  · exact (sound.zcStep tidy).releasedOnce
  · rintro _ ⟨⟩ id
    exact .initial

/-- A NIC that takes every packet. -/
def takesAll : TxBurst := fun n => ⟨n, Nat.lt_succ_self n⟩

/-- A packet of the stack that is sent by a drain pass, and a response. -/
def sentThenResponse : List ZcOp :=
  [.send takesAll (some (.pages (some 1))) 0, .drainPass fun _ => takesAll,
    .response takesAll 1 0]

/-- The response goes to the slot that the BSD mbuf was left in: the mbuf is in the ring,
and waits once more. -/
theorem not_releasedOnce_sentThenResponse :
    ((sentThenResponse.foldl (zcStep [0]) (some fun _ => .initial)).map fun ports =>
        ((ports 0).ring.mTable.get ⟨0, by decide⟩, (ports 0).table.pending)) =
          some (some 0, [some 0]) ∧
      ¬ Along (zcStep [0]) (fun state op => ReleasedOnce (zcStep [0] state op))
        (some fun _ => .initial) sentThenResponse := by
  refine ⟨by decide +kernel, fun ⟨_, _, once, _⟩ => ?_⟩
  have slot := (once _ rfl 0).own 0 (by decide +kernel)
  exact absurd slot (by decide +kernel)

end Runs

end FStack.Transmit.PageArray
