import Mathlib.Data.List.Basic
import Mathlib.Data.List.Count
import Mathlib.Data.List.Induction

/-!
# Batched transmission

Packets to be sent are collected in a table for each port. `send_single_packet`
adds a packet and flushes a full table; every drain pass of `main_loop` flushes
what is there. A flush offers the table to the NIC, which takes some first part
of it, and frees the rest.

What was handed to the NIC or freed, in order, and what still waits make up what was
submitted: every step keeps this (`Accounts`).
-/

namespace FStack.Transmit

open Function List

/-- `MAX_PKT_BURST`. -/
def maxPktBurst : Nat := 32

variable {Pkt : Type}

/-- `struct mbuf_table`: entries at and beyond `len` are left over from before. -/
structure MbufTable (Pkt : Type) where
  len : Nat
  mTable : Nat → Pkt

/-- The end of a packet in a burst of its port: the NIC takes it, or it is freed. -/
inductive TxEvent (Pkt : Type) where
  | sent (port : Nat) (m : Pkt)
  | freed (port : Nat) (m : Pkt)
deriving DecidableEq, Repr

/-- The tables of all ports and what has happened to packets. -/
structure TxState (Pkt : Type) where
  txMbufs : Nat → MbufTable Pkt
  log : List (TxEvent Pkt)

/-- What `rte_eth_tx_burst` returns for `n` packets: a number up to `n`. -/
abbrev TxBurst := (n : Nat) → Fin (n + 1)

/-- The loop of `send_burst` that frees the packets `ret`, …, `ret + left - 1`. -/
def freeRest (port : Nat) (mTable : Nat → Pkt) : Nat → Nat → List (TxEvent Pkt)
  | _, 0 => []
  | ret, left + 1 => .freed port (mTable ret) :: freeRest port mTable (ret + 1) left

/-- `send_burst`. -/
def sendBurst (nic : TxBurst) (n port : Nat) (state : TxState Pkt) : TxState Pkt :=
  let mTable := (state.txMbufs port).mTable
  let ret := (nic n).val
  let sent := (range ret).map fun i => TxEvent.sent port (mTable i)
  { state with log := state.log ++ sent ++ freeRest port mTable ret (n - ret) }

/-- Writing the length of a port's table. -/
def TxState.setLen (state : TxState Pkt) (port len : Nat) : TxState Pkt :=
  { state with
    txMbufs := update state.txMbufs port { state.txMbufs port with len := len } }

/-- `qconf->tx_mbufs[port].m_table[len] = m`. -/
def TxState.store (state : TxState Pkt) (port len : Nat) (m : Pkt) : TxState Pkt :=
  let table := state.txMbufs port
  { state with
    txMbufs :=
      update state.txMbufs port
        { table with mTable := update table.mTable len m } }

/-- `send_single_packet`. -/
def sendSinglePacket (nic : TxBurst) (m : Pkt) (port : Nat) (state : TxState Pkt) : TxState Pkt :=
  let len := (state.txMbufs port).len
  let state := state.store port len m
  let len := len + 1
  if len = maxPktBurst then (sendBurst nic maxPktBurst port state).setLen port 0
  else state.setLen port len

/-- The drain pass over `tx_port_id`; `nic` answers the burst of each turn. -/
def drain : (nic : Nat → TxBurst) → List Nat → TxState Pkt → TxState Pkt
  | _, [], state => state
  | nic, port :: rest, state =>
    let len := (state.txMbufs port).len
    let state := if len = 0 then state else (sendBurst (nic 0) len port state).setLen port 0
    drain (fun turn => nic (turn + 1)) rest state

/-- A call made on the transmit side, with the answers of the NIC. -/
inductive TxOp (Pkt : Type) where
  | single (nic : TxBurst) (m : Pkt) (port : Nat)
  | drainPass (nic : Nat → TxBurst)

/-- One call; `txPortId` are the ports of the process. -/
def txStep (txPortId : List Nat) (state : TxState Pkt) : TxOp Pkt → TxState Pkt
  | .single nic m port => sendSinglePacket nic m port state
  | .drainPass nic => drain nic txPortId state

/-- A process that has sent nothing yet. -/
def TxState.initial (stale : Nat → Nat → Pkt) : TxState Pkt where
  txMbufs port := { len := 0, mTable := stale port }
  log := []

/-- A run of calls from the start. -/
def txRun (txPortId : List Nat) (stale : Nat → Nat → Pkt) (ops : List (TxOp Pkt)) : TxState Pkt :=
  ops.foldl (txStep txPortId) (TxState.initial stale)

/-- The packets submitted to a port, in order. -/
def submitted (port : Nat) (ops : List (TxOp Pkt)) : List Pkt :=
  ops.filterMap fun
    | .single _ m port' => if port' = port then some m else none
    | .drainPass _ => none

namespace TxState

/-- The packets waiting in a port's table. -/
def pending (state : TxState Pkt) (port : Nat) : List Pkt :=
  (range (state.txMbufs port).len).map (state.txMbufs port).mTable

/-- The packets of a port the NIC took, in order. -/
def handedOver (state : TxState Pkt) (port : Nat) : List Pkt :=
  state.log.filterMap fun
    | .sent port' m => if port' = port then some m else none
    | .freed _ _ => none

/-- The packets of a port that were freed, in order. -/
def freed (state : TxState Pkt) (port : Nat) : List Pkt :=
  state.log.filterMap fun
    | .sent _ _ => none
    | .freed port' m => if port' = port then some m else none

/-- The packets of a port whose end has come, in order. -/
def resolved (state : TxState Pkt) (port : Nat) : List Pkt :=
  state.log.filterMap fun
    | .sent port' m => if port' = port then some m else none
    | .freed port' m => if port' = port then some m else none

end TxState

/-- The loop frees the packets that the device did not take. -/
theorem freeRest_eq (port : Nat) (mTable : Nat → Pkt) (ret left : Nat) :
    freeRest port mTable ret left =
      (range left).map fun i => .freed port (mTable (ret + i)) := by
  induction left generalizing ret with
  | zero => rfl
  | succ left ih =>
    rw [freeRest, ih, range_succ_eq_map, map_cons, map_map]
    refine congrArg _ (map_congr_left fun i _ => ?_)
    simp only [comp, Nat.add_assoc, Nat.add_comm 1 i]

section

variable (state : TxState Pkt)

/-- A burst ends the first `n` packets of the table, in order. -/
theorem sendBurst_resolved (nic : TxBurst) (n port port' : Nat) :
    (sendBurst nic n port state).resolved port' = state.resolved port' ++
      if port = port' then (range n).map (state.txMbufs port).mTable else [] := by
  have taken : (nic n).val ≤ n := Nat.le_of_lt_succ (nic n).isLt
  have split : range n = range (nic n).val ++
      (range (n - (nic n).val)).map ((nic n).val + ·) := by
    rw [← range_add, Nat.add_sub_cancel' taken]
  simp only [TxState.resolved, sendBurst, freeRest_eq]
  by_cases same : port = port'
  · rw [split]
    simp [same]
  · simp [same]

@[simp] theorem sendBurst_txMbufs (nic : TxBurst) (n port : Nat) :
    (sendBurst nic n port state).txMbufs = state.txMbufs := rfl

@[simp] theorem setLen_len (port len : Nat) : ((state.setLen port len).txMbufs port).len = len := by
  simp [TxState.setLen]

@[simp] theorem setLen_mTable (port len : Nat) :
    ((state.setLen port len).txMbufs port).mTable = (state.txMbufs port).mTable := by
  simp [TxState.setLen]

end

variable {port port' : Nat} {state : TxState Pkt} {submissions : Nat → List Pkt}

@[simp] theorem setLen_of_ne (other : port' ≠ port) (len : Nat) :
    (state.setLen port len).txMbufs port' = state.txMbufs port' := by
  simp [TxState.setLen, other]

@[simp] theorem store_mTable (state : TxState Pkt) (port len : Nat) (m : Pkt) :
    ((state.store port len m).txMbufs port).mTable =
      update (state.txMbufs port).mTable len m := by
  simp [TxState.store]

@[simp] theorem store_of_ne (other : port' ≠ port) (len : Nat) (m : Pkt) :
    (state.store port len m).txMbufs port' = state.txMbufs port' := by
  simp [TxState.store, other]

/-- A stored packet waits behind those that waited before. -/
theorem range_succ_map_update (mTable : Nat → Pkt) (len : Nat) (m : Pkt) :
    (range (len + 1)).map (update mTable len m) =
      (range len).map mTable ++ [m] := by
  rw [range_succ, map_append, map_singleton, update_self]
  congr 1
  refine map_congr_left fun i member => ?_
  exact update_of_ne (Nat.ne_of_lt (mem_range.mp member)) m mTable

/-- A packet is added to a port's table. -/
def TxState.push (state : TxState Pkt) (port : Nat) (m : Pkt) : TxState Pkt :=
  (state.store port (state.txMbufs port).len m).setLen port ((state.txMbufs port).len + 1)

/-- A port's table is offered to the NIC as a whole. -/
def TxState.flush (state : TxState Pkt) (nic : TxBurst) (port : Nat) : TxState Pkt :=
  (sendBurst nic (state.txMbufs port).len port state).setLen port 0

section

variable (m : Pkt) (port : Nat) (state : TxState Pkt)

/-- `send_single_packet` pushes, and flushes a table that is full by that. -/
theorem sendSinglePacket_eq (nic : TxBurst) :
    sendSinglePacket nic m port state =
      if (state.txMbufs port).len + 1 = maxPktBurst then (state.push port m).flush nic port
      else state.push port m := by
  unfold sendSinglePacket TxState.flush
  simp only [TxState.push, setLen_len]
  split
  case isTrue full =>
    rw [full]
    simp [sendBurst, TxState.setLen]
  case isFalse => rfl

theorem pending_push : (state.push port m).pending port = state.pending port ++ [m] := by
  simp only [TxState.pending, TxState.push, setLen_len, setLen_mTable, store_mTable]
  exact range_succ_map_update _ _ m

end

theorem push_of_ne (other : port' ≠ port) (m : Pkt) :
    (state.push port m).txMbufs port' = state.txMbufs port' := by
  rw [TxState.push, setLen_of_ne other, store_of_ne other]

theorem flush_of_ne (other : port' ≠ port) (nic : TxBurst) :
    (state.flush nic port).txMbufs port' = state.txMbufs port' := by
  rw [TxState.flush, setLen_of_ne other, sendBurst_txMbufs]

/-- What has ended and what waits make up what was submitted, port by port. -/
def Whole (state : TxState Pkt) (submissions : Nat → List Pkt) : Prop :=
  ∀ port, state.resolved port ++ state.pending port = submissions port

/-- The submissions after one more packet. -/
def submit (submissions : Nat → List Pkt) (port : Nat) (m : Pkt) : Nat → List Pkt :=
  update submissions port (submissions port ++ [m])

theorem whole_push (whole : Whole state submissions) (port : Nat) (m : Pkt) :
    Whole (state.push port m) (submit submissions port m) := by
  intro port'
  change state.resolved port' ++ _ = _
  by_cases same : port' = port
  · subst same
    rw [pending_push, ← append_assoc, whole, submit, update_self]
  · rw [submit, update_of_ne same, ← whole port', TxState.pending, push_of_ne same]
    rfl

/-- Sending a table off loses no packet. -/
theorem whole_flush (whole : Whole state submissions) (nic : TxBurst) (port : Nat) :
    Whole (state.flush nic port) submissions := by
  intro port'
  change (sendBurst _ _ _ _).resolved port' ++ _ = _
  rw [sendBurst_resolved, ← whole port']
  by_cases same : port' = port
  · subst same
    simp [TxState.pending, TxState.flush]
  · rw [if_neg (Ne.symm same), append_nil, TxState.pending, flush_of_ne same]
    rfl

/-- The state accounts for the packets submitted to each port, and no table is
full. -/
structure Accounts (state : TxState Pkt) (submissions : Nat → List Pkt) : Prop where
  whole : Whole state submissions
  short : ∀ port, (state.txMbufs port).len < maxPktBurst

/-- Sending off the one table that may be full leaves none full. -/
theorem accounts_flush (whole : Whole state submissions) (nic : TxBurst)
    (others : ∀ port', port' ≠ port → (state.txMbufs port').len < maxPktBurst) :
    Accounts (state.flush nic port) submissions := by
  refine ⟨whole_flush whole nic port, fun port' => ?_⟩
  by_cases same : port' = port
  · subst same
    rw [TxState.flush, setLen_len]
    decide
  · rw [flush_of_ne same]
    exact others port' same

/-- A packet that is sent is submitted at its port, and nothing else changes. -/
theorem accounts_sendSinglePacket (accounts : Accounts state submissions) (nic : TxBurst) (m : Pkt)
    (port : Nat) : Accounts (sendSinglePacket nic m port state) (submit submissions port m) := by
  have pushed := whole_push accounts.whole port m
  have others : ∀ port', port' ≠ port → ((state.push port m).txMbufs port').len < maxPktBurst := by
    intro port' other
    rw [push_of_ne other]
    exact accounts.short port'
  rw [sendSinglePacket_eq]
  split
  case isTrue => exact accounts_flush pushed nic others
  case isFalse room =>
    refine ⟨pushed, fun port' => ?_⟩
    by_cases same : port' = port
    · subst same
      have short := accounts.short port'
      rw [TxState.push, setLen_len]
      omega
    · exact others port' same

/-- A drain keeps the account of every port. -/
theorem accounts_drain (nic : Nat → TxBurst) (ports : List Nat)
    (accounts : Accounts state submissions) : Accounts (drain nic ports state) submissions := by
  induction ports generalizing nic state with
  | nil => exact accounts
  | cons port rest ih =>
    apply ih
    split
    · exact accounts
    · exact accounts_flush accounts.whole (nic 0) fun port' _ => accounts.short port'

/-- The submissions after one more call. -/
def submitOp (submissions : Nat → List Pkt) : TxOp Pkt → Nat → List Pkt
  | .single _ m port => submit submissions port m
  | .drainPass _ => submissions

theorem accounts_txStep (txPortId : List Nat) (accounts : Accounts state submissions)
    (op : TxOp Pkt) : Accounts (txStep txPortId state op) (submitOp submissions op) := by
  cases op with
  | single nic m port => exact accounts_sendSinglePacket accounts nic m port
  | drainPass nic => exact accounts_drain nic txPortId accounts

theorem submitted_concat (port : Nat) (ops : List (TxOp Pkt)) (op : TxOp Pkt) :
    submitted port (ops ++ [op]) = submitOp (fun port => submitted port ops) op port := by
  cases op with
  | single nic m port' =>
    by_cases same : port' = port
    · subst same
      simp [submitted, submitOp, submit]
    · simp [submitted, submitOp, submit, same, Ne.symm same]
  | drainPass nic => simp [submitted, submitOp]

/-- Every run accounts for the packets submitted in it. -/
theorem accounts_txRun (txPortId : List Nat) (stale : Nat → Nat → Pkt) (ops : List (TxOp Pkt)) :
    Accounts (txRun txPortId stale ops) fun port => submitted port ops := by
  induction ops using reverseRecOn with
  | nil =>
    refine ⟨fun port => rfl, fun port => ?_⟩
    change 0 < maxPktBurst
    decide
  | append_singleton ops op ih =>
    have step := accounts_txStep txPortId ih op
    have history : (fun port => submitted port (ops ++ [op])) =
        submitOp (fun port => submitted port ops) op := by
      funext port
      exact submitted_concat port ops op
    rw [txRun, foldl_append, history]
    exact step

/-- Every packet that is no longer queued was handed over or freed. -/
theorem resolved_count [DecidableEq Pkt] (state : TxState Pkt) (port : Nat) (m : Pkt) :
    (state.resolved port).count m = (state.handedOver port).count m + (state.freed port).count m := by
  unfold TxState.resolved TxState.handedOver TxState.freed
  induction state.log with
  | nil => rfl
  | cons event rest ih =>
    cases event with
    | sent port' | freed port' =>
      by_cases same : port' = port
      · simp [same, count_cons]
        omega
      · simpa [same] using ih

/-- Packets are handed over in the order in which they were resolved. -/
theorem handedOver_sublist (state : TxState Pkt) (port : Nat) :
    (state.handedOver port).Sublist (state.resolved port) := by
  unfold TxState.resolved TxState.handedOver
  induction state.log with
  | nil => exact .slnil
  | cons event rest ih =>
    cases event with
    | sent port' m =>
      by_cases same : port' = port
      · simpa [same] using ih
      · simpa [same] using ih
    | freed port' m =>
      by_cases same : port' = port
      · simpa [same] using ih.cons m
      · simpa [same] using ih

/-- In every run, each submitted packet is handed to the NIC or freed once or still
waits, the NIC gets the packets of a port in the order of their submission, and
no table is full between calls. -/
theorem txRun_exact [DecidableEq Pkt] (txPortId : List Nat) (stale : Nat → Nat → Pkt)
    (ops : List (TxOp Pkt)) (port : Nat) :
    let state := txRun txPortId stale ops
    (∀ m, (state.handedOver port).count m + (state.freed port).count m +
        (state.pending port).count m = (submitted port ops).count m) ∧
      (state.handedOver port).Sublist (submitted port ops) ∧
      state.resolved port ++ state.pending port = submitted port ops ∧
      (state.txMbufs port).len < maxPktBurst := by
  obtain ⟨whole, short⟩ := accounts_txRun txPortId stale ops
  have exact_split : _ = submitted port ops := whole port
  refine ⟨fun m => ?_, ?_, exact_split, short port⟩
  · rw [← resolved_count, ← count_append, exact_split]
  · rw [← exact_split]
    exact (handedOver_sublist _ port).trans (sublist_append_left _ _)

end FStack.Transmit
