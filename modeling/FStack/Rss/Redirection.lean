import FStack.Rss.Toeplitz

/-!
# Redirection tables and their prediction

A NIC looks the low bits of a packet's hash up in its redirection table to find
the packet's queue. `set_rss_table` fills that table, and `ff_rss_check`
predicts, without the table, whether a connection's packets would come back to
this process's own queue.
-/

namespace FStack

/-- `RTE_RETA_GROUP_SIZE`. -/
def rteRetaGroupSize : Nat := 64

/-- `struct rte_eth_rss_reta_entry64`. -/
structure RetaEntry64 where
  mask : BitVec 64
  reta : List UInt16
deriving DecidableEq, Repr

/-- The inner loop of `set_rss_table`: the remaining entries of a group, and the
running index `hash` behind them. -/
def fillReta (nbQueues : UInt16) : Nat → UInt32 → List UInt16 × UInt32
  | 0, hash => ([], hash)
  | left + 1, hash =>
    let others := fillReta nbQueues left (hash + 1)
    ((hash % nbQueues.toUInt32).toUInt16 :: others.1, others.2)

/-- The outer loop of `set_rss_table`. -/
def fillRetaConf (nbQueues : UInt16) : Nat → UInt32 → List RetaEntry64
  | 0, _ => []
  | left + 1, hash =>
    let group := fillReta nbQueues rteRetaGroupSize hash
    { mask := BitVec.allOnes 64, reta := group.1 } :: fillRetaConf nbQueues left group.2

/-- `rte_eth_dev_rss_reta_update`: entries below `retaSize` whose mask bit is set
take the configured queue. -/
def rteEthDevRssRetaUpdate (table : Nat → UInt16) (retaConf : List RetaEntry64)
    (retaSize : UInt16) (idx : Nat) : UInt16 :=
  if idx < retaSize.toNat then
    match retaConf[idx / rteRetaGroupSize]? with
    | none => table idx
    | some entry =>
      if entry.mask.getLsbD (idx % rteRetaGroupSize) then
        entry.reta.getD (idx % rteRetaGroupSize) 0
      else table idx
  else table idx

/-- `set_rss_table`, on a port whose hardware holds `table`. -/
def setRssTable (table : Nat → UInt16) (retaSize nbQueues : UInt16) : Nat → UInt16 :=
  if retaSize = 0 then table
  else
    let retaConfSize := max 1 (retaSize.toNat / rteRetaGroupSize)
    rteEthDevRssRetaUpdate table (fillRetaConf nbQueues retaConfSize 0) retaSize

/-- What `ff_rss_check` reads: the queue counts and own TX queues of
`lcore_conf`, the table sizes `rss_reta_size`, and the hash key. -/
structure RssGlobals where
  nbQueueList : Nat → UInt16
  txQueueId : Nat → UInt16
  rssRetaSize : Nat → UInt16
  rsskey : List UInt8
  rsskeyLen : Nat

/-- An IPv4 connection, in the byte order of the caller's variables. -/
structure FourTuple where
  saddr : UInt32
  daddr : UInt32
  sport : UInt16
  dport : UInt16

/-- `bcopy` of a 16-bit variable: its bytes in memory. -/
def memory16 (x : UInt16) : List UInt8 := [x.toUInt8, (x >>> 8).toUInt8]

/-- `bcopy` of a 32-bit variable. -/
def memory32 (x : UInt32) : List UInt8 :=
  [x.toUInt8, (x >>> 8).toUInt8, (x >>> 16).toUInt8, (x >>> 24).toUInt8]

/-- The data `ff_rss_check` hashes. -/
def FourTuple.data (tuple : FourTuple) : List UInt8 :=
  memory32 tuple.saddr ++ memory32 tuple.daddr ++ memory16 tuple.sport ++ memory16 tuple.dport

/-- The hash of a connection under the current key. -/
def RssGlobals.hash (globals : RssGlobals) (tuple : FourTuple) : BitVec 32 :=
  toeplitzHash globals.rsskeyLen globals.rsskey tuple.data

/-- `ff_rss_check`. -/
def ffRssCheck (globals : RssGlobals) (portId : Nat) (tuple : FourTuple) : Bool :=
  let nbQueues := globals.nbQueueList portId
  if nbQueues ≤ 1 then true
  else
    let retaSize := globals.rssRetaSize portId
    let queueid := globals.txQueueId portId
    (globals.hash tuple &&& (BitVec.ofNat 32 retaSize.toNat - 1)) %
      BitVec.ofNat 32 nbQueues.toNat = BitVec.ofNat 32 queueid.toNat

/-- Entry `idx` of the table that `set_rss_table` hands to the driver. -/
def retaEntry (nbQueues : UInt16) (idx : Nat) : UInt16 :=
  (UInt32.ofNat idx % nbQueues.toUInt32).toUInt16

variable {idx n : Nat} {nbQueues : UInt16}

theorem retaEntry_toNat (some_queue : 0 < nbQueues.toNat) (bounded : idx < 2 ^ 32) :
    (retaEntry nbQueues idx).toNat = idx % nbQueues.toNat := by
  have small : idx % nbQueues.toNat < 2 ^ 16 :=
    (Nat.mod_lt idx some_queue).trans nbQueues.toNat_lt
  simp only [retaEntry, UInt32.toNat_toUInt16, UInt32.toNat_mod, UInt32.toNat_ofNat',
    UInt16.toNat_toUInt32]
  rw [Nat.mod_eq_of_lt bounded, Nat.mod_eq_of_lt small]

/-- The loop fills one entry after the other. -/
theorem fillReta_eq (nbQueues : UInt16) (left idx : Nat) :
    fillReta nbQueues left (UInt32.ofNat idx) =
      ((List.range left).map fun j => retaEntry nbQueues (idx + j), UInt32.ofNat (idx + left)) := by
  induction left generalizing idx with
  | zero => rfl
  | succ left ih =>
    have next : UInt32.ofNat idx + 1 = UInt32.ofNat (idx + 1) := by simp
    have shift : (fun j => retaEntry nbQueues (idx + 1 + j)) =
        (fun j => retaEntry nbQueues (idx + j)) ∘ Nat.succ := by
      funext j
      simp only [Function.comp, Nat.add_assoc, Nat.add_comm 1 j]
    simp only [fillReta, next, ih, List.range_succ_eq_map, List.map_cons, List.map_map, shift]
    rw [Nat.add_assoc, Nat.add_comm 1 left]
    rfl

/-- The groups follow one another without a gap. -/
theorem fillRetaConf_getElem? (nbQueues : UInt16) {left group : Nat} (idx : Nat)
    (inside : group < left) :
    (fillRetaConf nbQueues left (UInt32.ofNat idx))[group]? =
      some { mask := BitVec.allOnes 64
             reta := (List.range rteRetaGroupSize).map fun j =>
               retaEntry nbQueues (idx + group * rteRetaGroupSize + j) } := by
  induction left generalizing idx group with
  | zero => omega
  | succ left ih =>
    simp only [fillRetaConf, fillReta_eq]
    obtain _ | group := group
    · simp
    · rw [List.getElem?_cons_succ, ih (idx + rteRetaGroupSize) (by omega)]
      have offset : idx + rteRetaGroupSize + group * rteRetaGroupSize =
          idx + (group + 1) * rteRetaGroupSize := by
        rw [Nat.add_mul]
        omega
      rw [offset]

/-- The groups cover the whole of a power-of-two table. -/
theorem group_lt_retaConfSize {retaSize : Nat} (power : retaSize = 2 ^ n) (inside : idx < retaSize)
    :
    idx / rteRetaGroupSize < max 1 (retaSize / rteRetaGroupSize) := by
  unfold rteRetaGroupSize
  by_cases small : n < 6
  · have bound : 2 ^ n < 2 ^ 6 := Nat.pow_lt_pow_right (by decide) small
    omega
  · have whole : retaSize = 2 ^ (n - 6) * 64 := by
      rw [power, show (64 : Nat) = 2 ^ 6 from rfl, ← Nat.pow_add]
      congr 1
      omega
    omega

/-- After `set_rss_table`, entry `idx` of the table is queue `idx % nbQueues`. -/
theorem setRssTable_entry (table : Nat → UInt16) {retaSize : UInt16}
    (some_queue : 0 < nbQueues.toNat) (power : retaSize.toNat = 2 ^ n)
    (inside : idx < retaSize.toNat) :
    (setRssTable table retaSize nbQueues idx).toNat = idx % nbQueues.toNat := by
  have nonzero : retaSize ≠ 0 := by
    rintro rfl
    simp at inside
  have covered := group_lt_retaConfSize power inside
  have within : idx % rteRetaGroupSize < rteRetaGroupSize := Nat.mod_lt _ (by decide)
  have position : 0 + idx / rteRetaGroupSize * rteRetaGroupSize + idx % rteRetaGroupSize = idx := by
    rw [Nat.zero_add, Nat.div_add_mod']
  have bounded : idx < 2 ^ 32 := by
    have small := retaSize.toNat_lt
    omega
  have entry := fillRetaConf_getElem? nbQueues 0 covered
  change (fillRetaConf nbQueues _ 0)[_]? = _ at entry
  simp only [setRssTable, if_neg nonzero, rteEthDevRssRetaUpdate, if_pos inside, entry]
  have masked : (BitVec.allOnes 64).getLsbD (idx % rteRetaGroupSize) = true := by
    rw [BitVec.getLsbD_allOnes]
    exact decide_eq_true within
  rw [if_pos masked, List.getD_eq_getElem?_getD, List.getElem?_map, List.getElem?_range within,
    Option.map_some, position]
  exact retaEntry_toNat some_queue bounded

/-- With more than one queue, the check asks for the queue that is the table
index of the connection modulo the number of queues. -/
theorem ffRssCheck_iff (globals : RssGlobals) (portId : Nat) (tuple : FourTuple)
    (many : 1 < (globals.nbQueueList portId).toNat)
    (power : (globals.rssRetaSize portId).toNat = 2 ^ n) :
    ffRssCheck globals portId tuple = true ↔
      (globals.hash tuple).toNat % (globals.rssRetaSize portId).toNat %
          (globals.nbQueueList portId).toNat = (globals.txQueueId portId).toNat := by
  have several : ¬ globals.nbQueueList portId ≤ 1 := by
    rw [UInt16.le_iff_toNat_le]
    simpa using many
  have positive : 1 ≤ 2 ^ n := Nat.one_le_two_pow
  have sizeBound := (globals.rssRetaSize portId).toNat_lt
  have queuesBound := (globals.nbQueueList portId).toNat_lt
  have queueBound := (globals.txQueueId portId).toNat_lt
  have low : (globals.hash tuple &&&
      (BitVec.ofNat 32 (globals.rssRetaSize portId).toNat - 1)).toNat =
      (globals.hash tuple).toNat % (globals.rssRetaSize portId).toNat := by
    have mask : (BitVec.ofNat 32 (globals.rssRetaSize portId).toNat - 1).toNat = 2 ^ n - 1 := by
      have one : (1 : BitVec 32).toNat = 1 := rfl
      simp only [BitVec.toNat_sub, BitVec.toNat_ofNat]
      omega
    rw [BitVec.toNat_and, mask, power, Nat.and_two_pow_sub_one_eq_mod]
  simp only [ffRssCheck, if_neg several, decide_eq_true_eq]
  rw [← BitVec.toNat_inj, BitVec.toNat_umod, low, BitVec.toNat_ofNat, BitVec.toNat_ofNat,
    Nat.mod_eq_of_lt (by omega : (globals.nbQueueList portId).toNat < 2 ^ 32),
    Nat.mod_eq_of_lt (by omega : (globals.txQueueId portId).toNat < 2 ^ 32)]

/-- The process that polls `queue` of every port. -/
def RssGlobals.onQueue (globals : RssGlobals) (queue : UInt16) : RssGlobals :=
  { globals with txQueueId := fun _ => queue }

/-- Exactly one of the port's queues passes the check for a connection, and it is
the queue to which the port's redirection table sends the connection's packets. -/
theorem ffRssCheck_predicts (globals : RssGlobals) (portId : Nat) (tuple : FourTuple)
    (table : Nat → UInt16) (many : 1 < (globals.nbQueueList portId).toNat)
    (power : ∃ n, (globals.rssRetaSize portId).toNat = 2 ^ n) :
    ∃ queue : UInt16,
      (∀ candidate : UInt16, candidate < globals.nbQueueList portId ∧
        ffRssCheck (globals.onQueue candidate) portId tuple = true ↔ candidate = queue) ∧
      setRssTable table (globals.rssRetaSize portId) (globals.nbQueueList portId)
        ((globals.hash tuple).toNat % (globals.rssRetaSize portId).toNat) = queue := by
  obtain ⟨n, power⟩ := power
  have positive : 0 < (globals.rssRetaSize portId).toNat := by
    rw [power]
    exact Nat.two_pow_pos n
  have entry := setRssTable_entry table (by omega : 0 < (globals.nbQueueList portId).toNat) power
    (Nat.mod_lt (globals.hash tuple).toNat positive)
  refine ⟨_, fun candidate => ?_, rfl⟩
  have check := ffRssCheck_iff (globals.onQueue candidate) portId tuple many power
  have below := Nat.mod_lt ((globals.hash tuple).toNat % (globals.rssRetaSize portId).toNat)
    (by omega : 0 < (globals.nbQueueList portId).toNat)
  rw [check, UInt16.lt_iff_toNat_lt, ← UInt16.toNat_inj, entry]
  constructor
  · rintro ⟨-, same⟩
    exact same.symm
  · intro same
    exact ⟨same ▸ below, same.symm⟩

/-- Four queues behind a table of 128 entries. -/
def fourQueues : RssGlobals where
  nbQueueList _ := 4
  txQueueId _ := 0
  rssRetaSize _ := 128
  rsskey := defaultRsskey40bytes
  rsskeyLen := 40

/-- Four queues and a table of 128 entries. -/
theorem ffRssCheck_predicts_fourQueues :
    ∃ queue : UInt16,
      (∀ candidate : UInt16, candidate < 4 ∧
        ffRssCheck (fourQueues.onQueue candidate) 0 ⟨0x0100007f, 0x0200007f, 80, 1024⟩ = true ↔
          candidate = queue) ∧
      setRssTable (fun _ => 0) 128 4
        ((fourQueues.hash ⟨0x0100007f, 0x0200007f, 80, 1024⟩).toNat % 128) = queue :=
  ffRssCheck_predicts fourQueues 0 ⟨0x0100007f, 0x0200007f, 80, 1024⟩ (fun _ => 0) (by decide)
    ⟨7, by decide⟩

end FStack
