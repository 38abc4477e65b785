import FStack.Rss.PortStart
import FStack.Std.Windows
import Mathlib.Data.List.GetD

/-!
# The hash as an XOR of key windows

The Toeplitz hash is defined by windows of the key: every set bit of the data contributes the
32 key bits that begin at its position. `toeplitz_hash` never addresses a window; it slides one
along. `Slid` says where both stand after a number of data bits.

The symmetric key repeats after 16 bits, so its windows do, and what a field contributes
depends only on its own bits as long as fields begin at multiples of 16 bits.
-/

namespace FStack

open List PortsState Windows

/-- Bit `i` of a string of bytes, each byte from its most significant bit. -/
def bitAt (bytes : List UInt8) (i : Nat) : Bool := msbBit (keyByte bytes (i / 8)) (i % 8)

/-- The 32 key bits from bit `i` on. -/
def keyWindow (key : List UInt8) (i : Nat) : BitVec 32 := window 32 (bitAt key) i

/-- The Toeplitz hash by its definition. -/
def toeplitzReference (key data : List UInt8) : BitVec 32 :=
  xorWhere (bitAt data) (keyWindow key) (8 * data.length)

theorem bitAt_of_byte (bytes : List UInt8) (i : Nat) {b : Nat} (within : b < 8) :
    bitAt bytes (8 * i + b) = msbBit (keyByte bytes i) b := by
  have byte : (8 * i + b) / 8 = i := by omega
  have bit : (8 * i + b) % 8 = b := by omega
  rw [bitAt, byte, bit]

variable {i : Nat} {data other : List UInt8} {globals : RssGlobals}

theorem bitAt_append_left (first second : List UInt8) (inside : i < 8 * first.length) :
    bitAt (first ++ second) i = bitAt first i := by
  rw [bitAt, bitAt, keyByte, keyByte, getD_append _ _ _ _ (by omega)]

theorem bitAt_append_right (first second : List UInt8) (i : Nat) :
    bitAt (first ++ second) (8 * first.length + i) = bitAt second i := by
  have byte : (8 * first.length + i) / 8 = first.length + i / 8 := by omega
  have bit : (8 * first.length + i) % 8 = i % 8 := by omega
  rw [bitAt, bitAt, keyByte, keyByte, byte, bit, getD_append_right _ _ _ _ (by omega),
    Nat.add_sub_cancel_left]

theorem bitAt_zipWith_xor (length : other.length = data.length) (inside : i < 8 * data.length) :
    bitAt (zipWith (· ^^^ ·) data other) i = (bitAt data i ^^ bitAt other i) := by
  have left : i / 8 < data.length := by omega
  have right : i / 8 < other.length := by omega
  have both : i / 8 < (zipWith (· ^^^ ·) data other).length := by
    rw [length_zipWith]
    omega
  simp only [bitAt, keyByte, msbBit, getD_eq_getElem _ _ left, getD_eq_getElem _ _ right,
    getD_eq_getElem _ _ both, getElem_zipWith, UInt8.toNat_xor, Nat.testBit_xor]

theorem msbBit_eq_getMsbD (byte : UInt8) {b : Nat} (within : b < 8) :
    byte.toBitVec.getMsbD b = msbBit byte b := by
  rw [BitVec.getMsbD_eq_getLsbD, decide_eq_true within]
  rfl

/-- The first window is the first four key bytes. -/
theorem toeplitzWindow_eq_append (key : List UInt8) :
    toeplitzWindow key =
      (keyByte key 0).toBitVec ++ (keyByte key 1).toBitVec ++ (keyByte key 2).toBitVec ++
        (keyByte key 3).toBitVec := by
  have byte0 := (keyByte key 0).toNat_lt
  have byte1 := (keyByte key 1).toNat_lt
  have byte2 := (keyByte key 2).toNat_lt
  have byte3 := (keyByte key 3).toNat_lt
  refine BitVec.eq_of_toNat_eq ?_
  simp only [toeplitzWindow, BitVec.toNat_append, UInt8.toNat_toBitVec, BitVec.toNat_ofNat]
  rw [← Nat.shiftLeft_add_eq_or_of_lt byte1, ← Nat.shiftLeft_add_eq_or_of_lt byte2,
    ← Nat.shiftLeft_add_eq_or_of_lt byte3]
  omega

/-- The loop begins with the first window of the key. -/
theorem toeplitzWindow_eq (key : List UInt8) : toeplitzWindow key = keyWindow key 0 := by
  rw [toeplitzWindow_eq_append]
  refine eq_window fun i inside => ?_
  rw [Nat.zero_add, BitVec.getMsbD_append, BitVec.getMsbD_append, BitVec.getMsbD_append]
  have bit : ∀ byte, 8 * byte ≤ i → i < 8 * byte + 8 →
      (keyByte key byte).toBitVec.getMsbD (i - 8 * byte) = bitAt key i := by
    intro byte from_ below
    rw [msbBit_eq_getMsbD _ (by omega), ← bitAt_of_byte key byte (by omega)]
    congr 1
    omega
  split_ifs with last third second
  · exact bit 3 (by omega) (by omega)
  · exact bit 2 (by omega) (by omega)
  · exact bit 1 (by omega) (by omega)
  · exact bit 0 (by omega) (by omega)

/-- The variables of `toeplitz_hash` after `count` bits of the data. -/
structure Slid (key data : List UInt8) (count : Nat) (state : ToeplitzState) : Prop where
  hash : state.hash = xorWhere (bitAt data) (keyWindow key) count
  window : state.v = keyWindow key count

section Loop

variable {keylen : Nat} {key data : List UInt8} {state : ToeplitzState}

/-- The key bit that the loop shifts in is the one behind the window. -/
theorem Slid.bit {i b : Nat} (slid : Slid key data (8 * i + b) state) (within : b < 8)
    (inKey : i + 4 < keylen) :
    Slid key data (8 * i + (b + 1)) (toeplitzBit keylen key i (keyByte data i) state b) := by
  constructor
  · rw [← Nat.add_assoc, xorWhere_succ, bitAt_of_byte data i within, ← slid.hash, ← slid.window]
    rfl
  · have next := window_succ (by decide : 0 < 32) (bitAt key) (8 * i + b)
    rw [show 8 * i + b + 32 = 8 * (i + 4) + b by omega, bitAt_of_byte key (i + 4) within] at next
    change _ = keyWindow key (8 * i + b + 1) at next
    rw [← Nat.add_assoc, ← next]
    change (if i + 4 < keylen ∧ _ then state.v <<< 1 ||| 1 else state.v <<< 1) = _
    rw [slid.window]
    simp only [inKey, true_and]
    rfl

/-- Each byte of data slides the window by eight bits. -/
theorem Slid.byte {i : Nat} (slid : Slid key data (8 * i) state) (inKey : i + 4 < keylen) :
    Slid key data (8 * (i + 1)) (toeplitzByte keylen key i (keyByte data i) state) := by
  -- after the first `bits` bits of the byte
  have along : ∀ bits ≤ 8, Slid key data (8 * i + bits)
      ((range bits).foldl (toeplitzBit keylen key i (keyByte data i)) state) := by
    intro bits
    induction bits with
    | zero => exact fun _ => slid
    | succ bits ih =>
      intro bounded
      rw [range_succ, foldl_append]
      exact (ih (by omega)).bit (by omega) inKey
  exact along 8 le_rfl

/-- The loop behind the bytes `before` runs to the end of the data. -/
theorem Slid.loop {before rest : List UInt8}
    (slid : Slid key (before ++ rest) (8 * before.length) state)
    (inKey : (before ++ rest).length + 4 ≤ keylen) :
    Slid key (before ++ rest) (8 * (before ++ rest).length)
      (toeplitzLoop keylen key before.length rest state) := by
  induction rest generalizing before state with
  | nil =>
    rw [append_nil] at slid ⊢
    exact slid
  | cons byte rest ih =>
    have here : keyByte (before ++ byte :: rest) before.length = byte := by
      rw [keyByte, getD_append_right _ _ _ _ le_rfl, Nat.sub_self]
      rfl
    have inside : before.length + 4 < keylen := by
      rw [length_append, length_cons] at inKey
      omega
    have stepped := slid.byte inside
    rw [here, append_cons] at stepped
    rw [append_cons] at inKey ⊢
    have longer : (before ++ [byte]).length = before.length + 1 := length_append
    rw [← longer] at stepped
    have finished := ih stepped inKey
    rw [longer] at finished
    exact finished

/-- Where the key covers the data and one window more, the loop computes the hash. -/
theorem toeplitzHash_eq (inKey : data.length + 4 ≤ keylen) :
    toeplitzHash keylen key data = toeplitzReference key data := by
  have start : Slid key ([] ++ data) (8 * ([] : List UInt8).length)
      { hash := 0, v := toeplitzWindow key } := ⟨rfl, toeplitzWindow_eq key⟩
  exact (start.loop inKey).hash

end Loop

theorem toeplitzReference_xor (key : List UInt8) (length : other.length = data.length) :
    toeplitzReference key (zipWith (· ^^^ ·) data other) =
      toeplitzReference key data ^^^ toeplitzReference key other := by
  have longest : (zipWith (· ^^^ ·) data other).length = data.length := by
    rw [length_zipWith, length, Nat.min_self]
  rw [toeplitzReference, toeplitzReference, toeplitzReference, longest, length, ← xorWhere_xor]
  exact xorWhere_congr (fun i inside => bitAt_zipWith_xor length inside) fun _ _ => rfl

/-- `toeplitz_hash` XORs, over the set bits of the data, the 32 key bits from the bit's position
on; it is therefore linear in data of one length. -/
theorem toeplitzHash_eq_reference (keylen : Nat) (key data : List UInt8)
    (covered : data.length + 4 ≤ keylen) :
    toeplitzHash keylen key data = toeplitzReference key data ∧
      ∀ other : List UInt8, other.length = data.length →
        toeplitzHash keylen key (zipWith (· ^^^ ·) data other) =
          toeplitzHash keylen key data ^^^ toeplitzHash keylen key other := by
  refine ⟨toeplitzHash_eq covered, fun other length => ?_⟩
  have both : (zipWith (· ^^^ ·) data other).length + 4 ≤ keylen := by
    rw [length_zipWith, length, Nat.min_self]
    exact covered
  rw [toeplitzHash_eq both, toeplitzHash_eq covered, toeplitzHash_eq (length ▸ covered),
    toeplitzReference_xor key length]

theorem toeplitzHash_eq_reference_defaultRsskey :
    toeplitzHash 40 defaultRsskey40bytes [10, 0, 0, 1] =
        toeplitzReference defaultRsskey40bytes [10, 0, 0, 1] ∧
      toeplitzHash 40 defaultRsskey40bytes [193, 168, 7, 8] =
        toeplitzHash 40 defaultRsskey40bytes [10, 0, 0, 1] ^^^
          toeplitzHash 40 defaultRsskey40bytes [203, 168, 7, 9] :=
  have hash := toeplitzHash_eq_reference 40 defaultRsskey40bytes [10, 0, 0, 1] (by decide)
  ⟨hash.1, hash.2 [203, 168, 7, 9] rfl⟩

theorem toeplitzReference_append (key first second : List UInt8) :
    toeplitzReference key (first ++ second) =
      toeplitzReference key first ^^^
        xorWhere (bitAt second) (fun i => keyWindow key (8 * first.length + i))
          (8 * second.length) := by
  rw [toeplitzReference, length_append, Nat.mul_add, xorWhere_add]
  congr 1
  · exact xorWhere_congr (fun i inside => bitAt_append_left first second inside) fun _ _ => rfl
  · exact xorWhere_congr (fun i _ => bitAt_append_right first second i) fun _ _ => rfl

/-! ## The symmetric key -/

theorem bitAt_symmetricRsskey (period : Nat) (inside : 16 * period + i < 416) :
    bitAt symmetricRsskey (16 * period + i) = bitAt symmetricRsskey i := by
  have bytes : ∀ byte < 52, keyByte symmetricRsskey byte = keyByte symmetricRsskey (byte % 2) := by
    decide
  have byte : (16 * period + i) / 8 % 2 = i / 8 % 2 := by omega
  have bit : (16 * period + i) % 8 = i % 8 := by omega
  rw [bitAt, bitAt, bytes _ (by omega), bytes (i / 8) (by omega), byte, bit]

theorem keyWindow_symmetricRsskey (period : Nat) (inside : 16 * period + i + 32 ≤ 416) :
    keyWindow symmetricRsskey (16 * period + i) = keyWindow symmetricRsskey i :=
  window_congr fun j within => by
    rw [Nat.add_assoc, bitAt_symmetricRsskey period (by omega)]

/-- A field of the data contributes the same wherever it stands. -/
theorem toeplitzReference_symmetricRsskey {first second : List UInt8}
    (even : first.length % 2 = 0) (short : first.length + second.length ≤ 48) :
    toeplitzReference symmetricRsskey (first ++ second) =
      toeplitzReference symmetricRsskey first ^^^ toeplitzReference symmetricRsskey second := by
  rw [toeplitzReference_append]
  congr 1
  refine xorWhere_congr (fun _ _ => rfl) fun i inside => ?_
  rw [show 8 * first.length = 16 * (first.length / 2) by omega]
  exact keyWindow_symmetricRsskey _ (by omega)

/-- The connection as its peer names it. -/
def FourTuple.swap (tuple : FourTuple) : FourTuple where
  saddr := tuple.daddr
  daddr := tuple.saddr
  sport := tuple.dport
  dport := tuple.sport

/-- With the symmetric key, a hash is the sum of the hashes of the four fields. -/
theorem hash_of_symmetricRsskey (key : globals.rsskey = symmetricRsskey)
    (long : 16 ≤ globals.rsskeyLen) (tuple : FourTuple) :
    globals.hash tuple =
      toeplitzReference symmetricRsskey (memory32 tuple.saddr) ^^^
        toeplitzReference symmetricRsskey (memory32 tuple.daddr) ^^^
          toeplitzReference symmetricRsskey (memory16 tuple.sport) ^^^
            toeplitzReference symmetricRsskey (memory16 tuple.dport) := by
  rw [RssGlobals.hash, key, toeplitzHash_eq long, FourTuple.data,
    toeplitzReference_symmetricRsskey, toeplitzReference_symmetricRsskey,
    toeplitzReference_symmetricRsskey]
  all_goals simp [memory16, memory32]

theorem hash_swap (key : globals.rsskey = symmetricRsskey) (long : 16 ≤ globals.rsskeyLen)
    (tuple : FourTuple) : globals.hash tuple.swap = globals.hash tuple := by
  rw [hash_of_symmetricRsskey key long, hash_of_symmetricRsskey key long]
  have pairs : ∀ a b c d : BitVec 32, b ^^^ a ^^^ d ^^^ c = a ^^^ b ^^^ c ^^^ d := by
    intro a b c d
    rw [BitVec.xor_comm b, BitVec.xor_assoc, BitVec.xor_comm d, ← BitVec.xor_assoc]
  exact pairs _ _ _ _

/-- The key globals of a process with symmetric RSS, once it has started its ports. -/
theorem initPortStart_symmetric {cfg : PortStartCfg} {primary : Bool}
    {retaTable : Nat → Nat → UInt16} {state : PortsState}
    (done : initPortStart cfg primary (initial retaTable) = .ok state)
    (symmetric : cfg.symmetricRss = true) (ports : cfg.portidList ≠ []) :
    state.key.rsskey = symmetricRsskey ∧ 16 ≤ state.key.rsskeyLen := by
  have visited : cfg.visits ≠ [] := by
    obtain ⟨port, others, list⟩ := exists_cons_of_ne_nil ports
    simp [PortStartCfg.visits, list, PortStartCfg.devicesOf]
  rw [(initPortStart_visited done).key]
  change (cfg.visits.foldl (keyStep cfg) RssKey.initial).rsskey = _ ∧
    16 ≤ (cfg.visits.foldl (keyStep cfg) RssKey.initial).rsskeyLen
  rw [foldl_keyStep_initial cfg visited, symmetric]
  cases cfg.longKey cfg.visits <;> decide

/-- Under the symmetric key both directions of a connection have one hash, so `ff_rss_check`
answers for both of them alike, on every port and for every queue. -/
theorem ffRssCheck_swap (cfg : PortStartCfg) (primary : Bool) (retaTable : Nat → Nat → UInt16)
    (state : PortsState)
    (done : initPortStart cfg primary (initial retaTable) = .ok state)
    (symmetric : cfg.symmetricRss = true) (ports : cfg.portidList ≠ []) (globals : RssGlobals)
    (key : globals.rsskey = state.key.rsskey) (keyLen : globals.rsskeyLen = state.key.rsskeyLen)
    (tuple : FourTuple) :
    globals.hash tuple.swap = globals.hash tuple ∧
      ∀ (portId : Nat) (queue : UInt16),
        ffRssCheck (globals.onQueue queue) portId tuple.swap =
          ffRssCheck (globals.onQueue queue) portId tuple := by
  obtain ⟨configured, long⟩ := initPortStart_symmetric done symmetric ports
  rw [← key] at configured
  rw [← keyLen] at long
  refine ⟨hash_swap configured long tuple, fun portId queue => ?_⟩
  have same : (globals.onQueue queue).hash tuple.swap = (globals.onQueue queue).hash tuple :=
    hash_swap configured long tuple
  rw [ffRssCheck, ffRssCheck, same]

/-- Two ports with the symmetric key. -/
def symmetricPorts : PortStartCfg := { twoPorts 40 52 with symmetricRss := true }

/-- Four queues under the key of a process that has started its ports. -/
def PortsState.fourQueues (state : PortsState) : RssGlobals :=
  { FStack.fourQueues with rsskey := state.key.rsskey, rsskeyLen := state.key.rsskeyLen }

/-- With the symmetric key, both directions have one hash. -/
theorem ffRssCheck_swap_symmetricPorts :
    ∃ state, initPortStart symmetricPorts true (initial fun _ _ => 0) = .ok state ∧
      state.fourQueues.hash ⟨0x0200007f, 0x0100007f, 1024, 80⟩ =
        state.fourQueues.hash ⟨0x0100007f, 0x0200007f, 80, 1024⟩ := by
  obtain ⟨state, done⟩ :
      ∃ state, initPortStart symmetricPorts true (initial fun _ _ => 0) = .ok state :=
    ⟨_, rfl⟩
  have swapped := ffRssCheck_swap symmetricPorts true (fun _ _ => 0) state done rfl (by decide)
    state.fourQueues rfl rfl ⟨0x0100007f, 0x0200007f, 80, 1024⟩
  exact ⟨state, done, swapped.1⟩

end FStack
