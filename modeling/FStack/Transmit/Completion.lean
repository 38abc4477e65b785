import FStack.Transmit.ZeroCopy
import Mathlib.Algebra.Ring.Nat
import Mathlib.Data.List.GetD
import Mathlib.Data.List.Nodup
import Mathlib.Data.List.ReduceOption

/-!
# The completion ring as a delay line

`nic_tx_ring` has as many slots as the NIC's own ring, and a packet uses as many of them as it
has segments. The writes of all calls can therefore be numbered one per segment, and write `i`
goes to slot `i % 512`: what it displaces is what write `i - 512` left there.
-/

namespace FStack.Transmit.PageArray

open List hiding Vector

/-- A call of `ff_enq_tx_bsdmbuf`. -/
structure EnqCall where
  mbuf : Nat
  nbSegs : Nat
deriving DecidableEq, Repr

/-- What a call writes to the ring: nothing for each segment but the last. -/
def EnqCall.writes (call : EnqCall) : List (Option Nat) :=
  replicate (call.nbSegs - 1) none ++ [some call.mbuf]

/-- The writes of a sequence of calls in their order; the position of a write is its index. -/
def ringWrites (calls : List EnqCall) : List (Option Nat) := calls.flatMap EnqCall.writes

def TxRing.run (writes : List (Option Nat)) (ring : TxRing) : TxRing :=
  writes.foldl (fun ring m => ring.reuse m) ring

/-- The ring after the first `count` writes of the calls. -/
def ringAfter (calls : List EnqCall) (count : Nat) : TxRing :=
  TxRing.initial.run ((ringWrites calls).take count)

theorem clear_eq_run (left : Nat) (ring : TxRing) :
    ring.clear left = ring.run (replicate left none) := by
  induction left generalizing ring with
  | zero => rfl
  | succ left ih => exact ih (ring.reuse none)

theorem ffTxringEnqueue_eq_run (call : EnqCall) (ring : TxRing) :
    ffTxringEnqueue call.mbuf call.nbSegs ring = ring.run call.writes := by
  rw [ffTxringEnqueue, clear_eq_run, TxRing.run, TxRing.run, EnqCall.writes, foldl_append]
  rfl

theorem foldl_enqueue_eq_run (calls : List EnqCall) (ring : TxRing) :
    calls.foldl (fun ring call => ffTxringEnqueue call.mbuf call.nbSegs ring) ring =
      ring.run (ringWrites calls) := by
  induction calls generalizing ring with
  | nil => rfl
  | cons call rest ih =>
    rw [foldl_cons, ih, ffTxringEnqueue_eq_run]
    exact foldl_append.symm

/-- A call writes one entry for each segment. -/
theorem length_ringWrites {calls : List EnqCall} (counts : ∀ call ∈ calls, 1 ≤ call.nbSegs) :
    (ringWrites calls).length = (calls.map (·.nbSegs)).sum := by
  induction calls with
  | nil => rfl
  | cons call rest ih =>
    have one : call.writes.length = call.nbSegs := by
      have positive := counts call mem_cons_self
      rw [EnqCall.writes, length_append, length_replicate, length_singleton]
      omega
    rw [ringWrites, flatMap_cons, length_append, one, map_cons]
    exact congrArg _ (ih fun other member => counts other (mem_cons_of_mem call member))

theorem reduceOption_ringWrites (calls : List EnqCall) :
    (ringWrites calls).reduceOption = calls.map (·.mbuf) := by
  induction calls with
  | nil => rfl
  | cons call rest ih =>
    have one : call.writes.reduceOption = [call.mbuf] := by
      rw [EnqCall.writes, reduceOption_append, reduceOption_replicate_none]
      rfl
    rw [ringWrites, flatMap_cons, reduceOption_append, one]
    exact congrArg _ ih

/-- The slot of a write. -/
def slotOf (i : Nat) : Fin txQueueSize := ⟨i % txQueueSize, Nat.mod_lt i (by decide)⟩

/-- What a write displaces. -/
def displacedBy (writes : List (Option Nat)) (i : Nat) : Option Nat :=
  if txQueueSize ≤ i then writes.getD (i - txQueueSize) none else none

theorem headInc_slotOf (i : Nat) : headInc (slotOf i) = slotOf (i + 1) := by
  unfold headInc slotOf txQueueSize
  split_ifs with inside <;> refine Fin.ext ?_ <;> simp only at inside ⊢ <;> omega

theorem slotOf_add_size (i : Nat) : slotOf (i + txQueueSize) = slotOf i :=
  Fin.ext (Nat.add_mod_right i txQueueSize)

theorem slotOf_ne {i j : Nat} (later : i < j) (near : j < i + txQueueSize) :
    slotOf i ≠ slotOf j := by
  intro same
  have rests : i % txQueueSize = j % txQueueSize := congrArg Fin.val same
  unfold txQueueSize at near rests
  omega

variable {writes : List (Option Nat)} {ring : TxRing}

theorem displacedBy_concat {i : Nat} (m : Option Nat) (before : i < writes.length + txQueueSize) :
    displacedBy (writes ++ [m]) i = displacedBy writes i := by
  unfold displacedBy
  split_ifs with full
  · exact getD_append _ _ _ _ (by omega)
  · rfl

theorem mTable_reuse_self (m : Option Nat) (ring : TxRing) :
    (ring.reuse m).mTable.get ring.head = m :=
  getElem_set_self _

theorem mTable_reuse_of_ne {slot : Fin txQueueSize} (m : Option Nat) (other : slot ≠ ring.head) :
    (ring.reuse m).mTable.get slot = ring.mTable.get slot :=
  Vector.getElem_set_ne ring.head.isLt slot.isLt fun same => other (Fin.ext same.symm)

/-- The ring behind a number of writes: the next 512 writes are going to displace what was
written 512 writes before each of them, and the writes displaced so far are released in order. -/
structure Delayed (writes : List (Option Nat)) (ring : TxRing) : Prop where
  head : ring.head = slotOf writes.length
  slots : ∀ i, writes.length ≤ i → i < writes.length + txQueueSize →
    ring.mTable.get (slotOf i) = displacedBy writes i
  released : ring.released = (writes.take (writes.length - txQueueSize)).reduceOption

theorem Delayed.initial : Delayed [] TxRing.initial where
  head := rfl
  slots i _ below := by
    rw [displacedBy, if_neg (by simpa using below)]
    exact getElem_replicate _
  released := rfl

/-- A write releases what it displaces, and nothing else. -/
theorem Delayed.released_reuse (delayed : Delayed writes ring) (m : Option Nat) :
    (ring.reuse m).released = ring.released ++ (displacedBy writes writes.length).toList := by
  rw [← delayed.slots writes.length (Nat.le_refl _) (Nat.lt_add_of_pos_right (by decide)), ← delayed.head]
  rfl

/-- A write displaces what was written 512 writes before it. -/
theorem Delayed.reuse (delayed : Delayed writes ring) (m : Option Nat) :
    Delayed (writes ++ [m]) (ring.reuse m) := by
  have longer : (writes ++ [m]).length = writes.length + 1 := length_append
  constructor
  · rw [longer, ← headInc_slotOf, ← delayed.head]
    rfl
  · intro i from_ below
    rcases Nat.lt_or_ge i (writes.length + txQueueSize) with old | new
    · have other : slotOf i ≠ ring.head := delayed.head ▸ (slotOf_ne (by omega) old).symm
      rw [displacedBy_concat m old, ← delayed.slots i (by omega) old, mTable_reuse_of_ne m other]
    · obtain rfl : i = writes.length + txQueueSize := by omega
      rw [slotOf_add_size, ← delayed.head, mTable_reuse_self, displacedBy, if_pos (by omega),
        Nat.add_sub_cancel, getD_append_right _ _ _ _ (Nat.le_refl _), Nat.sub_self]
      rfl
  · rw [delayed.released_reuse m, delayed.released, longer, displacedBy]
    split_ifs with full
    · have inside : writes.length - txQueueSize < writes.length := by
        have positive : 0 < txQueueSize := by decide
        omega
      rw [take_append_of_le_length (by omega), Nat.sub_add_comm full, take_add_one,
        reduceOption_append, getElem?_eq_getElem inside, getD_eq_getElem _ _ inside]
      rfl
    · rw [show writes.length - txQueueSize = 0 by omega,
        show writes.length + 1 - txQueueSize = 0 by omega]
      rfl

/-- A run of writes displaces as many, 512 writes behind. -/
theorem Delayed.run {before : List (Option Nat)} (delayed : Delayed before ring) :
    Delayed (before ++ writes) (ring.run writes) := by
  induction writes generalizing before ring with
  | nil =>
    rw [append_nil]
    exact delayed
  | cons m rest ih =>
    rw [append_cons]
    exact ih (delayed.reuse m)

theorem delayed_ringAfter (calls : List EnqCall) (count : Nat) :
    Delayed ((ringWrites calls).take count) (ringAfter calls count) :=
  Delayed.initial.run

/-- Among writes of different mbufs, the first `count` hold an mbuf exactly if its position is
one of them. -/
theorem count_take_reduceOption {k mbuf : Nat} (distinct : writes.reduceOption.Nodup)
    (here : writes[k]? = some (some mbuf)) (count : Nat) :
    (writes.take count).reduceOption.count mbuf = if k < count then 1 else 0 := by
  have split := reduceOption_append (writes.take count) (writes.drop count)
  rw [take_append_drop] at split
  rw [split] at distinct
  split_ifs with within
  · refine count_eq_one_of_mem distinct.of_append_left ?_
    have there : (writes.take count)[k]? = some (some mbuf) := by
      rw [getElem?_take_of_lt within, here]
    exact reduceOption_mem_iff.mpr (mem_of_getElem? there)
  · refine count_eq_zero_of_not_mem fun early => ?_
    have there : (writes.drop count)[k - count]? = some (some mbuf) := by
      rw [getElem?_drop, Nat.add_sub_cancel' (Nat.le_of_not_lt within), here]
    exact disjoint_of_nodup_append distinct early
      (reduceOption_mem_iff.mpr (mem_of_getElem? there))

/-- What holds of the releases that a sequence of calls makes. -/
structure ReleasedInTime (calls : List EnqCall) : Prop where
  /-- The calls make one write for each segment. -/
  writes : (ringWrites calls).length = (calls.map (·.nbSegs)).sum
  ring : calls.foldl (fun ring call => ffTxringEnqueue call.mbuf call.nbSegs ring) .initial =
    ringAfter calls (ringWrites calls).length
  /-- Write `i` releases the mbuf whose last segment was write `i - 512`, and no other. -/
  released : ∀ i < (ringWrites calls).length,
    (ringAfter calls (i + 1)).released =
      (ringAfter calls i).released ++ (displacedBy (ringWrites calls) i).toList
  /-- So an mbuf is released once, by the write 512 positions behind its last segment. -/
  once : (calls.map (·.mbuf)).Nodup → ∀ k mbuf, (ringWrites calls)[k]? = some (some mbuf) →
    ∀ count ≤ (ringWrites calls).length,
      (ringAfter calls count).released.count mbuf = if k + txQueueSize < count then 1 else 0

/-- For every sequence of calls, a BSD mbuf whose last segment was written at position `k` is
released exactly when position `k + 512` is written. -/
theorem releasedInTime_of_calls (calls : List EnqCall)
    (counts : ∀ call ∈ calls, 1 ≤ call.nbSegs ∧ call.nbSegs ≤ txQueueSize) :
    ReleasedInTime calls where
  writes := length_ringWrites fun call member => (counts call member).1
  ring := by
    rw [foldl_enqueue_eq_run, ringAfter, take_length]
  released i inside := by
    have before := delayed_ringAfter calls i
    have length : ((ringWrites calls).take i).length = i := length_take_of_le (Nat.le_of_lt inside)
    have next : ringAfter calls (i + 1) = (ringAfter calls i).reuse (ringWrites calls)[i] := by
      rw [ringAfter, ringAfter, TxRing.run, take_add_one, getElem?_eq_getElem inside, foldl_append]
      rfl
    rw [next, before.released_reuse, length]
    unfold displacedBy
    split_ifs with full
    · have earlier : i - txQueueSize < i := Nat.sub_lt_of_pos_le (by decide) full
      rw [getD_eq_getElem?_getD, getElem?_take_of_lt earlier, ← getD_eq_getElem?_getD]
    · rfl
  once distinct k mbuf here count bounded := by
    have length : ((ringWrites calls).take count).length = count := length_take_of_le bounded
    rw [← reduceOption_ringWrites] at distinct
    rw [(delayed_ringAfter calls count).released, take_take, count_take_reduceOption distinct here]
    exact if_congr (by omega) rfl rfl

/-- The first mbuf has two segments, the second fills the ring to its end and the third, with
two segments, comes back to the first two slots. -/
def aroundTheRing : List EnqCall := [⟨7, 2⟩, ⟨8, 510⟩, ⟨9, 2⟩]

theorem releasedInTime_aroundTheRing :
    (ringAfter aroundTheRing 513).released.count 7 = 0 ∧
      (ringAfter aroundTheRing 514).released.count 7 = 1 := by
  have inTime := releasedInTime_of_calls aroundTheRing (by decide)
  have length : (ringWrites aroundTheRing).length = 514 := inTime.writes
  have once := inTime.once (by decide) 1 7 rfl
  exact ⟨once 513 (by omega), once 514 (by omega)⟩

end FStack.Transmit.PageArray
