import Mathlib.Data.List.GetD
import Mathlib.Tactic.SplitIfs

/-!
# Memory as bytes

Runs of bytes that are stored, loaded and moved. A store of two runs one behind the other is
the store of both, stores to different places commute, and a move onto itself does nothing.
-/

namespace FStack

open List

/-- A memory that is addressed by bytes. -/
abbrev Memory := Nat → UInt8

namespace Memory

variable {mem : Memory} {addr addr' count : Nat} {bytes bytes' : List UInt8}

def store (mem : Memory) (addr : Nat) (bytes : List UInt8) : Memory := fun a =>
  if addr ≤ a then bytes.getD (a - addr) (mem a) else mem a

def load (mem : Memory) (addr count : Nat) : List UInt8 :=
  (range count).map fun i => mem (addr + i)

/-- `memmove`: all bytes are read before any is written. -/
def move (mem : Memory) (source target count : Nat) : Memory :=
  mem.store target (mem.load source count)

section

variable (mem : Memory)

@[simp] theorem length_load (addr count : Nat) : (mem.load addr count).length = count := by
  rw [load, length_map, length_range]

theorem load_add (addr first count : Nat) :
    mem.load addr (first + count) = mem.load addr first ++ mem.load (addr + first) count := by
  rw [load, range_add, map_append, map_map]
  congr 1
  exact map_congr_left fun i _ => congrArg mem (Nat.add_assoc addr first i).symm

theorem store_of_lt (bytes : List UInt8) {a : Nat} (before : a < addr) :
    mem.store addr bytes a = mem a := if_neg (Nat.not_le_of_lt before)

theorem store_of_ge {a : Nat} (behind : addr + bytes.length ≤ a) :
    mem.store addr bytes a = mem a := by
  rw [store, if_pos (by omega), getD_eq_default _ _ (by omega)]

theorem store_of_inside {i : Nat} (inside : i < bytes.length) :
    mem.store addr bytes (addr + i) = bytes[i] := by
  rw [store, if_pos (by omega), Nat.add_sub_cancel_left, getD_eq_getElem _ _ inside]

end

/-- The bytes of a run, one address at a time. -/
theorem eq_store {mem' : Memory} (before : ∀ a < addr, mem' a = mem a)
    (inside : ∀ i (within : i < bytes.length), mem' (addr + i) = bytes[i])
    (behind : ∀ a, addr + bytes.length ≤ a → mem' a = mem a) : mem' = mem.store addr bytes := by
  funext a
  rcases Nat.lt_or_ge a addr with less | from_
  · rw [before a less, store_of_lt mem bytes less]
  rcases Nat.lt_or_ge a (addr + bytes.length) with within | past
  · obtain ⟨i, rfl⟩ := Nat.exists_eq_add_of_le from_
    rw [inside i (by omega), store_of_inside mem (by omega)]
  · rw [behind a past, store_of_ge mem past]

/-- Two stores side by side are one. -/
theorem store_append (mem : Memory) (addr : Nat) (first second : List UInt8) :
    (mem.store addr first).store (addr + first.length) second =
      mem.store addr (first ++ second) := by
  refine eq_store (fun a before => ?_) (fun i within => ?_) fun a behind => ?_
  · rw [store_of_lt _ second (by omega), store_of_lt mem first before]
  · rw [getElem_append]
    split_ifs with left
    · rw [store_of_lt _ second (by omega), store_of_inside mem left]
    · rw [length_append] at within
      rw [show addr + i = addr + first.length + (i - first.length) by omega,
        store_of_inside _ (by omega)]
  · rw [length_append] at behind
    rw [store_of_ge _ (by omega), store_of_ge mem (by omega)]

/-- Two runs do not meet. -/
def Apart (addr count addr' count' : Nat) : Prop := addr + count ≤ addr' ∨ addr' + count' ≤ addr

/-- Stores to ranges apart can be exchanged. -/
theorem store_comm (mem : Memory) (apart : Apart addr bytes.length addr' bytes'.length) :
    (mem.store addr bytes).store addr' bytes' = (mem.store addr' bytes').store addr bytes := by
  have outside {addr : Nat} {bytes : List UInt8} (mem : Memory) {a : Nat}
      (away : a < addr ∨ addr + bytes.length ≤ a) : mem.store addr bytes a = mem a :=
    away.elim (store_of_lt mem bytes) (store_of_ge mem)
  refine eq_store (fun a before => ?_) (fun i within => ?_) fun a behind => ?_
  · simp only [store, if_neg (Nat.not_le_of_lt before)]
  · rw [outside _ (by unfold Apart at apart; omega), store_of_inside mem within]
  · simp only [store, if_pos (show addr ≤ a by omega),
      getD_eq_default bytes (mem a) (show bytes.length ≤ a - addr by omega)]

theorem load_store_of_apart (apart : Apart addr count addr' bytes.length) :
    (mem.store addr' bytes).load addr count = mem.load addr count := by
  refine map_congr_left fun i within => ?_
  have inside := mem_range.mp within
  rcases apart with before | behind
  · exact store_of_lt mem bytes (by omega)
  · exact store_of_ge mem (by omega)

theorem load_store (mem : Memory) (addr : Nat) (bytes : List UInt8) :
    (mem.store addr bytes).load addr bytes.length = bytes := by
  refine ext_getElem (length_load _ _ _) fun i inside within => ?_
  simp only [load, getElem_map, getElem_range]
  exact store_of_inside mem within

theorem store_eq_self (there : mem.load addr bytes.length = bytes) :
    mem.store addr bytes = mem := by
  refine (eq_store (fun _ _ => rfl) (fun i within => ?_) fun _ _ => rfl).symm
  have same := congrArg (·[i]?) there
  simp only [load, getElem?_map, getElem?_range within, getElem?_eq_getElem within,
    Option.map_some, Option.some.injEq] at same
  exact same

theorem move_self (mem : Memory) (addr count : Nat) : mem.move addr addr count = mem :=
  store_eq_self (by rw [length_load])

end Memory

end FStack
