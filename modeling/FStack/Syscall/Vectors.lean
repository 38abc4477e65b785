import FStack.Std.CText
import Mathlib.Algebra.BigOperators.Group.List.Basic

/-!
# The length of a scatter-gather vector

`ff_read` and `ff_write` refuse a buffer of more than `INT_MAX` bytes. `ff_readv` and `ff_writev`
add the lengths of their buffers in an `int` and refuse none.
-/

namespace FStack.Syscall

open CText List

/-- `EINVAL`. -/
def einval : Int := 22

/-- What the kernel is given of a vector: its entries and the residual. -/
structure Uio where
  iov : List UInt64
  resid : Int
deriving DecidableEq, Repr

/-- `kern_readv` or `kern_writev`: an error, or the number of bytes. -/
abbrev KernelCall := Uio → Except Int Int

/-- `ff_read`. -/
def ffRead (kernReadv : KernelCall) (nbytes : UInt64) : Except Int Int :=
  if intMax < nbytes.toNat then .error einval else kernReadv ⟨[nbytes], nbytes.toNat⟩

/-- `ff_write`. -/
def ffWrite (kernWritev : KernelCall) (nbytes : UInt64) : Except Int Int :=
  if intMax < nbytes.toNat then .error einval else kernWritev ⟨[nbytes], nbytes.toNat⟩

/-- The loop over the entries: the `int` becomes a `size_t` for the addition. -/
def iovLen (iov : List UInt64) : Int :=
  iov.foldl (fun len entry => toInt ((len + entry.toNat) % 2 ^ 64)) 0

/-- `ff_readv`. -/
def ffReadv (kernReadv : KernelCall) (iov : List UInt64) : Except Int Int :=
  kernReadv ⟨iov, iovLen iov⟩

/-- `ff_writev`. -/
def ffWritev (kernWritev : KernelCall) (iov : List UInt64) : Except Int Int :=
  kernWritev ⟨iov, iovLen iov⟩

/-- The bytes of all entries. -/
def iovTotal (iov : List UInt64) : Nat := (iov.map UInt64.toNat).sum

/-- The kernel is given the bytes of all entries, or the call is refused when they are too many. -/
def boundedCall (kernel : KernelCall) (iov : List UInt64) : Except Int Int :=
  if intMax < iovTotal iov then .error einval else kernel ⟨iov, iovTotal iov⟩

/-- An addition that stays below the largest `int` is exact. -/
theorem iovLen_of_small {iov : List UInt64} (small : iovTotal iov < 2147483648) :
    iovLen iov = iovTotal iov := by
  have loop (len : Nat) (fits : len + iovTotal iov < 2147483648) :
      iov.foldl (fun (len : Int) entry => toInt ((len + entry.toNat) % 2 ^ 64)) len =
        (len + iovTotal iov : Nat) := by
    clear small
    induction iov generalizing len with
    | nil => rfl
    | cons entry rest ih =>
      simp only [iovTotal, map_cons, sum_cons] at fits ih ⊢
      have exact_ : toInt (((len : Int) + entry.toNat) % 2 ^ 64) = (len + entry.toNat : Nat) := by
        rw [Int.emod_eq_of_lt (by omega) (by omega), ← Nat.cast_add, toInt_small (by omega)]
      rw [foldl_cons, exact_, ih _ (by omega), Nat.add_assoc]
  exact (loop 0 (by omega)).trans (by rw [Nat.zero_add])

/-- A single buffer is bounded; a vector is exactly when its bytes are. -/
theorem boundedCall_iff (iov : List UInt64) :
    (∀ kernel nbytes, ffRead kernel nbytes = boundedCall kernel [nbytes] ∧
      ffWrite kernel nbytes = boundedCall kernel [nbytes]) ∧
    ((∀ kernel, ffReadv kernel iov = boundedCall kernel iov ∧
      ffWritev kernel iov = boundedCall kernel iov) ↔ iovTotal iov ≤ intMax) := by
  refine ⟨fun kernel nbytes => ?_, fun bounded => ?_, fun small kernel => ?_⟩
  · simp [ffRead, ffWrite, boundedCall, iovTotal]
  · by_contra large
    have refused := (bounded fun _ => .ok 0).1
    rw [boundedCall, if_pos (Int.not_le.mp large)] at refused
    cases refused
  · have kept : iovLen iov = iovTotal iov := iovLen_of_small (by unfold intMax at small; omega)
    rw [boundedCall, if_neg (Int.not_lt.mpr small), ffReadv, ffWritev, kept]
    exact ⟨rfl, rfl⟩

/-- Two buffers of 2 GiB are one of no byte for the kernel. -/
theorem not_boundedCall_wrapped :
    let iov : List UInt64 := [2147483648, 2147483648]
    iovLen iov = 0 ∧ ¬ ∀ kernel, ffReadv kernel iov = boundedCall kernel iov := by
  refine ⟨by decide, fun bounded => ?_⟩
  cases bounded fun _ => .ok 0

end FStack.Syscall
