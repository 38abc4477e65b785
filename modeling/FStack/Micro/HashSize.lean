import Mathlib.NumberTheory.Bertrand

/-!
# The size of a hash

`GetMaxPrimeNum` chooses the number of buckets of a `HashList`. For every candidate it divides up
to the root of the number it was called with, so it would take no prime up to that root. But there
is a prime between half the number and the number, which is beyond the root.
-/

namespace FStack.Micro

/-- The inner loop of `GetMaxPrimeNum`, with the `flag` it leaves. -/
def primeFlag (sqrtValue i : Nat) : Bool :=
  (List.range' 2 (sqrtValue - 1)).all fun k => i % k != 0

/-- The loop of `GetMaxPrimeNum`, from `i` on. -/
def maxPrimeLoop (sqrtValue : Nat) : Nat → Nat
  | 0 => 0
  | i + 1 => if primeFlag sqrtValue (i + 1) then i + 1 else maxPrimeLoop sqrtValue i

/-- `GetMaxPrimeNum`; the integer part of `sqrt` is exact. -/
def getMaxPrimeNum (num : Nat) : Nat := maxPrimeLoop num.sqrt num

/-- `_max` of a `HashList`, which only the constructor writes. -/
def hashListMax (max : Int) : Nat := getMaxPrimeNum (if max > 2 then max.toNat else 100000)

/-- `idx` in `HashInsert`, `HashFind` and `HashRemove`. -/
def hashIdx (max : Int) (hash : BitVec 32) : Nat := hash.toNat % hashListMax max

variable {sqrtValue i num p : Nat}

theorem primeFlag_iff : primeFlag sqrtValue i = true ↔ ∀ k, 2 ≤ k → k ≤ sqrtValue → ¬ k ∣ i := by
  unfold primeFlag
  simp only [List.all_eq_true, List.mem_range'_1, bne_iff_ne, Nat.dvd_iff_mod_eq_zero]
  refine forall_congr' fun k => ⟨fun clear two root => clear ⟨two, by omega⟩, fun clear inside => ?_⟩
  exact clear inside.1 (by omega)

theorem primeFlag_of_prime (prime : p.Prime) (beyond : sqrtValue < p) :
    primeFlag sqrtValue p = true := by
  refine primeFlag_iff.mpr fun k two root divides => ?_
  rcases prime.eq_one_or_self_of_dvd k divides with rfl | rfl <;> omega

theorem prime_of_primeFlag (two : 2 ≤ i) (inside : i ≤ num) (flag : primeFlag num.sqrt i = true) :
    i.Prime := by
  refine Nat.prime_def_le_sqrt.mpr ⟨two, fun k two' root => ?_⟩
  exact primeFlag_iff.mp flag k two' (root.trans (Nat.sqrt_le_sqrt inside))

/-- The loop ends at the first number whose flag is left. -/
theorem maxPrimeLoop_spec (positive : 0 < p) (inside : p ≤ i)
    (flag : primeFlag sqrtValue p = true) :
    p ≤ maxPrimeLoop sqrtValue i ∧ maxPrimeLoop sqrtValue i ≤ i ∧
      primeFlag sqrtValue (maxPrimeLoop sqrtValue i) = true := by
  induction i with
  | zero => omega
  | succ i ih =>
    unfold maxPrimeLoop
    split_ifs with here
    · exact ⟨inside, le_rfl, here⟩
    · have before : p ≤ i := by
        refine Nat.le_of_lt_succ (lt_of_le_of_ne inside ?_)
        rintro rfl
        exact here flag
      obtain ⟨least, most, flag⟩ := ih before
      exact ⟨least, most.trans (Nat.le_succ i), flag⟩

theorem sqrt_le_half (big : 2 < num) : num.sqrt ≤ num / 2 := by
  have square := num.sqrt_le
  rcases Nat.lt_or_ge num.sqrt 2 with small | large
  · omega
  · have double := Nat.mul_le_mul_right num.sqrt large
    omega

/-- The loop finds the greatest prime below its argument. -/
theorem isGreatest_getMaxPrimeNum (big : 2 < num) :
    IsGreatest {q : Nat | q.Prime ∧ q ≤ num} (getMaxPrimeNum num) ∧
      num ≤ 2 * getMaxPrimeNum num := by
  obtain ⟨p, prime, half, whole⟩ := Nat.exists_prime_lt_and_le_two_mul (num / 2) (by omega)
  have beyond : num.sqrt < p := (sqrt_le_half big).trans_lt half
  obtain ⟨least, most, flag⟩ : p ≤ getMaxPrimeNum num ∧ getMaxPrimeNum num ≤ num ∧
      primeFlag num.sqrt (getMaxPrimeNum num) = true :=
    maxPrimeLoop_spec prime.pos (by omega) (primeFlag_of_prime prime beyond)
  refine ⟨⟨⟨prime_of_primeFlag (prime.two_le.trans least) most flag, most⟩, ?_⟩, by omega⟩
  rintro q ⟨prime', inside⟩
  rcases Nat.lt_or_ge num.sqrt q with beyond' | within
  · exact (maxPrimeLoop_spec prime'.pos inside (primeFlag_of_prime prime' beyond')).1
  · exact within.trans (beyond.le.trans least)

/-- The buckets of a hash are counted modulo the largest prime up to the size that was asked for,
which is at least half of it. -/
theorem hashIdx_prime {max : Int} (big : 2 < max) :
    IsGreatest {q : Nat | q.Prime ∧ q ≤ max} (getMaxPrimeNum max.toNat) ∧
      max ≤ 2 * getMaxPrimeNum max.toNat ∧
      ∀ hash, hashIdx max hash = hash.toNat % getMaxPrimeNum max.toNat := by
  obtain ⟨size, rfl⟩ := Int.eq_ofNat_of_zero_le (by omega : 0 ≤ max)
  obtain ⟨greatest, half⟩ := isGreatest_getMaxPrimeNum (by omega : 2 < size)
  simp only [Nat.cast_le, Int.toNat_natCast]
  refine ⟨greatest, by omega, fun hash => ?_⟩
  rw [hashIdx, hashListMax, if_pos big, Int.toNat_natCast]

theorem hashIdx_prime_hundred :
    IsGreatest {q : Nat | q.Prime ∧ q ≤ (100 : Int)} (getMaxPrimeNum 100) ∧
      100 ≤ (2 * getMaxPrimeNum 100 : Int) ∧
      ∀ hash, hashIdx 100 hash = hash.toNat % getMaxPrimeNum 100 :=
  hashIdx_prime (by decide)

end FStack.Micro
