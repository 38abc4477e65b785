import Mathlib.Data.BitVec

/-!
# Windows of a stream of bits

A window is a word cut out of a stream of bits; it slides by one bit with a shift. `xorWhere`
XORs the rows of a table whose positions are set in a stream. It is linear in the stream, and
streams that follow one another give the XOR of what each of them gives.
-/

namespace FStack.Windows

variable {w : Nat}

/-- The `w` bits of a stream from `start` on, the first one most significant. -/
def window : (w : Nat) → (Nat → Bool) → Nat → BitVec w
  | 0, _, _ => 0#0
  | w + 1, bits, start => (window w bits start).concat (bits (start + w))

theorem getMsbD_window (bits : Nat → Bool) (start : Nat) {i : Nat} (inside : i < w) :
    (window w bits start).getMsbD i = bits (start + i) := by
  induction w with
  | zero => omega
  | succ w ih =>
    rw [window, BitVec.getMsbD_concat]
    rcases Nat.lt_succ_iff_lt_or_eq.mp inside with before | rfl
    · rw [if_pos before, ih before]
    · simp

/-- A word is a window if it has the window's bits. -/
theorem eq_window {word : BitVec w} {bits : Nat → Bool} {start : Nat}
    (same : ∀ i < w, word.getMsbD i = bits (start + i)) : word = window w bits start :=
  BitVec.eq_of_getMsbD_eq fun i inside => by rw [same i inside, getMsbD_window bits start inside]

/-- One shift takes a window to the next one. -/
theorem window_succ (positive : 0 < w) (bits : Nat → Bool) (start : Nat) :
    (if bits (start + w) then window w bits start <<< 1 ||| 1 else window w bits start <<< 1) =
      window w bits (start + 1) := by
  refine eq_window fun i inside => ?_
  have shifted : (window w bits start <<< 1).getMsbD i =
      if i + 1 < w then bits (start + 1 + i) else false := by
    rw [BitVec.getMsbD_shiftLeft]
    split_ifs with within
    · rw [getMsbD_window bits start within, Nat.add_assoc, Nat.add_comm 1 i]
    · exact BitVec.getMsbD_of_ge _ _ (by omega)
  have one : (1 : BitVec w).getMsbD i = decide (i + 1 = w) := by
    have low := BitVec.getMsbD_one (w := w) (i := i)
    rw [decide_eq_true positive, Bool.and_true] at low
    exact low.trans (decide_eq_decide.mpr (by omega))
  have last : i + 1 = w → start + 1 + i = start + w := by omega
  split_ifs with set
  · rw [BitVec.getMsbD_or, shifted, one]
    by_cases within : i + 1 < w
    · rw [if_pos within, decide_eq_false (by omega), Bool.or_false]
    · rw [if_neg within, decide_eq_true (by omega), last (by omega), set, Bool.false_or]
  · rw [shifted]
    split_ifs with within
    · rfl
    · rw [last (by omega)]
      exact (Bool.eq_false_of_not_eq_true set).symm

/-- The windows of a stream repeat as the stream does. -/
theorem window_congr {bits other : Nat → Bool} {start start' : Nat}
    (same : ∀ i < w, bits (start + i) = other (start' + i)) :
    window w bits start = window w other start' :=
  eq_window fun i inside => by rw [getMsbD_window bits start inside, same i inside]

/-- The XOR of the rows below `count` whose positions are set. -/
def xorWhere (set : Nat → Bool) (row : Nat → BitVec w) (count : Nat) : BitVec w :=
  ((List.range count).filter set).foldl (fun sum i => sum ^^^ row i) 0

theorem xorWhere_succ (set : Nat → Bool) (row : Nat → BitVec w) (count : Nat) :
    xorWhere set row (count + 1) =
      if set count then xorWhere set row count ^^^ row count else xorWhere set row count := by
  rw [xorWhere, List.range_succ, List.filter_append]
  split_ifs with here <;> simp [here, xorWhere]

theorem xorWhere_congr {set set' : Nat → Bool} {row row' : Nat → BitVec w} {count : Nat}
    (sameSet : ∀ i < count, set i = set' i) (sameRow : ∀ i < count, row i = row' i) :
    xorWhere set row count = xorWhere set' row' count := by
  induction count with
  | zero => rfl
  | succ count ih =>
    rw [xorWhere_succ, xorWhere_succ, sameSet count (by omega), sameRow count (by omega),
      ih (fun i below => sameSet i (by omega)) fun i below => sameRow i (by omega)]

/-- Linearity: the XOR of two streams gives the XOR of what they give. -/
theorem xorWhere_xor (set set' : Nat → Bool) (row : Nat → BitVec w) (count : Nat) :
    xorWhere (fun i => set i ^^ set' i) row count =
      xorWhere set row count ^^^ xorWhere set' row count := by
  induction count with
  | zero => exact BitVec.xor_self.symm
  | succ count ih =>
    rw [xorWhere_succ, xorWhere_succ, xorWhere_succ, ih]
    generalize xorWhere set row count = left
    generalize xorWhere set' row count = right
    cases set count <;> cases set' count
    · rfl
    · exact BitVec.xor_assoc left right (row count)
    · change left ^^^ right ^^^ row count = left ^^^ row count ^^^ right
      rw [BitVec.xor_assoc, BitVec.xor_assoc, BitVec.xor_comm right]
    · change left ^^^ right = left ^^^ row count ^^^ (right ^^^ row count)
      rw [BitVec.xor_comm right, BitVec.xor_assoc, ← BitVec.xor_assoc (row count),
        BitVec.xor_self, BitVec.zero_xor]

/-- The rows behind `first` go by themselves. -/
theorem xorWhere_add (set : Nat → Bool) (row : Nat → BitVec w) (first count : Nat) :
    xorWhere set row (first + count) =
      xorWhere set row first ^^^
        xorWhere (fun i => set (first + i)) (fun i => row (first + i)) count := by
  induction count with
  | zero => exact BitVec.xor_zero.symm
  | succ count ih =>
    rw [← Nat.add_assoc, xorWhere_succ, xorWhere_succ, ih]
    split_ifs
    · exact BitVec.xor_assoc _ _ _
    · rfl

end FStack.Windows
