import Mathlib.Algebra.Ring.Nat
import Mathlib.Data.List.Basic

/-!
# Numbers and runs of bytes

Numbers of a fixed width as bytes, least significant first, and readers that take a
number or a run of bytes off the front of a sequence. What a writer puts in front of
anything else, the reader of the same width takes off again.
-/

namespace FStack.Bytes

/-- The low bytes of a number. -/
def leBytes : Nat → Nat → List UInt8
  | 0, _ => []
  | width + 1, value => UInt8.ofNat value :: leBytes width (value / 256)

/-- The number that a sequence of bytes stands for. -/
def leValue : List UInt8 → Nat
  | [] => 0
  | byte :: rest => byte.toNat + 256 * leValue rest

/-- A sequence of bytes whose length is known. -/
abbrev SizedBytes (count : Nat) := { bytes : List UInt8 // bytes.length = count }

/-- The first `count` bytes and the rest. -/
def splitBytes (count : Nat) (bytes : List UInt8) : Option (SizedBytes count × List UInt8) :=
  if enough : count ≤ bytes.length then
    some (⟨bytes.take count, List.length_take_of_le enough⟩, bytes.drop count)
  else none

/-- A number of `width` bytes, and the rest. -/
def readLe (width : Nat) (bytes : List UInt8) : Option (Nat × List UInt8) :=
  (splitBytes width bytes).map fun (first, rest) => (leValue first.1, rest)

@[simp] theorem length_leBytes (width value : Nat) : (leBytes width value).length = width := by
  induction width generalizing value with
  | zero => rfl
  | succ width ih => rw [leBytes, List.length_cons, ih]

/-- What is written in so many bytes is read back. -/
theorem leValue_leBytes {width value : Nat} (small : value < 256 ^ width) :
    leValue (leBytes width value) = value := by
  induction width generalizing value with
  | zero => exact (Nat.lt_one_iff.mp small).symm
  | succ width ih =>
    have smaller : value / 256 < 256 ^ width := by
      rw [Nat.div_lt_iff_lt_mul (by decide)]
      exact small
    rw [leBytes, leValue, ih smaller]
    exact Nat.mod_add_div value 256

@[simp] theorem splitBytes_append {count : Nat} (first rest : List UInt8)
    (length : first.length = count) :
    splitBytes count (first ++ rest) = some (⟨first, length⟩, rest) := by
  subst length
  simp [splitBytes]

theorem readLe_append {width value : Nat} (small : value < 256 ^ width) (rest : List UInt8) :
    readLe width (leBytes width value ++ rest) = some (value, rest) := by
  rw [readLe, splitBytes_append _ _ (length_leBytes width value)]
  exact congrArg (fun number => some (number, rest)) (leValue_leBytes small)

end FStack.Bytes
