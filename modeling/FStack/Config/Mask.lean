import FStack.Config.Values
import Mathlib.Data.Nat.Digits.Defs

/-!
# What an lcore mask denotes

`parse_lcore_mask` reads hexadecimal digits from the last one on, four bits at a time. It accepts
the numerals of the numbers below `2 ^ RTE_MAX_LCORE`, and what it stores are the set bits of the
number.
-/

namespace FStack

open CText List UInt16

variable {c : Char}

/-- The number that hexadecimal digits denote, last digit first. -/
def hexValue (digits : List Char) : Nat := Nat.ofDigits 16 (digits.map xdigit2val)

theorem xdigit2val_lt (hex : isXdigit c = true) : xdigit2val c < 16 := by
  simp only [isXdigit, isDigit, Char.le_def, UInt32.le_iff_toNat_le] at hex
  simp only [xdigit2val, isDigit, isUpper, Char.le_def, UInt32.le_iff_toNat_le]
  split_ifs <;> simp at * <;> omega

theorem xdigit2val_eq_zero_iff : xdigit2val c = 0 ↔ c = '0' := by
  refine ⟨fun zero => ?_, fun zero => zero ▸ rfl⟩
  simp only [xdigit2val] at zero
  split_ifs at zero with digit
  have bounds := isDigit_iff.mp digit
  exact Char.toNat_inj.mp (Nat.le_antisymm (Nat.le_of_sub_eq_zero zero) bounds.1)

theorem hexValue_cons (c : Char) (rest : List Char) :
    hexValue (c :: rest) = xdigit2val c + 16 * hexValue rest := Nat.ofDigits_cons

variable {digits : List Char}

theorem hexValue_eq_zero_iff : hexValue digits = 0 ↔ ∀ c ∈ digits, c = '0' := by
  induction digits with
  | nil => simp [hexValue]
  | cons c rest ih =>
    rw [hexValue_cons, forall_mem_cons, ← ih, ← xdigit2val_eq_zero_iff]
    omega

/-- The bits of a number with one more digit. -/
theorem testBit_digit {val : Nat} (small : val < 16) (rest bit : Nat) :
    (val + 16 * rest).testBit bit =
      if bit < bitsPerHex then val.testBit bit else rest.testBit (bit - bitsPerHex) := by
  rw [Nat.add_comm]
  exact Nat.testBit_two_pow_mul_add rest (show val < 2 ^ bitsPerHex from small) bit

/-- The lcores of a number of `count` digits whose first bit is bit `idx` of the mask. -/
def bitLcores (idx count value : Nat) : List UInt16 :=
  ((range (bitsPerHex * count)).filter value.testBit).map fun bit => ofNat (idx + bit)

theorem digitLcores_eq {idx : Nat} (inside : idx + bitsPerHex ≤ rteMaxLcore) (val : Nat) :
    digitLcores idx val = bitLcores idx 1 val := by
  rw [bitLcores, ← filterMap_eq_map, filterMap_filter]
  refine filterMap_congr fun j member => ?_
  have room : idx + j < rteMaxLcore := by
    have := mem_range.mp member
    omega
  simp only [room, true_and, Function.comp_apply]

/-- The lowest hexadecimal digit of a mask gives the first four lcores. -/
theorem bitLcores_digit {val : Nat} (small : val < 16) (idx count rest : Nat) :
    bitLcores idx (1 + count) (val + 16 * rest) =
      bitLcores idx 1 val ++ bitLcores (idx + bitsPerHex) count rest := by
  rw [bitLcores, Nat.mul_add, range_add, filter_append, map_append, filter_map, map_map]
  congr 1
  · refine congrArg (map _) (filter_congr fun bit member => ?_)
    rw [testBit_digit small, if_pos (by simpa using member)]
  · have above : (val + 16 * rest).testBit ∘ (bitsPerHex * 1 + ·) = rest.testBit := by
      funext bit
      rw [Function.comp_apply, testBit_digit small, if_neg (by omega), Nat.mul_one,
        Nat.add_sub_cancel_left]
    rw [above]
    exact map_congr_left fun bit _ => congrArg ofNat (Nat.add_assoc idx bitsPerHex bit).symm

/-- The digits above bit `idx` are accepted when the number they denote has no more bits than are
left, and its bits are the lcores found. -/
theorem maskLcores_eq {idx count : Nat} (left : idx + bitsPerHex * count = rteMaxLcore)
    (digits : List Char) :
    maskLcores idx digits =
      if digits.all isXdigit ∧ hexValue digits < 16 ^ count then
        some (bitLcores idx count (hexValue digits))
      else none := by
  induction digits generalizing idx count with
  | nil => simp [maskLcores, hexValue, bitLcores]
  | cons c rest ih =>
    cases count with
    | zero =>
      have zeros : (c :: rest).all isXdigit ∧ hexValue (c :: rest) < 16 ^ 0 ↔
          (c :: rest).all (· = '0') := by
        rw [pow_zero, Nat.lt_one_iff, hexValue_eq_zero_iff]
        simp only [all_eq_true, decide_eq_true_eq, and_iff_right_iff_imp]
        exact fun zero c member => zero c member ▸ rfl
      rw [maskLcores, if_neg (by omega), if_congr zeros rfl rfl]
      rfl
    | succ count =>
      simp only [bitsPerHex] at left
      have further := ih (show idx + 4 + 4 * count = rteMaxLcore by omega)
      rw [maskLcores, if_pos (by omega), bitsPerHex, further, hexValue_cons, all_cons]
      cases hex : isXdigit c with
      | false => simp
      | true =>
        have small := xdigit2val_lt hex
        have fits : xdigit2val c + 16 * hexValue rest < 16 ^ (count + 1) ↔
            hexValue rest < 16 ^ count := by
          omega
        rw [if_congr (and_congr_right' fits) rfl rfl, apply_ite (Option.map _),
          digitLcores_eq (by rw [bitsPerHex]; omega), Nat.add_comm count, bitLcores_digit small]
        rfl

theorem toDigits_mul_pow {number : Nat} (positive : 0 < number) (zeros : Nat) :
    Nat.toDigits 16 (16 ^ zeros * number) = Nat.toDigits 16 number ++ replicate zeros '0' := by
  induction zeros with
  | zero => simp
  | succ zeros ih =>
    rw [pow_succ', Nat.mul_assoc, replicate_succ', ← append_assoc, ← ih]
    exact (Nat.toDigits_append_toDigits (d := 0) (by decide) (by positivity) (by decide)).symm

theorem lcoreMaskText_eq (idx : Nat) :
    lcoreMaskText idx = String.ofList (Nat.toDigits 16 (2 ^ idx)) := by
  have split : 2 ^ idx = 16 ^ (idx / 4) * 2 ^ (idx % 4) := by
    rw [show 16 = 2 ^ 4 from rfl, ← pow_mul, ← pow_add, Nat.div_add_mod]
  rw [lcoreMaskText, Nat.one_shiftLeft, split, toDigits_mul_pow (by positivity)]

/-- The set bits of a number of `count` bits are below `count`. -/
theorem lt_two_pow_iff (value count : Nat) :
    value < 2 ^ count ↔ ∀ bit, value.testBit bit = true → bit < count := by
  refine ⟨fun small bit set => ?_, fun below => Nat.lt_pow_two_of_testBit value fun bit high => ?_⟩
  · exact (Nat.pow_lt_pow_iff_right (by decide)).mp ((Nat.ge_two_pow_of_testBit set).trans_lt small)
  · exact Bool.eq_false_of_not_eq_true fun set => Nat.not_le_of_lt (below bit set) high

/-- The positions of the set bits of a mask, in ascending order. -/
def setBits (digits : List Char) : List Nat :=
  (range rteMaxLcore).filter (hexValue digits.reverse).testBit

/-- A nonempty numeral of hexadecimal digits without a set bit at `RTE_MAX_LCORE` or above. -/
def IsLcoreMask (digits : List Char) : Prop :=
  digits ≠ [] ∧ (∀ c ∈ digits, isXdigit c = true) ∧
    ∀ bit, (hexValue digits.reverse).testBit bit = true → bit < rteMaxLcore

/-- A mask is accepted exactly if its text is one, and gives its set bits. -/
theorem coremaskLcores_eq_some_iff {coremask : String}
    (stripped : stripMask coremask.toList = digits) (procLcore : List UInt16) :
    coremaskLcores coremask = some procLcore ↔
      IsLcoreMask digits ∧ (setBits digits).map ofNat = procLcore := by
  have whole := maskLcores_eq (show 0 + bitsPerHex * 32 = rteMaxLcore from rfl) digits.reverse
  have bits : bitLcores 0 32 (hexValue digits.reverse) = (setBits digits).map ofNat :=
    map_congr_left fun bit _ => congrArg ofNat (Nat.zero_add bit)
  have accepted : (digits.reverse.all isXdigit = true ∧ hexValue digits.reverse < 16 ^ 32) ∧
      digits ≠ [] ↔ IsLcoreMask digits := by
    rw [all_reverse, all_eq_true, show 16 ^ 32 = 2 ^ rteMaxLcore by norm_num [rteMaxLcore],
      lt_two_pow_iff, and_comm, IsLcoreMask]
  rw [← accepted, coremaskLcores, stripped, whole, bits]
  split_ifs with empty numeral
  · simp only [empty, ne_eq, not_true, and_false, false_and]
  · simp only [numeral, empty, ne_eq, not_false_eq_true, true_and, Option.some.injEq]
  · simp only [numeral, false_and]

/-- A mask is accepted exactly when it is, between blanks and behind an optional `0x`, a numeral
with no set bit at `RTE_MAX_LCORE` or above and with more set bits than `proc_id`. The lcores are
the positions of its set bits, and the mask of the process has the bit of its own lcore alone. -/
theorem parseLcoreMask_eq_ok_iff (cfg cfg' : FfConfig) (coremask : String) :
    let lcores := setBits (stripMask coremask.toList)
    parseLcoreMask cfg coremask = .ok cfg' ↔
      IsLcoreMask (stripMask coremask.toList) ∧ 0 ≤ cfg.procId ∧ cfg.procId < lcores.length ∧
      ∃ lcore, lcores[cfg.procId.toNat]? = some lcore ∧
        cfg' = { cfg with
          procMask := some (String.ofList (Nat.toDigits 16 (2 ^ lcore)))
          settings := { cfg.settings with
            procLcore := some (lcores.map ofNat), nbProcs := lcores.length } } := by
  generalize stripped : stripMask coremask.toList = digits
  intro lcores
  have denoted (procLcore : List UInt16) : coremaskLcores coremask = some procLcore ↔
      IsLcoreMask digits ∧ lcores.map ofNat = procLcore :=
    coremaskLcores_eq_some_iff stripped procLcore
  cases found : coremaskLcores coremask with
  | none =>
    simp only [parseLcoreMask, found, reduceCtorEq, false_iff]
    intro accepted
    have some_ := (denoted _).mpr ⟨accepted.1, rfl⟩
    rw [found] at some_
    cases some_
  | some procLcore =>
    obtain ⟨mask, rfl⟩ := (denoted procLcore).mp found
    simp only [parseLcoreMask, found, length_map, getElem?_map]
    split_ifs with outside
    · simp only [false_iff]
      omega
    · have inside : cfg.procId.toNat < lcores.length := by omega
      have small : lcores[cfg.procId.toNat] < rteMaxLcore :=
        mem_range.mp (mem_filter.mp (getElem_mem inside)).1
      have own : (ofNat lcores[cfg.procId.toNat]).toNat = lcores[cfg.procId.toNat] :=
        toNat_ofNat_of_lt' (small.trans (by decide))
      rw [not_or, Int.not_lt, Int.not_le] at outside
      simp only [getElem?_eq_getElem inside, mask, outside, true_and, Option.some.injEq,
        exists_eq_left', Option.map_some, own, lcoreMaskText_eq, Except.ok.injEq, @eq_comm _ cfg']

/-- A process with a negative number has no lcore, although its number is below that of the set
bits: the comparison is one of unsigned numbers. -/
theorem parseLcoreMask_negative :
    let cfg : FfConfig := { procId := -65536, procType := "auto" }
    parseLcoreMask cfg "1" = .error .rejected ∧ IsLcoreMask (stripMask "1".toList) ∧
      cfg.procId < (setBits (stripMask "1".toList)).length := by
  refine ⟨rfl, ⟨by decide, fun c there => ?_, (lt_two_pow_iff _ _).mp (by decide)⟩, by decide⟩
  rw [mem_singleton.mp (show c ∈ ['1'] from there)]
  rfl

end FStack
