import Mathlib.Algebra.Ring.Int.Defs
import Mathlib.Algebra.Ring.Nat
import Mathlib.Data.List.Basic
import Mathlib.Data.List.TakeWhile

/-!
# Text functions of the C library

The functions of `ctype.h`, `stdlib.h` and `string.h` that configuration code
reads numbers and lists with, on the characters of a string without its
terminator. A pointer into a string is the rest of the string from there on.
-/

namespace FStack.CText

open List

/-- `isblank`. -/
def isBlank (c : Char) : Bool := c = ' ' || c = '\t'

/-- `isspace`. -/
def isSpace (c : Char) : Bool := c = ' ' || (9 ≤ c.toNat && c.toNat ≤ 13)

/-- `isdigit`. -/
def isDigit (c : Char) : Bool := '0' ≤ c && c ≤ '9'

/-- `isupper`. -/
def isUpper (c : Char) : Bool := 'A' ≤ c && c ≤ 'Z'

/-- `isxdigit`. -/
def isXdigit (c : Char) : Bool := isDigit c || ('a' ≤ c && c ≤ 'f') || ('A' ≤ c && c ≤ 'F')

/-- The bytes of a text. -/
def byteSize (text : List Char) : Nat := (text.map Char.utf8Size).sum

theorem byteSize_append (front rest : List Char) :
    byteSize (front ++ rest) = byteSize front + byteSize rest := by
  simp [byteSize]

/-- Bounds of `long`. -/
def longMin : Int := -2 ^ 63

def longMax : Int := 2 ^ 63 - 1

/-- Largest `int`. -/
def intMax : Int := 2 ^ 31 - 1

/-- Conversion to `int`. -/
def toInt (x : Int) : Int := x.bmod (2 ^ 32)

theorem toInt_small {len : Nat} (small : len < 2147483648) : toInt len = len := by
  unfold toInt
  rw [Int.bmod_eq_of_le] <;> omega

/-- The number a run of decimal digits denotes. -/
def digitsValue (digits : List Char) : Nat :=
  digits.foldl (fun value c => value * 10 + (c.toNat - '0'.toNat)) 0

/-- An optional sign and what follows it; `true` is a minus. -/
def splitSign : List Char → Bool × List Char
  | '-' :: rest => (true, rest)
  | '+' :: rest => (false, rest)
  | text => (false, text)

/-- A signed decimal number behind white space, with the rest of the text. -/
def scanNumber (text : List Char) : Option (Int × List Char) :=
  let signed := splitSign (text.dropWhile isSpace)
  let digits := signed.2.takeWhile isDigit
  if digits = [] then none
  else
    let magnitude : Int := digitsValue digits
    some (if signed.1 then -magnitude else magnitude, signed.2.dropWhile isDigit)

/-- `strtol` in base 10: the value, saturated, and the end pointer. Without a
number the value is 0 and the end pointer the start. -/
def strtol (text : List Char) : Int × List Char :=
  match scanNumber text with
  | none => (0, text)
  | some (value, rest) => (max longMin (min longMax value), rest)

/-- `atoi`. -/
def atoi (text : List Char) : Int := toInt (strtol text).1

/-- `sscanf` with a format of literal text and `%d` behind it. -/
def sscanfInt (format text : List Char) : Option Int :=
  if format.isPrefixOf text then (scanNumber (text.drop format.length)).map fun found => toInt found.1
  else none

/-- `strchr`: the text in front of the first `c` and behind it. -/
def strchr (c : Char) (text : List Char) : Option (List Char × List Char) :=
  match text.dropWhile (· ≠ c) with
  | [] => none
  | _ :: rest => some (text.takeWhile (· ≠ c), rest)

variable {c : Char}

theorem strchr_of_not_mem {text : List Char} (free : c ∉ text) : strchr c text = none := by
  have all : text.dropWhile (· ≠ c) = [] := by
    rw [dropWhile_eq_nil_iff]
    exact fun other there => decide_eq_true fun same => free (same ▸ there)
  unfold strchr
  rw [all]

variable {front rest digits : List Char}

theorem strchr_append (free : c ∉ front) (rest : List Char) :
    strchr c (front ++ c :: rest) = some (front, rest) := by
  have passed : ∀ other ∈ front, decide (other ≠ c) = true :=
    fun other there => decide_eq_true fun same => free (same ▸ there)
  unfold strchr
  rw [dropWhile_append_of_pos passed, takeWhile_append_of_pos passed,
    dropWhile_cons_of_neg (by simp), takeWhile_cons_of_neg (by simp), append_nil]

/-- What is free of a character is not longer than what stands in front of it. -/
theorem length_le_of_strchr {behind found : List Char} (free : c ∉ front)
    (there : strchr c (front ++ behind) = some (found, rest)) : front.length ≤ found.length := by
  have passed : ∀ other ∈ front, decide (other ≠ c) = true :=
    fun other there => decide_eq_true fun same => free (same ▸ there)
  unfold strchr at there
  split at there
  · cases there
  · cases there
    rw [takeWhile_append_of_pos passed, length_append]
    exact Nat.le_add_right _ _

theorem isDigit_iff : isDigit c = true ↔ 48 ≤ c.toNat ∧ c.toNat ≤ 57 := by
  simp only [isDigit, Bool.and_eq_true, decide_eq_true_eq]
  exact Iff.rfl

theorem isSpace_of_isDigit (digit : isDigit c = true) : isSpace c = false := by
  rw [isDigit_iff] at digit
  simp only [isSpace, Bool.or_eq_false_iff, Bool.and_eq_false_iff, decide_eq_false_iff_not]
  refine ⟨?_, by omega⟩
  rintro rfl
  exact absurd digit.1 (by decide)

/-- A text that begins with a digit has no sign to be split off. -/
theorem splitSign_of_isDigit (digit : isDigit c = true) (rest : List Char) :
    splitSign (c :: rest) = (false, c :: rest) := by
  unfold splitSign
  split
  next same =>
    cases same
    cases digit
  next same =>
    cases same
    cases digit
  next => rfl

section

variable (nonempty : digits ≠ []) (decimal : ∀ c ∈ digits, isDigit c = true)
  (ends : ∀ c ∈ rest.head?, isDigit c = false) (small : digitsValue digits < 2147483648)

include nonempty decimal ends small

/-- A number in front of something that is no digit. -/
theorem strtol_append : strtol (digits ++ rest) = ((digitsValue digits : Int), rest) := by
  have stops : rest.takeWhile isDigit = [] ∧ rest.dropWhile isDigit = rest := by
    cases rest with
    | nil => exact ⟨rfl, rfl⟩
    | cons c rest =>
      have other : ¬ isDigit c = true := by
        rw [ends c rfl]
        decide
      exact ⟨takeWhile_cons_of_neg other, dropWhile_cons_of_neg other⟩
  have signed : splitSign ((digits ++ rest).dropWhile isSpace) = (false, digits ++ rest) := by
    obtain ⟨first, more, rfl⟩ := exists_cons_of_ne_nil nonempty
    have digit := decimal first mem_cons_self
    rw [cons_append, dropWhile_cons_of_neg (by rw [isSpace_of_isDigit digit]; decide),
      splitSign_of_isDigit digit]
  have bounded : max longMin (min longMax (digitsValue digits : Int)) = digitsValue digits := by
    unfold longMin longMax
    omega
  unfold strtol scanNumber
  rw [signed]
  dsimp only
  rw [takeWhile_append_of_pos decimal, dropWhile_append_of_pos decimal, stops.1, stops.2,
    append_nil, if_neg nonempty]
  exact Prod.ext bounded rfl

theorem atoi_append : atoi (digits ++ rest) = digitsValue digits := by
  rw [atoi, strtol_append nonempty decimal ends small, toInt_small small]

end

/-- Splitting at a delimiter into at most `maxTokens` tokens. The last token that
fits is not cut off at the delimiter behind it, and an empty remainder is no
token. -/
def strsplit (delim : Char) : Nat → List Char → List (List Char)
  | _, [] => []
  | 0, _ :: _ => []
  | 1, c :: rest => [if c = delim then [] else c :: rest]
  | maxTokens + 2, c :: rest =>
    match strchr delim (c :: rest) with
    | none => [c :: rest]
    | some (token, others) => token :: strsplit delim (maxTokens + 1) others

/-- `strcasecmp`, as a test for equality. -/
def strcaseEq (first second : String) : Bool :=
  first.toList.map Char.toLower = second.toList.map Char.toLower

end FStack.CText
