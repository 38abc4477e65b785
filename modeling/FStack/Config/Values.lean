import FStack.Config.Settings
import Mathlib.Data.List.Sort

/-!
# Values of the configuration file

The two kinds of value with a grammar of their own: the mask of lcores, from
which `parse_lcore_mask` reads the lcores of the processes, and comma-separated
lists of numbers and ranges, which `__parse_config_list` stores into a
fixed-size array.
-/

namespace FStack

open CText List

/-- `BITS_PER_HEX`. -/
def bitsPerHex : Nat := 4

/-- `xdigit2val`. -/
def xdigit2val (c : Char) : Nat :=
  if isDigit c then c.toNat - '0'.toNat
  else if isUpper c then c.toNat - 'A'.toNat + 10
  else c.toNat - 'a'.toNat + 10

/-- The inner loop of `parse_lcore_mask`: the set bits of one digit, whose first
bit is bit `idx` of the mask. -/
def digitLcores (idx val : Nat) : List UInt16 :=
  (range bitsPerHex).filterMap fun j =>
    if idx + j < rteMaxLcore ∧ val.testBit j then some (UInt16.ofNat (idx + j)) else none

/-- The loops of `parse_lcore_mask` over the digits, last digit first: the lcores
found, or none where a character is not accepted. Digits beyond the last lcore
must be zero. -/
def maskLcores : Nat → List Char → Option (List UInt16)
  | _, [] => some []
  | idx, c :: rest =>
    if idx < rteMaxLcore then
      if isXdigit c then
        (maskLcores (idx + bitsPerHex) rest).map (digitLcores idx (xdigit2val c) ++ ·)
      else none
    else if (c :: rest).all (· = '0') then some []
    else none

/-- A digit gives lcores of its own four places only. -/
theorem mem_digitLcores {idx val : Nat} {lcore : UInt16} (member : lcore ∈ digitLcores idx val) :
    idx ≤ lcore.toNat ∧ lcore.toNat < idx + bitsPerHex := by
  obtain ⟨j, inside, found⟩ := mem_filterMap.mp member
  have small : j < bitsPerHex := mem_range.mp inside
  split at found
  case isTrue bounded =>
    obtain rfl := Option.some.inj found
    have fits : idx + j < 2 ^ 16 := by
      have limit := bounded.1
      simp only [rteMaxLcore] at limit
      omega
    rw [UInt16.toNat_ofNat']
    omega
  case isFalse => cases found

theorem digitLcores_ascending (idx val : Nat) :
    (digitLcores idx val).Pairwise fun first second => first.toNat < second.toNat := by
  refine List.Pairwise.filterMap _ ?_ pairwise_lt_range
  intro j j' less lcore found lcore' found'
  split at found <;> cases found
  split at found' <;> cases found'
  rename_i bounded bounded'
  simp only [rteMaxLcore] at bounded bounded'
  rw [UInt16.toNat_ofNat', UInt16.toNat_ofNat']
  omega

variable {lcores : List UInt16} {coremask : String}

/-- The lcores of a mask come in ascending order. -/
theorem maskLcores_ascending {idx : Nat} {digits : List Char}
    (found : maskLcores idx digits = some lcores) :
    (lcores.Pairwise fun first second => first.toNat < second.toNat) ∧
      ∀ lcore ∈ lcores, idx ≤ lcore.toNat := by
  induction digits generalizing idx lcores with
  | nil =>
    obtain rfl := Option.some.inj found
    simp
  | cons c rest ih =>
    unfold maskLcores at found
    split_ifs at found
    · obtain ⟨others, foundRest, rfl⟩ := Option.map_eq_some_iff.mp found
      obtain ⟨ascending, above⟩ := ih foundRest
      refine ⟨pairwise_append.mpr ⟨digitLcores_ascending _ _, ascending, ?_⟩, ?_⟩
      · intro lcore member lcore' member'
        have first := (mem_digitLcores member).2
        have second := above lcore' member'
        omega
      · intro lcore member
        rcases mem_append.mp member with member | member
        · exact (mem_digitLcores member).1
        · have second := above lcore member
          omega
    · obtain rfl := Option.some.inj found
      simp

/-- The characters of the mask without blanks around them and without `0x`. -/
def stripMask (coremask : List Char) : List Char :=
  let text := coremask.dropWhile isBlank
  let text :=
    match text with
    | '0' :: 'x' :: rest => rest
    | '0' :: 'X' :: rest => rest
    | text => text
  (text.reverse.dropWhile isBlank).reverse

/-- The mask of a single lcore: `"%llx%s"` with the bit and the zeros behind it. -/
def lcoreMaskText (idx : Nat) : String :=
  String.ofList ((Nat.toDigits 16 (1 <<< (idx % 4))) ++ replicate (idx / 4) '0')

/-- What `parse_lcore_mask` computes from the mask alone. -/
def coremaskLcores (coremask : String) : Option (List UInt16) :=
  let text := stripMask coremask.toList
  if text = [] then none else maskLcores 0 text.reverse

/-- `parse_lcore_mask`: the process must have an lcore of its own. -/
def parseLcoreMask (cfg : FfConfig) (coremask : String) : ConfigM FfConfig :=
  match coremaskLcores coremask with
  | none => .error .rejected
  | some procLcore =>
    -- `proc_id` is compared as an unsigned number, so a negative one is too large.
    if cfg.procId < 0 ∨ (procLcore.length : Int) ≤ cfg.procId then .error .rejected
    else
      .ok
        { cfg with
          procMask := (procLcore[cfg.procId.toNat]?).map fun lcore => lcoreMaskText lcore.toNat
          settings :=
            { cfg.settings with procLcore := some procLcore, nbProcs := procLcore.length } }

/-- What an accepted mask does to the configuration, but for `proc_mask`. -/
theorem parseLcoreMask_ok {cfg cfg' : FfConfig} (done : parseLcoreMask cfg coremask = .ok cfg') :
    ∃ procLcore, coremaskLcores coremask = some procLcore ∧ cfg'.procId = cfg.procId ∧
      cfg'.procType = cfg.procType ∧ cfg'.settings =
        { cfg.settings with procLcore := some procLcore, nbProcs := procLcore.length } := by
  rw [parseLcoreMask] at done
  cases found : coremaskLcores coremask with
  | none =>
    rw [found] at done
    cases done
  | some procLcore =>
    simp only [found] at done
    split_ifs at done
    obtain rfl := Except.ok.inj done
    exact ⟨procLcore, rfl, rfl, rfl, rfl⟩

theorem coremaskLcores_ascending (found : coremaskLcores coremask = some lcores) :
    lcores.Pairwise fun first second => first.toNat < second.toNat := by
  unfold coremaskLcores at found
  simp only at found
  split_ifs at found
  exact (maskLcores_ascending found).1

/-- `__strstrip`. -/
def strstrip (text : List Char) : List Char :=
  ((text.dropWhile (· = ' ')).reverse.dropWhile (· = ' ')).reverse

/-- `strtol` of a token that must be a number as a whole. -/
def listNumber (text : List Char) : ConfigM Int :=
  let found := strtol (strstrip text)
  if found.2 = [] then .ok found.1 else .error .rejected

/-- A part of `__parse_config_list`. Its state are the elements stored so far, last one first; they
stay in the array when the list is refused. -/
abbrev ListM := EStateM ConfigFault (List UInt16)

/-- One store of `__parse_config_list`. The test in front of it lets one element too many through. -/
def storeElement (maxEle : Nat) (value : Int) : ListM Unit := fun stored =>
  if maxEle < stored.length then .error .rejected stored
  else .ok () (UInt16.ofInt value :: stored)

/-- The loop over a range, from the `int` variable `j` to `rv`. It stores an
element in each turn, so `room` turns are enough. -/
def storeRange (maxEle : Nat) (rv : Int) : Nat → Int → ListM Unit
  | 0, _ => throw .rejected
  | room + 1, j =>
    if rv < j then pure ()
    else do
      storeElement maxEle j
      if j = intMax then throw .undefined else storeRange maxEle rv room (j + 1)

/-- The loop body of `__parse_config_list` for one token. -/
def storeToken (maxEle : Nat) (token : List Char) : ListM Unit :=
  match strchr '-' token with
  | none => do
      let value ← ofExcept (listNumber token)
      storeElement maxEle value
  | some (lower, upper) => do
      let lv ← ofExcept (listNumber lower)
      let rv ← ofExcept (listNumber upper)
      storeRange maxEle rv (maxEle + 2) (toInt lv)

/-- `sizeof(input)` and the number of tokens in `__parse_config_list`. -/
def listInputSize : Nat := 4096

def listMaxTokens : Nat := 128

/-- The loops of `__parse_config_list`. A value that fills the input buffer leaves it without a
terminator. -/
def storeList (maxEle : Nat) (value : String) : ListM Unit :=
  if listInputSize ≤ byteSize value.toList + 1 then throw .undefined
  else (strsplit ',' listMaxTokens value.toList).forM (storeToken maxEle)

/-- `__parse_config_list`: the elements it leaves in front of the array, sorted;
none of them, and no size either, where the list is empty. -/
def parseConfigList (maxEle : Nat) (value : String) : ConfigM (List UInt16) :=
  match (storeList maxEle value).run [] with
  | .ok _ stored => .ok (stored.insertionSort (· ≤ ·))
  | .error fault _ => .error fault

/-- `parse_port_lcore_list`. An empty list leaves the array as it is, and the size
at that of the array. -/
def parsePortLcoreList (cfg : PortCfg) (value : String) : ConfigM PortCfg := do
  let cores ← parseConfigList dpdkMaxLcore value
  if fits : cores.length ≤ dpdkMaxLcore then
    if cores = [] then .ok { cfg with nbLcores := dpdkMaxLcore, inside := Nat.le_refl _ }
    else
      .ok
        { cfg with
          nbLcores := cores.length
          lcoreList := cores ++ cfg.lcoreList.drop cores.length
          sized := by
            rw [length_append, length_drop, cfg.sized]
            omega
          inside := fits }
  else .error .undefined

/-- The port lists, which are read into an uninitialised array. -/
def parsePortIds (value : String) : ConfigM (List UInt16) := do
  let ports ← parseConfigList rteMaxEthports value
  if rteMaxEthports < ports.length ∨ ports = [] then .error .undefined
  else .ok ports

/-- `parse_port_list`. -/
def parsePortList (settings : Settings) (value : String) : ConfigM Settings := do
  let ports ← parsePortIds value
  .ok
    { settings with
      portidList := ports
      nbPorts := ports.length
      maxPortid := ports.getLastD 0 }

/-- `parse_port_slave_list`. -/
def parsePortSlaveList (cfg : PortCfg) (value : String) : ConfigM PortCfg := do
  let ports ← parsePortIds value
  .ok { cfg with slavePortidList := ports, nbSlaves := ports.length }

end FStack
