import FStack.Config.Values
import FStack.Std.Fallible
import Mathlib.Data.Int.Range

/-!
# What a list of numbers denotes

`__parse_config_list` stores the numbers of a list one after the other, those of a range in a loop
of their own. Its test for the size of the array lets one number too many through, and a list
without a number leaves the array and its size as they were.
-/

namespace FStack

open CText Fallible Int List UInt16

/-- The numbers that the loop for a token stores, and whether its variable overflows behind them. -/
def tokenNumbers (token : List Char) : ConfigM (List Int × Bool) :=
  match strchr '-' token with
  | none => do
      let value ← listNumber token
      .ok ([value], false)
  | some (lower, upper) => do
      let lv ← listNumber lower
      let rv ← listNumber upper
      .ok (range (toInt lv) (min rv intMax + 1), intMax ≤ rv)

/-- The numbers of the tokens up to the one at which the loop ends, and the fault there. -/
def readNumbers : List (List Char) → List Int × Option ConfigFault
  | [] => ([], none)
  | token :: rest =>
    match tokenNumbers token with
    | .ok (numbers, false) => (numbers ++ (readNumbers rest).1, (readNumbers rest).2)
    | .ok (numbers, true) => (numbers, some .undefined)
    | .error fault => ([], some fault)

/-- What is in the array when numbers have been stored behind others, as far as the test lets
them. -/
def filled (maxEle : Nat) (stored : List UInt16) (numbers : List Int) : List UInt16 :=
  ((numbers.take (maxEle + 1 - stored.length)).map ofInt).reverse ++ stored

/-- A loop that stores numbers, and ends with a fault or without one if there is room for them. -/
def storeNumbers (maxEle : Nat) (numbers : List Int) (fault : Option ConfigFault) : ListM Unit :=
  fun stored =>
    if maxEle + 1 < stored.length + numbers.length then
      .error .rejected (filled maxEle stored numbers)
    else
      match fault with
      | none => .ok () (filled maxEle stored numbers)
      | some fault => .error fault (filled maxEle stored numbers)

theorem bind_apply (first : ListM Unit) (next : Unit → ListM Unit) (stored : List UInt16) :
    (first >>= next) stored =
      match first stored with
      | .ok _ stored => next () stored
      | .error fault stored => .error fault stored := by
  change EStateM.bind first next stored = _
  unfold EStateM.bind
  cases first stored <;> rfl

section Loops

variable {maxEle : Nat} {stored : List UInt16} {numbers : List Int}

theorem storeNumbers_full (fault : Option ConfigFault)
    (full : maxEle + 1 < stored.length + numbers.length) :
    storeNumbers maxEle numbers fault stored = .error .rejected (filled maxEle stored numbers) :=
  if_pos full

theorem storeNumbers_room (fault : Option ConfigFault)
    (room : stored.length + numbers.length ≤ maxEle + 1) :
    storeNumbers maxEle numbers fault stored =
      match fault with
      | none => .ok () (filled maxEle stored numbers)
      | some fault => .error fault (filled maxEle stored numbers) :=
  if_neg (not_lt.mpr room)

/-- Nothing is left to be stored. -/
theorem storeNumbers_nil (fault : Option ConfigFault) (fits : stored.length ≤ maxEle + 1) :
    storeNumbers maxEle [] fault stored =
      match fault with
      | none => .ok () stored
      | some fault => .error fault stored := by
  rw [storeNumbers_room fault fits, filled, take_nil]
  rfl

theorem filled_room (room : stored.length + numbers.length ≤ maxEle + 1) :
    filled maxEle stored numbers = (numbers.map ofInt).reverse ++ stored := by
  rw [filled, take_of_length_le (by omega)]

theorem length_filled (room : stored.length + numbers.length ≤ maxEle + 1) :
    (filled maxEle stored numbers).length = stored.length + numbers.length := by
  rw [filled_room room]
  simp [Nat.add_comm]

/-- Numbers behind others. -/
theorem storeNumbers_append (numbers more : List Int) (fault : Option ConfigFault)
    (fits : stored.length ≤ maxEle + 1) :
    (storeNumbers maxEle numbers none >>= fun _ => storeNumbers maxEle more fault) stored =
      storeNumbers maxEle (numbers ++ more) fault stored := by
  rw [bind_apply]
  by_cases full : maxEle + 1 < stored.length + numbers.length
  · rw [storeNumbers_full _ full, storeNumbers_full _ (by rw [length_append]; omega), filled,
      filled, take_append_of_le_length (by omega)]
  · have room := not_lt.mp full
    have append : filled maxEle (filled maxEle stored numbers) more =
        filled maxEle stored (numbers ++ more) := by
      rw [filled, length_filled room, filled_room room, filled, take_append,
        take_of_length_le (l := numbers) (by omega), map_append, reverse_append, append_assoc,
        Nat.sub_add_eq]
    rw [storeNumbers_room none room]
    unfold storeNumbers
    dsimp only
    rw [length_filled room, append, length_append, Nat.add_assoc]

/-- Storing one element is storing a list of one number. -/
theorem storeElement_eq (number : Int) (fits : stored.length ≤ maxEle + 1) :
    storeElement maxEle number stored = storeNumbers maxEle [number] none stored := by
  unfold storeElement
  split_ifs with full
  · rw [storeNumbers_full none (show _ < stored.length + 1 by omega), filled,
      show maxEle + 1 - stored.length = 0 by omega]
    rfl
  · have room : stored.length + [number].length ≤ maxEle + 1 := by
      rw [length_singleton]
      omega
    rw [storeNumbers_room none room, filled_room room]
    rfl

theorem intRange_cons {j rv : Int} (inside : j ≤ rv) :
    Int.range j (rv + 1) = j :: Int.range (j + 1) (rv + 1) := by
  rw [Int.range, show (rv + 1 - j).toNat = (rv + 1 - (j + 1)).toNat + 1 by omega, range_succ_eq_map,
    map_cons, map_map, Nat.cast_zero, add_zero]
  refine congrArg (cons j) (map_congr_left fun i _ => ?_)
  rw [Function.comp_apply, Nat.cast_succ, add_assoc, add_comm 1]

/-- The loop over a range stores its numbers up to the largest `int`. -/
theorem storeRange_eq (rv : Int) {room : Nat} (fits : stored.length ≤ maxEle + 1)
    (enough : maxEle + 1 < room + stored.length) {j : Int} (int : j ≤ intMax) :
    storeRange maxEle rv room j stored =
      storeNumbers maxEle (range j (min rv intMax + 1))
        (if intMax ≤ rv then some .undefined else none) stored := by
  induction room generalizing j stored with
  | zero => omega
  | succ room ih =>
    rw [storeRange]
    by_cases ended : rv < j
    · rw [if_pos ended, if_neg (by omega), Int.range, Int.toNat_of_nonpos (by omega)]
      exact (storeNumbers_nil none fits).symm
    rw [if_neg ended, intRange_cons (by omega), ← singleton_append,
      ← storeNumbers_append _ _ _ fits, bind_apply, bind_apply, storeElement_eq j fits]
    by_cases full : maxEle + 1 < stored.length + [j].length
    · rw [storeNumbers_full none full]
    · have length := length_filled (not_lt.mp full)
      rw [storeNumbers_room none (not_lt.mp full)]
      dsimp only
      rw [length_singleton] at length
      by_cases last : j = intMax
      · subst last
        rw [if_pos rfl, if_pos (not_lt.mp ended), Int.range, Int.toNat_of_nonpos (by omega)]
        exact (storeNumbers_nil (some _) (by rw [length]; simpa using full)).symm
      · rw [if_neg last]
        exact ih (by rw [length]; simpa using full) (by omega) (by omega)

/-- Storing a token is storing the numbers that it stands for. -/
theorem storeToken_eq (token : List Char) (fits : stored.length ≤ maxEle + 1) :
    storeToken maxEle token stored =
      match tokenNumbers token with
      | .ok (numbers, overflows) =>
        storeNumbers maxEle numbers (if overflows then some .undefined else none) stored
      | .error fault => .error fault stored := by
  unfold storeToken tokenNumbers
  cases strchr '-' token with
  | none =>
    dsimp only
    cases listNumber token with
    | error _ => rfl
    | ok value => exact storeElement_eq value fits
  | some bounds =>
    dsimp only
    cases listNumber bounds.1 with
    | error _ => rfl
    | ok lv =>
      cases listNumber bounds.2 with
      | error _ => rfl
      | ok rv =>
        have int : toInt lv ≤ intMax :=
          Int.le_sub_one_of_lt (Int.bmod_lt (by decide))
        refine (storeRange_eq rv fits (by omega) int).trans ?_
        simp [bind, Except.bind]

/-- What the loop over the tokens leaves behind. -/
theorem forM_storeToken (tokens : List (List Char)) (fits : stored.length ≤ maxEle + 1) :
    tokens.forM (storeToken maxEle) stored =
      storeNumbers maxEle (readNumbers tokens).1 (readNumbers tokens).2 stored := by
  induction tokens generalizing stored with
  | nil => exact (storeNumbers_nil none fits).symm
  | cons token rest ih =>
    refine (bind_apply (storeToken maxEle token) _ stored).trans ?_
    rw [storeToken_eq token fits, readNumbers]
    rcases tokenNumbers token with fault | ⟨numbers, _ | _⟩
    · exact (storeNumbers_nil (some fault) fits).symm
    · rw [← storeNumbers_append _ _ _ fits, bind_apply]
      dsimp only
      by_cases full : maxEle + 1 < stored.length + numbers.length
      · rw [if_neg (by decide), storeNumbers_full none full]
      · have room := not_lt.mp full
        rw [if_neg (by decide), storeNumbers_room none room]
        exact ih (by rw [length_filled room]; exact room)
    · dsimp only
      rw [if_pos rfl]
      by_cases full : maxEle + 1 < stored.length + numbers.length
      · rw [storeNumbers_full _ full]
      · rw [storeNumbers_room _ (not_lt.mp full)]

end Loops

/-- The numbers of a list up to the item at which the parser stops, and the fault there. -/
def listNumbers (value : String) : List Int × Option ConfigFault :=
  readNumbers (strsplit ',' listMaxTokens value.toList)

/-- What the accepted numbers leave in the array. -/
def sortedNumbers (numbers : List Int) : List UInt16 :=
  (numbers.map ofInt).reverse.insertionSort (· ≤ ·)

theorem storeList_eq (maxEle : Nat) {value : String}
    (short : byteSize value.toList + 1 < listInputSize) :
    (storeList maxEle value).run [] =
      storeNumbers maxEle (listNumbers value).1 (listNumbers value).2 [] := by
  rw [storeList, if_neg (Nat.not_le.mpr short)]
  exact forM_storeToken _ (Nat.zero_le _)

/-- The loops end without undefined behaviour, and all elements are in an array of `maxEle`
entries. -/
def Inside (maxEle : Nat) : EStateM.Result ConfigFault (List UInt16) Unit → Prop
  | .ok _ stored => stored.length ≤ maxEle
  | .error fault stored => stored.length ≤ maxEle ∧ fault ≠ .undefined

/-- The stores stay inside the array exactly if there are no more numbers than places. -/
theorem inside_storeNumbers_iff (maxEle : Nat) (numbers : List Int) (fault : Option ConfigFault) :
    Inside maxEle (storeNumbers maxEle numbers fault []) ↔
      numbers.length ≤ maxEle ∧ fault ≠ some .undefined := by
  have length : (filled maxEle [] numbers).length = min (maxEle + 1) numbers.length := by
    simp [filled]
  by_cases full : maxEle + 1 < numbers.length
  · rw [storeNumbers_full fault (by simpa using full)]
    refine iff_of_false (fun inside => ?_) fun fits => absurd fits.1 (by omega)
    have inside := inside.1
    omega
  · rw [storeNumbers_room fault (by simpa using full)]
    cases fault <;> simp only [Inside, length] <;> grind

/-- No element is stored outside an array of `maxEle` entries, and a list of more elements is not
accepted. -/
def KeepsArray (maxEle : Nat) (value : String) : Prop :=
  Inside maxEle ((storeList maxEle value).run []) ∧
    ((listNumbers value).2 = none → maxEle < (listNumbers value).1.length →
      parseConfigList maxEle value = .error .rejected)

/-- That is so exactly if the value fits into the input buffer, its numbers up to an item that is
not accepted fit into the array, and no range among them reaches the largest `int`. -/
theorem keepsArray_iff (maxEle : Nat) (value : String) :
    KeepsArray maxEle value ↔ byteSize value.toList + 1 < listInputSize ∧
      (listNumbers value).1.length ≤ maxEle ∧ (listNumbers value).2 ≠ some .undefined := by
  by_cases long : listInputSize ≤ byteSize value.toList + 1
  · refine iff_of_false (fun keeps => ?_) fun fits => absurd fits.1 (not_lt.mpr long)
    have inside := keeps.1
    rw [storeList, if_pos long] at inside
    exact inside.2 rfl
  · rw [and_iff_right (not_le.mp long), KeepsArray, storeList_eq maxEle (not_le.mp long),
      inside_storeNumbers_iff]
    exact and_iff_left_of_imp fun fits _ more => absurd fits.1 (not_le.mpr more)

/-- A list with one number too many is accepted, and its last number is stored behind the array. -/
theorem not_keepsArray_twoNumbers : ¬ KeepsArray 1 "1,2" ∧ parseConfigList 1 "1,2" = .ok [1, 2] :=
  ⟨fun keeps => absurd (show 2 ≤ 1 from keeps.1) (by decide), rfl⟩

/-- A number and a range that fill the array. -/
theorem keepsArray_range : KeepsArray 4 "7, 2-4" :=
  (keepsArray_iff 4 _).mpr (by decide +kernel)

/-! ## Lists of decimal numbers and ranges -/

/-- A decimal number in the range of the elements, with blanks around it. -/
structure ListNumber where
  before : Nat
  digits : List Char
  after : Nat
  nonempty : digits ≠ []
  decimal : digits.all isDigit = true
  small : digitsValue digits < 65536

namespace ListNumber

variable (number : ListNumber)

def text : List Char :=
  replicate number.before ' ' ++ (number.digits ++ replicate number.after ' ')

def value : Nat := digitsValue number.digits

theorem not_mem_digits {c : Char} (other : isDigit c = false) : c ∉ number.digits := by
  intro there
  rw [all_eq_true.mp number.decimal c there] at other
  cases other

theorem not_mem_text {c : Char} (other : isDigit c = false) (visible : c ≠ ' ') :
    c ∉ number.text := by
  simp [text, number.not_mem_digits other, visible]

theorem dropWhile_blanks (count : Nat) {text : List Char} (nonempty : text ≠ [])
    (visible : ' ' ∉ text) (rest : List Char) :
    (replicate count ' ' ++ (text ++ rest)).dropWhile (· = ' ') = text ++ rest := by
  obtain ⟨c, more, rfl⟩ := exists_cons_of_ne_nil nonempty
  have first : c ≠ ' ' := fun same => visible (same ▸ mem_cons_self)
  rw [dropWhile_append_of_pos (by simp), cons_append, dropWhile_cons_of_neg (by simpa using first)]

theorem strstrip_text : strstrip number.text = number.digits := by
  have visible : ' ' ∉ number.digits := number.not_mem_digits (by decide)
  have back := dropWhile_blanks number.after (reverse_ne_nil_iff.mpr number.nonempty)
    (mt mem_reverse.mp visible) []
  rw [append_nil] at back
  rw [strstrip, text, dropWhile_blanks _ number.nonempty visible, reverse_append,
    reverse_replicate, back, reverse_reverse]

theorem text_ne_nil : number.text ≠ [] := by
  simp [text, number.nonempty]

theorem listNumber_text : listNumber number.text = .ok (number.value : Int) := by
  have whole := strtol_append number.nonempty (all_eq_true.mp number.decimal) 
    (show ∀ c ∈ [].head?, _ by simp) (number.small.trans (by decide))
  rw [append_nil] at whole
  rw [listNumber, strstrip_text, whole]
  rfl

end ListNumber

/-- An item of a list. -/
inductive ListItem where
  | single (number : ListNumber)
  | range (low high : ListNumber)

namespace ListItem

def text : ListItem → List Char
  | single number => number.text
  | range low high => low.text ++ '-' :: high.text

/-- The numbers an item denotes. -/
def numbers : ListItem → List Nat
  | single number => [number.value]
  | range low high => (List.range (high.value + 1 - low.value)).map (low.value + ·)

theorem comma_not_mem (item : ListItem) : ',' ∉ item.text := by
  have free (number : ListNumber) : ',' ∉ number.text :=
    number.not_mem_text (by decide) (by decide)
  cases item with
  | single number => exact free number
  | range low high => simp [text, free]

theorem text_ne_nil : (item : ListItem) → item.text ≠ []
  | single number => number.text_ne_nil
  | range low _ => append_ne_nil_of_left_ne_nil low.text_ne_nil _

theorem small (item : ListItem) : ∀ number ∈ item.numbers, number < 65536 := by
  cases item with
  | single number => exact fun _ there => mem_singleton.mp there ▸ number.small
  | range low high =>
    have bound : high.value < 65536 := high.small
    simp only [numbers, mem_map, mem_range]
    rintro _ ⟨i, inside, rfl⟩
    omega

/-- A printed item is read back as its numbers. -/
theorem tokenNumbers_text (item : ListItem) :
    tokenNumbers item.text = .ok (item.numbers.map Nat.cast, false) := by
  have free (number : ListNumber) : '-' ∉ number.text :=
    number.not_mem_text (by decide) (by decide)
  cases item with
  | single number =>
    rw [tokenNumbers, text, strchr_of_not_mem (free number), number.listNumber_text]
    rfl
  | range low high =>
    have small := high.small
    have kept : toInt low.value = low.value := toInt_small (low.small.trans (by decide))
    rw [tokenNumbers, text, strchr_append (free low)]
    simp only [low.listNumber_text, high.listNumber_text, Except.bind, bind, kept]
    have int : (high.value : Int) < intMax := by
      unfold intMax ListNumber.value
      omega
    rw [min_eq_left int.le, decide_eq_false (not_le.mpr int), numbers, map_map, Int.range,
      show ((high.value : Int) + 1 - low.value).toNat = high.value + 1 - low.value by omega]
    rfl

end ListItem

open ListItem

/-- The items of a list, separated by commas. -/
def listText : List ListItem → List Char
  | [] => []
  | [item] => item.text
  | item :: next :: rest => item.text ++ ',' :: listText (next :: rest)

/-- A printed list is split into its items. -/
theorem strsplit_listText {items : List ListItem} {maxTokens : Nat}
    (few : items.length ≤ maxTokens) :
    strsplit ',' maxTokens (listText items) = items.map text := by
  induction items generalizing maxTokens with
  | nil => rw [listText, strsplit, map_nil]
  | cons item others ih =>
    obtain ⟨c, more, shape⟩ := exists_cons_of_ne_nil item.text_ne_nil
    have free := item.comma_not_mem
    have visible : c ≠ ',' := fun same => free (shape ▸ same ▸ mem_cons_self)
    match others, maxTokens, few with
    | [], 1, _ =>
      rw [listText, shape, strsplit, if_neg visible, map_cons, map_nil, shape]
    | [], maxTokens + 2, _ =>
      rw [listText, shape, strsplit, ← shape, strchr_of_not_mem free]
      rfl
    | next :: rest, maxTokens + 2, few =>
      rw [listText, shape, cons_append, strsplit, ← cons_append, ← shape, strchr_append free]
      exact congrArg (cons item.text) (ih (Nat.le_of_succ_le_succ few))

/-- The value of `*sz` when a list is accepted. -/
def listSize (maxEle : Nat) (entries : List UInt16) : Nat :=
  if entries = [] then maxEle else entries.length

/-- What is to be true of an accepted list: its entries are, in ascending order, the numbers that
the list denotes, and `*sz` is how many they are. -/
def Denotes (maxEle : Nat) (items : List ListItem) (entries : List UInt16) : Prop :=
  entries.Pairwise (· ≤ ·) ∧ (entries.map UInt16.toNat).Perm (items.flatMap numbers) ∧
    listSize maxEle entries = (items.flatMap numbers).length

theorem readNumbers_items (items : List ListItem) :
    readNumbers (items.map text) =
      ((items.flatMap numbers).map Nat.cast, none) := by
  induction items with
  | nil => rfl
  | cons item rest ih =>
    rw [map_cons, readNumbers, item.tokenNumbers_text, ih, flatMap_cons, map_append]

/-- The numbers of a list are sorted, and none is changed. -/
theorem sortedNumbers_perm {numbers : List Nat} (small : ∀ number ∈ numbers, number < 65536) :
    ((sortedNumbers (numbers.map Nat.cast)).map UInt16.toNat).Perm numbers := by
  have kept : ((numbers.map (Nat.cast : Nat → Int)).map UInt16.ofInt).map UInt16.toNat = numbers := by
    rw [map_map, map_map]
    refine (map_congr_left fun number there => ?_).trans (map_id numbers)
    have fits := small number there
    simp [ofInt]
    omega
  have sorted := (perm_insertionSort (· ≤ ·) ((numbers.map Nat.cast).map ofInt).reverse).trans
    (reverse_perm _)
  exact (sorted.map UInt16.toNat).trans (.of_eq kept)

/-- Whenever a list is accepted, its entries are in the array and have its meaning, and the callers
use no others. -/
def Meant (maxEle : Nat) (items : List ListItem) : Prop :=
  ∀ entries, parseConfigList maxEle (String.ofList (listText items)) = .ok entries →
    entries.length ≤ maxEle ∧ Denotes maxEle items entries ∧
      (maxEle = rteMaxEthports → parsePortIds (String.ofList (listText items)) = .ok entries)

section Meaning

variable {maxEle : Nat} {items : List ListItem} (few : items.length ≤ listMaxTokens)
  (short : byteSize (listText items) + 1 < listInputSize)

include few short

/-- A list is accepted if it has at most one number more than fit. -/
theorem parseConfigList_listText :
    parseConfigList maxEle (String.ofList (listText items)) =
      if maxEle + 1 < (items.flatMap numbers).length then .error .rejected
      else .ok (sortedNumbers ((items.flatMap numbers).map Nat.cast)) := by
  have read : listNumbers (String.ofList (listText items)) =
      ((items.flatMap numbers).map Nat.cast, none) := by
    rw [listNumbers, String.toList_ofList, strsplit_listText few, readNumbers_items]
  rw [parseConfigList, storeList_eq maxEle (by rwa [String.toList_ofList]), read]
  by_cases full : maxEle + 1 < (items.flatMap numbers).length
  · rw [if_pos full, storeNumbers_full none (by simpa using full)]
  · have room : ([] : List UInt16).length + ((items.flatMap numbers).map (Nat.cast : Nat → Int)).length
        ≤ maxEle + 1 := by simpa using full
    rw [if_neg full, storeNumbers_room none room, filled_room room, append_nil]
    rfl

/-- That is so exactly if the list is refused for its size, or has no more numbers than fit and, in
an array that has entries, at least one. -/
theorem meant_iff :
    Meant maxEle items ↔ maxEle + 1 < (items.flatMap numbers).length ∨
      (items.flatMap numbers).length ≤ maxEle ∧ (items.flatMap numbers = [] → maxEle = 0) := by
  have small : ∀ number ∈ items.flatMap numbers, number < 65536 := by
    intro number there
    obtain ⟨item, -, inside⟩ := mem_flatMap.mp there
    exact item.small number inside
  have perm := sortedNumbers_perm small
  have count := perm.length_eq
  rw [length_map] at count
  have empty : sortedNumbers ((items.flatMap numbers).map Nat.cast) = [] ↔
      items.flatMap numbers = [] := by
    rw [← length_eq_zero_iff, count, length_eq_zero_iff]
  unfold Meant parsePortIds
  rw [parseConfigList_listText few short]
  by_cases refused : maxEle + 1 < (items.flatMap numbers).length
  · rw [if_pos refused]
    exact iff_of_true (fun _ accepted => by cases accepted) (.inl refused)
  rw [if_neg refused, or_iff_right refused]
  constructor
  · intro meant
    obtain ⟨inside, ⟨-, -, size⟩, -⟩ := meant _ rfl
    refine ⟨count ▸ inside, fun none => ?_⟩
    rwa [listSize, if_pos (empty.mpr none), none] at size
  · rintro ⟨fits, some_⟩ entries accepted
    obtain rfl := Except.ok.inj accepted

    refine ⟨count.trans_le fits, ⟨pairwise_insertionSort _ _, perm, ?_⟩, fun ports => ?_⟩
    · unfold listSize
      split_ifs with none
      · rw [some_ (empty.mp none), empty.mp none]
        rfl
      · exact count
    · subst ports
      rw [parseConfigList_listText few short, if_neg refused]
      refine if_neg (not_or.mpr ⟨by omega, fun none => ?_⟩)
      exact absurd (some_ (empty.mp none)) (by decide)

end Meaning

/-- A range without a number is accepted, but leaves `*sz` at the size of the array. -/
theorem not_meant_emptyRange :
    let five : ListNumber := ⟨0, ['5'], 0, by decide, rfl, by decide⟩
    let three : ListNumber := ⟨0, ['3'], 0, by decide, rfl, by decide⟩
    parseConfigList 32 (String.ofList (listText [.range five three])) = .ok [] ∧
      ¬ Meant 32 [.range five three] :=
  ⟨rfl, fun meant => absurd (meant [] rfl).2.1.2.2 (by decide)⟩

/-- A number, and a range with a blank. -/
theorem meant_three :
    let three : ListNumber := ⟨1, ['3'], 0, by decide, rfl, by decide⟩
    let seven : ListNumber := ⟨0, ['7'], 0, by decide, rfl, by decide⟩
    Meant 32 [.single seven, .range three seven] :=
  (meant_iff (by decide) (by decide)).mpr (.inr ⟨by decide, fun none => by cases none⟩)

end FStack
