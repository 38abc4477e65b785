import FStack.Packet.Classifier
import FStack.Std.CText

/-!
# The ports of the kernel

A list of ports and of ranges of ports is read into a bitmap for each protocol when KNI is set up,
and the classifier looks up the destination port of a segment there. Both ends swap the bytes of a
port: the list when a bit is set, the packet as its field is loaded.
-/

namespace FStack

open CText List

/-- `magic_bits`. -/
def magicBits (index : Nat) : UInt8 := [0x80, 0x40, 0x20, 0x10, 0x8, 0x4, 0x2, 0x1].getD index 0

/-- `htons` on a little-endian machine. -/
def htons (port : Nat) : Nat := port % 256 * 256 + port / 256 % 256

/-- `set_bitmap`, which gets its port as an `uint16_t`. -/
def setBitmap (port : Int) (bitmap : PortBitmap) : PortBitmap :=
  let place := htons (port % 65536).toNat
  Function.update bitmap (place / 8) (bitmap (place / 8) ||| magicBits (place % 8))

/-- The loop over a range. -/
def setRange (first last : Int) (bitmap : PortBitmap) : PortBitmap :=
  (range (last + 1 - first).toNat).foldl
    (fun bitmap (step : Nat) => setBitmap (first + step) bitmap) bitmap

/-- One pass of the loop of `kni_set_bitmap`: the item at `head`. It is a range if there is a hyphen
that is not the last character in front of the next comma. -/
def setItem (head : List Char) (bitmap : PortBitmap) : PortBitmap :=
  match strchr '-' head with
  | none => setBitmap (atoi head) bitmap
  | some (low, high) =>
    let inside := match strchr ',' head with
      | none => true
      | some (item, _) => low.length + 1 < item.length
    if inside then setRange (atoi head) (atoi high) bitmap else setBitmap (atoi head) bitmap

/-- What is behind the character is shorter. -/
theorem length_lt_of_strchr {c : Char} {text front rest : List Char}
    (found : strchr c text = some (front, rest)) : rest.length < text.length := by
  unfold strchr at found
  have whole := congrArg length (takeWhile_append_dropWhile (p := (· ≠ c)) (l := text))
  rw [length_append] at whole
  split at found
  · cases found
  next behind =>
    cases found
    rw [behind, length_cons] at whole
    omega

/-- The loop of `kni_set_bitmap`. -/
def setItems (head : List Char) (bitmap : PortBitmap) : PortBitmap :=
  match _found : strchr ',' head with
  | none => setItem head bitmap
  | some (_, rest) => setItems rest (setItem head bitmap)
termination_by head.length
decreasing_by exact length_lt_of_strchr _found

/-- `kni_set_bitmap`; there may be no text. -/
def kniSetBitmap (text : Option (List Char)) (bitmap : PortBitmap) : PortBitmap :=
  match text with
  | none => bitmap
  | some text => setItems text bitmap

/-- `ff_kni_init`: the bitmaps. -/
def ffKniInit (globals : FilterGlobals) (tcpPorts udpPorts : Option (List Char)) : FilterGlobals where
  enableKni := globals.enableKni
  tcpPortBitmap := kniSetBitmap tcpPorts fun _ => 0
  udpPortBitmap := kniSetBitmap udpPorts fun _ => 0

/-! ## Lists of ports -/

/-- A decimal number of a port. -/
structure PortNumber where
  digits : List Char
  nonempty : digits ≠ []
  decimal : digits.all isDigit = true
  small : digitsValue digits < 65536

namespace PortNumber

def value (number : PortNumber) : Nat := digitsValue number.digits

theorem atoi_text (number : PortNumber) {rest : List Char}
    (ends : ∀ c ∈ rest.head?, isDigit c = false) :
    atoi (number.digits ++ rest) = number.value :=
  atoi_append number.nonempty (all_eq_true.mp number.decimal) ends
    (Nat.lt_of_lt_of_le number.small (by decide))

theorem not_mem {number : PortNumber} {c : Char} (other : isDigit c = false) :
    c ∉ number.digits := by
  intro there
  rw [all_eq_true.mp number.decimal c there] at other
  cases other

end PortNumber

/-- A port, or a range of ports. -/
inductive PortItem where
  | port (number : PortNumber)
  | range (low high : PortNumber)

namespace PortItem

def text : PortItem → List Char
  | port number => number.digits
  | range low high => low.digits ++ '-' :: high.digits

def Contains (port : Nat) : PortItem → Prop
  | .port number => port = number.value
  | .range low high => low.value ≤ port ∧ port ≤ high.value

instance (port : Nat) : DecidablePred (Contains port)
  | .port _ => inferInstanceAs (Decidable (_ = _))
  | .range _ _ => inferInstanceAs (Decidable (_ ∧ _))

end PortItem

/-- A list of ports has at least one item. -/
structure PortList where
  first : PortItem
  others : List PortItem

namespace PortList

/-- The text of an item and of those that follow it. -/
def textFrom (first : PortItem) : List PortItem → List Char
  | [] => first.text
  | next :: more => first.text ++ ',' :: textFrom next more

def text (list : PortList) : List Char := textFrom list.first list.others

def Contains (port : Nat) (list : PortList) : Prop :=
  ∃ item ∈ list.first :: list.others, item.Contains port

instance (port : Nat) : DecidablePred (Contains port) := fun list =>
  inferInstanceAs (Decidable (∃ item ∈ list.first :: list.others, item.Contains port))

end PortList

open PortList

/-! ## Bits -/

theorem htons_inj {port other : Nat} (small : port < 65536) (small' : other < 65536) :
    htons port = htons other ↔ port = other := by
  unfold htons
  omega

theorem le16At_eq_htons (data : List UInt8) (offset : Nat) :
    le16At data offset = htons (be16At data offset) := by
  have high := (data.getD offset 0).toNat_lt
  have low := (data.getD (offset + 1) 0).toNat_lt
  unfold le16At htons be16At byteAt
  omega

theorem testBit_magicBits {index bit : Nat} (low : index < 8) (bounded : bit < 8) :
    (magicBits index).toNat.testBit (7 - bit) = decide (index = bit) := by
  have table : ∀ index < 8, ∀ bit < 8,
      (magicBits index).toNat.testBit (7 - bit) = decide (index = bit) := by decide
  exact table index low bit bounded

/-- Setting a bit adds one place to those that are set. -/
theorem getBitmap_update (bitmap : PortBitmap) (place other : Nat) :
    getBitmap other (Function.update bitmap (place / 8)
        (bitmap (place / 8) ||| magicBits (place % 8))) =
      (getBitmap other bitmap || decide (other = place)) := by
  unfold getBitmap
  by_cases same : other / 8 = place / 8
  · have bit := testBit_magicBits (Nat.mod_lt place (by decide)) (Nat.mod_lt other (by decide))
    have equal : place % 8 = other % 8 ↔ other = place := by omega
    rw [same, Function.update_self, UInt8.toNat_or, Nat.testBit_or, bit]
    simp only [equal]
  · have apart : other ≠ place := fun equal => same (by rw [equal])
    rw [Function.update_of_ne same, decide_eq_false apart, Bool.or_false]

section Items

variable {port : Nat} (bitmap : PortBitmap)

theorem getBitmap_setBitmap (small : port < 65536) {number : Nat} (small' : number < 65536) :
    getBitmap (htons port) (setBitmap number bitmap) =
      (getBitmap (htons port) bitmap || decide (port = number)) := by
  have kept : ((number : Int) % 65536).toNat = number := by omega
  unfold setBitmap
  rw [kept, getBitmap_update, decide_eq_decide.mpr (htons_inj small small')]

/-- A range sets its own bits only. -/
theorem getBitmap_setRange (small : port < 65536) {first last : Nat} (low : first < 65536)
    (high : last < 65536) :
    getBitmap (htons port) (setRange first last bitmap) =
      (getBitmap (htons port) bitmap || decide (first ≤ port ∧ port ≤ last)) := by
  -- the first `count` ports of the range have been set
  have loop : ∀ count, first + count ≤ 65536 →
      getBitmap (htons port) ((range count).foldl
          (fun bitmap (step : Nat) => setBitmap ((first : Int) + step) bitmap) bitmap) =
        (getBitmap (htons port) bitmap || decide (first ≤ port ∧ port < first + count)) := by
    intro count
    induction count with
    | zero =>
      intro _
      rw [decide_eq_false (by omega), Bool.or_false]
      rfl
    | succ count ih =>
      intro inside
      rw [range_succ, foldl_append, foldl_cons, foldl_nil, ← Nat.cast_add,
        getBitmap_setBitmap _ small (by omega), ih (by omega), Bool.or_assoc, ← Bool.decide_or]
      congr 2
      rw [eq_iff_iff]
      omega
  have count : ((last : Int) + 1 - first).toNat = last + 1 - first := by omega
  unfold setRange
  rw [count]
  by_cases empty : last + 1 ≤ first
  · rw [Nat.sub_eq_zero_of_le empty, loop 0 (by omega)]
    congr 2
    rw [eq_iff_iff]
    omega
  · rw [loop _ (by omega)]
    congr 2
    rw [eq_iff_iff]
    omega

/-- An item ends with the text or at a comma. -/
def EndsItem (rest : List Char) : Prop := rest = [] ∨ ∃ more, rest = ',' :: more

variable {rest : List Char}

theorem EndsItem.not_digit (ends : EndsItem rest) : ∀ c ∈ rest.head?, isDigit c = false := by
  rcases ends with rfl | ⟨more, rfl⟩
  · exact fun _ there => by cases there
  · exact fun _ there => by cases there; decide

theorem PortItem.comma_not_mem (item : PortItem) : ',' ∉ item.text := by
  cases item with
  | port number => exact PortNumber.not_mem (by decide)
  | range low high =>
    rw [text, mem_append, mem_cons, not_or, not_or]
    exact ⟨PortNumber.not_mem (by decide), by decide, PortNumber.not_mem (by decide)⟩

/-- A port with a hyphen behind it in another item is no range. -/
theorem setItem_port (number : PortNumber) (ends : EndsItem rest) :
    setItem (number.digits ++ rest) bitmap = setBitmap number.value bitmap := by
  have plain : '-' ∉ number.digits := PortNumber.not_mem (by decide)
  have value := number.atoi_text ends.not_digit
  unfold setItem
  cases found : strchr '-' (number.digits ++ rest) with
  | none => exact congrArg (setBitmap · bitmap) value
  | some hyphen =>
    have behind := length_le_of_strchr plain found
    rcases ends with rfl | ⟨more, rfl⟩
    · rw [append_nil, strchr_of_not_mem plain] at found
      cases found
    · rw [strchr_append (PortNumber.not_mem (by decide))]
      dsimp only
      rw [if_neg (by simp only [decide_eq_true_eq]; omega), value]

/-- A printed range is read back. -/
theorem setItem_range (low high : PortNumber) (ends : EndsItem rest) :
    setItem ((PortItem.range low high).text ++ rest) bitmap =
      setRange low.value high.value bitmap := by
  have text : (PortItem.range low high).text ++ rest =
      low.digits ++ '-' :: (high.digits ++ rest) := by simp [PortItem.text]
  have first : atoi (low.digits ++ '-' :: (high.digits ++ rest)) = low.value :=
    low.atoi_text fun _ there => by cases there; decide
  have last := high.atoi_text ends.not_digit
  have plain : '-' ∉ low.digits := PortNumber.not_mem (by decide)
  have hyphen := strchr_append plain (high.digits ++ rest)
  unfold setItem
  rcases ends with rfl | ⟨more, rfl⟩
  · have comma := strchr_of_not_mem (PortItem.range low high).comma_not_mem
    rw [← text, append_nil] at hyphen first
    rw [append_nil, hyphen, comma]
    dsimp only
    rw [if_pos rfl, first, last]
  · have comma := strchr_append (PortItem.range low high).comma_not_mem more
    have long := length_pos_iff.mpr high.nonempty
    rw [← text] at hyphen first
    rw [hyphen, comma]
    dsimp only
    rw [if_pos (by simp [PortItem.text]; omega), first, last]

/-- An item of the list sets the bits of its ports. -/
theorem getBitmap_setItem (small : port < 65536) (item : PortItem) (ends : EndsItem rest) :
    getBitmap (htons port) (setItem (item.text ++ rest) bitmap) =
      (getBitmap (htons port) bitmap || decide (item.Contains port)) := by
  cases item with
  | port number =>
    rw [PortItem.text, setItem_port bitmap number ends]
    exact getBitmap_setBitmap bitmap small number.small
  | range low high =>
    rw [setItem_range bitmap low high ends]
    exact getBitmap_setRange bitmap small low.small high.small

variable {head : List Char}

theorem setItems_none (last : strchr ',' head = none) :
    setItems head bitmap = setItem head bitmap := by
  rw [setItems]
  split <;> simp_all

theorem setItems_some {item : List Char} (found : strchr ',' head = some (item, rest)) :
    setItems head bitmap = setItems rest (setItem head bitmap) := by
  rw [setItems]
  split <;> simp_all

/-- The ports of a list are added to those that are set. -/
theorem getBitmap_setItems (small : port < 65536) (first : PortItem) (others : List PortItem) :
    getBitmap (htons port) (setItems (textFrom first others) bitmap) = true ↔
      getBitmap (htons port) bitmap = true ∨ ∃ item ∈ first :: others, item.Contains port := by
  induction others generalizing first bitmap with
  | nil =>
    have marked := getBitmap_setItem bitmap small first (.inl rfl)
    rw [append_nil] at marked
    rw [textFrom, setItems_none _ (strchr_of_not_mem first.comma_not_mem), marked]
    simp
  | cons next more ih =>
    have marked := getBitmap_setItem bitmap small first (.inr ⟨textFrom next more, rfl⟩)
    rw [textFrom, setItems_some _ (strchr_append first.comma_not_mem _), ih, marked,
      Bool.or_eq_true, decide_eq_true_eq, exists_mem_cons_iff _ first, or_assoc]

/-- With the bitmap of a list that may be missing, the ports that are set are those of the list. -/
theorem getBitmap_kniSetBitmap (small : port < 65536) (list : Option PortList) :
    getBitmap (htons port) (kniSetBitmap (list.map text) fun _ => 0) = true ↔
      ∃ ports ∈ list, ports.Contains port := by
  cases list with
  | none => simp [kniSetBitmap, getBitmap]
  | some ports =>
    have marked := getBitmap_setItems (fun _ => 0) small ports.first ports.others
    have clear : getBitmap (htons port) (fun _ => 0) ≠ true := by simp [getBitmap]
    simp only [Option.mem_some_iff, exists_eq_left']
    exact marked.trans (or_iff_right clear)

end Items

/-! ## Segments -/

/-- The protocols that are looked up. -/
inductive Transport where
  | tcp
  | udp
deriving DecidableEq, Repr

namespace Transport

def proto : Transport → Nat
  | tcp => 6
  | udp => 17

def headerLen : Transport → Nat
  | tcp => 20
  | udp => 8

end Transport

/-- An IP packet without extension headers that carries a complete header of a protocol, with its
destination port. -/
inductive Carries (transport : Transport) (data : List UInt8) (len : Nat) : Nat → Nat → Prop
  | ipv4 (header : 5 ≤ byteAt data 0 % 16) (proto : byteAt data 9 = transport.proto)
      (complete : byteAt data 0 % 16 * 4 + transport.headerLen ≤ len) :
      Carries transport data len rteEtherTypeIpv4 (be16At data (byteAt data 0 % 16 * 4 + 2))
  | ipv6 (proto : byteAt data 6 = transport.proto) (complete : 40 + transport.headerLen ≤ len) :
      Carries transport data len rteEtherTypeIpv6 (be16At data (40 + 2))

def FilterGlobals.bitmap (globals : FilterGlobals) : Transport → PortBitmap
  | .tcp => globals.tcpPortBitmap
  | .udp => globals.udpPortBitmap

theorem be16At_lt (data : List UInt8) (offset : Nat) : be16At data offset < 65536 := by
  have high := (data.getD offset 0).toNat_lt
  have low := (data.getD (offset + 1) 0).toNat_lt
  unfold be16At byteAt
  omega

theorem be16At_drop (data : List UInt8) (count offset : Nat) :
    be16At (data.drop count) offset = be16At data (count + offset) := by
  unfold be16At
  rw [byteAt_drop, byteAt_drop, Nat.add_assoc]

variable {data : List UInt8} {globals : FilterGlobals}

/-- A packet whose header leads to a protocol that is looked up. -/
theorem protocolFilterIp_transport (enabled : globals.enableKni = true) (transport : Transport)
    {len type hdrLen : Nat} (fuel : Nat)
    (header : ipHeader data len type = some (hdrLen, transport.proto))
    (complete : hdrLen + transport.headerLen ≤ len) :
    protocolFilterIp globals (fuel + 1) data len type =
      some (protocolFilterL4 (htons (be16At data (hdrLen + 2))) (globals.bitmap transport)) := by
  rw [← be16At_drop, ← le16At_eq_htons]
  unfold protocolFilterIp
  rw [header]
  cases transport with
  | tcp =>
    change hdrLen + 20 ≤ len at complete
    have long : ¬ len - hdrLen < 20 := by omega
    simp only [Transport.proto, if_true, enabled, protocolFilterTcp, if_neg long,
      FilterGlobals.bitmap]
  | udp =>
    change hdrLen + 8 ≤ len at complete
    have long : ¬ len - hdrLen < 8 := by omega
    have other : (17 : Nat) ≠ 6 := by decide
    simp only [Transport.proto, if_true, if_neg other, enabled, protocolFilterUdp, if_neg long,
      FilterGlobals.bitmap]

theorem Transport.ipv6ExtHdrLen (transport : Transport) (data : List UInt8) :
    ipv6ExtHdrLen transport.proto data = none := by
  cases transport <;> rfl

/-- A packet to a port is looked up under that port. -/
theorem Carries.ffKniProtoFilter (enabled : globals.enableKni = true) {transport : Transport}
    {len type port : Nat} (carries : Carries transport data len type port) :
    port < 65536 ∧ ffKniProtoFilter globals data len type =
      some (protocolFilterL4 (htons port) (globals.bitmap transport)) := by
  cases carries with
  | ipv4 header proto complete =>
    have found : ipHeader data len rteEtherTypeIpv4 =
        some (byteAt data 0 % 16 * 4, transport.proto) := by
      unfold ipHeader
      rw [if_pos rfl, if_neg (by omega), if_neg (by omega), proto]
    exact ⟨be16At_lt _ _, protocolFilterIp_transport enabled transport _ found complete⟩
  | ipv6 proto complete =>
    have found : ipHeader data len rteEtherTypeIpv6 = some (40, transport.proto) := by
      unfold ipHeader
      rw [if_neg (by decide), if_pos rfl, if_neg (by omega), proto,
        getIpv6HdrLen_none _ (transport.ipv6ExtHdrLen _), if_neg (by omega), Nat.add_zero]
    exact ⟨be16At_lt _ _, protocolFilterIp_transport enabled transport _ found complete⟩

theorem protocolFilterL4_eq_kni (place : Nat) (bitmap : PortBitmap) :
    protocolFilterL4 place bitmap = .kni ↔ getBitmap place bitmap = true := by
  unfold protocolFilterL4
  cases getBitmap place bitmap <;> simp

theorem bitmap_ffKniInit (globals : FilterGlobals) (lists : Transport → Option PortList)
    (transport : Transport) :
    (ffKniInit globals ((lists .tcp).map text)
        ((lists .udp).map text)).bitmap transport =
      kniSetBitmap ((lists transport).map text) fun _ => 0 := by
  cases transport <;> rfl

/-- With KNI, a packet goes to the kernel exactly if its destination port is in the list for its
protocol, both for the filter of a packet and for that of a frame around it. -/
theorem kni_iff_listed {globals : FilterGlobals} (enabled : globals.enableKni = true)
    (lists : Transport → Option PortList) {transport : Transport} {data : List UInt8}
    {len type port : Nat} (carries : Carries transport data len type port) :
    let ready := ffKniInit globals ((lists .tcp).map text) ((lists .udp).map text)
    (ffKniProtoFilter ready data len type = some .kni ↔
      ∃ ports ∈ lists transport, ports.Contains port) ∧
    ∀ frame frameLen, rteEtherAddrLen ≤ frameLen → etherPayload frame frameLen = (type, data, len) →
      (protocolFilter ready frame frameLen = some .kni ↔
        ∃ ports ∈ lists transport, ports.Contains port) := by
  intro ready
  have on : ready.enableKni = true := enabled
  obtain ⟨small, answer⟩ := carries.ffKniProtoFilter on
  have listed : ffKniProtoFilter ready data len type = some .kni ↔
      ∃ ports ∈ lists transport, ports.Contains port := by
    rw [answer, Option.some_inj, protocolFilterL4_eq_kni, bitmap_ffKniInit,
      getBitmap_kniSetBitmap small]
  refine ⟨listed, fun frame frameLen long payload => ?_⟩
  have same : protocolFilter ready frame frameLen = ffKniProtoFilter ready data len type := by
    unfold protocolFilter
    rw [if_neg (not_lt.mpr long), payload]
    cases carries with
    | ipv4 =>
      dsimp only
      rw [if_neg (by decide), if_neg (by decide), on, if_neg (by decide), if_neg (by decide)]
    | ipv6 =>
      dsimp only
      rw [if_neg (by decide), if_pos rfl]
  rw [same]
  exact listed

/-- The list `53,8000-8080` for UDP. -/
def dnsAndHigh : PortList :=
  ⟨.port ⟨['5', '3'], by decide, by decide, by decide⟩,
    [.range ⟨['8', '0', '0', '0'], by decide, by decide, by decide⟩
      ⟨['8', '0', '8', '0'], by decide, by decide, by decide⟩]⟩

/-- A datagram to port 8001 in an IPv4 packet. -/
def toPort8001 : List UInt8 :=
  [0x45, 0, 0, 28, 0, 0, 0, 0, 64, 17, 0, 0, 10, 0, 0, 1, 10, 0, 0, 2] ++
  [0, 7, 0x1F, 0x41, 0, 8, 0, 0]

theorem kni_toPort8001 :
    ffKniProtoFilter (ffKniInit ⟨true, fun _ => 0, fun _ => 0⟩ none
      (some "53,8000-8080".toList)) toPort8001 28 rteEtherTypeIpv4 = some .kni := by
  have carries : Carries .udp toPort8001 28 rteEtherTypeIpv4 8001 := .ipv4 (by decide) rfl (by decide)
  exact (kni_iff_listed rfl (fun | .tcp => none | .udp => some dnsAndHigh) carries).1.mpr
    ⟨dnsAndHigh, rfl, by decide⟩

end FStack
