import FStack.Packet.Mbuf

/-!
# The packet classifier

`protocolFilter` decides what `process_packets` does with a frame. It reads the
frame as memory: an offset at or past the frame's data length yields whatever
the buffer holds there, and the 16-bit remaining length wraps.

`protocolFilterIp` recurses into nested IP headers. An IPv4 header that claims a header
length of zero and carries IP-in-IP makes the source call itself with the same arguments
for ever, so the model takes fuel and answers `none` without it.
-/

namespace FStack

/-- `enum FilterReturn`. -/
inductive FilterReturn where
  | unknown
  | arp
  | kni
  | ndp
deriving DecidableEq, Repr

/-- The byte at an offset of the memory a pointer leads to. -/
def byteAt (data : List UInt8) (offset : Nat) : Nat := (data.getD offset 0).toNat

/-- A 16-bit field in network byte order. -/
def be16At (data : List UInt8) (offset : Nat) : Nat :=
  byteAt data offset * 256 + byteAt data (offset + 1)

/-- A 16-bit field as a little-endian machine loads it. -/
def le16At (data : List UInt8) (offset : Nat) : Nat :=
  byteAt data offset + 256 * byteAt data (offset + 1)

def rteEtherAddrLen : Nat := 6
def rteEtherHdrLen : Nat := 14
def rteVlanHdrLen : Nat := 4
def rteEtherTypeIpv4 : Nat := 0x0800
def rteEtherTypeArp : Nat := 0x0806
def rteEtherTypeVlan : Nat := 0x8100
def rteEtherTypeIpv6 : Nat := 0x86DD

/-- A KNI port bitmap: 8192 bytes, most significant bit first. -/
abbrev PortBitmap := Nat → UInt8

/-- The classifier's globals: `enable_kni` and the two KNI port bitmaps. -/
structure FilterGlobals where
  enableKni : Bool
  tcpPortBitmap : PortBitmap
  udpPortBitmap : PortBitmap

/-- `get_bitmap`. -/
def getBitmap (port : Nat) (bitmap : PortBitmap) : Bool :=
  (bitmap (port / 8)).toNat.testBit (7 - port % 8)

/-- `protocol_filter_l4`. -/
def protocolFilterL4 (port : Nat) (bitmap : PortBitmap) : FilterReturn :=
  if getBitmap port bitmap then .kni else .unknown

/-- `protocol_filter_tcp`: `dst_port` is used in network order, as loaded. -/
def protocolFilterTcp (globals : FilterGlobals) (data : List UInt8) (len : Nat) : FilterReturn :=
  if len < 20 then .unknown else protocolFilterL4 (le16At data 2) globals.tcpPortBitmap

/-- `protocol_filter_udp`. -/
def protocolFilterUdp (globals : FilterGlobals) (data : List UInt8) (len : Nat) : FilterReturn :=
  if len < 8 then .unknown else protocolFilterL4 (le16At data 2) globals.udpPortBitmap

/-- `protocol_filter_icmp6`: `ND_ROUTER_SOLICIT` up to `ND_REDIRECT`. -/
def protocolFilterIcmp6 (data : List UInt8) (len : Nat) : FilterReturn :=
  if len < 8 then .unknown
  else if 133 ≤ byteAt data 0 ∧ byteAt data 0 ≤ 137 then .ndp
  else .unknown

/-- The length `get_ipv6_hdr_len` ascribes to the extension header `proto` at
`data`, or none for a protocol that is no extension header. -/
def ipv6ExtHdrLen (proto : Nat) (data : List UInt8) : Option Nat :=
  if proto = 0 ∨ proto = 43 ∨ proto = 60 ∨ proto = 135 ∨ proto = 139 ∨ proto = 140 then
    some (byteAt data 1 + 1)
  else if proto = 44 then some 8
  else if proto = 51 then some ((byteAt data 1 + 2) * 4)
  else none

variable {data : List UInt8} {proto ethFrameType hdrLen len : Nat}

/-- Every extension header the source steps over is at least one byte long. -/
theorem ipv6ExtHdrLen_pos {extLen : Nat} (found : ipv6ExtHdrLen proto data = some extLen) :
    0 < extLen := by
  unfold ipv6ExtHdrLen at found
  split_ifs at found <;> simp at found <;> omega

/-- `get_ipv6_hdr_len`: the header bytes stepped over, with the final value of
`*proto` first. -/
def getIpv6HdrLen (proto : Nat) (data : List UInt8) (len : Nat) : Nat × Nat :=
  match _found : ipv6ExtHdrLen proto data with
  | none => (proto, 0)
  | some extLen =>
    if len ≤ extLen then (proto, len)
    else
      let rest := getIpv6HdrLen (byteAt data 0) (data.drop extLen) (len - extLen)
      (rest.1, extLen + rest.2)
termination_by len
decreasing_by
  have positive := ipv6ExtHdrLen_pos _found
  omega

theorem getIpv6HdrLen_none (len : Nat) (found : ipv6ExtHdrLen proto data = none) :
    getIpv6HdrLen proto data len = (proto, 0) := by
  rw [getIpv6HdrLen]
  split <;> simp_all

theorem getIpv6HdrLen_some {extLen : Nat} (len : Nat)
    (found : ipv6ExtHdrLen proto data = some extLen) :
    getIpv6HdrLen proto data len =
      if len ≤ extLen then (proto, len)
      else
        let rest := getIpv6HdrLen (byteAt data 0) (data.drop extLen) (len - extLen)
        (rest.1, extLen + rest.2) := by
  rw [getIpv6HdrLen]
  split <;> simp_all

/-- The IP header at `data`: its length and the protocol after it, or none where
`protocol_filter_ip` gives up on it. -/
def ipHeader (data : List UInt8) (len ethFrameType : Nat) : Option (Nat × Nat) :=
  if ethFrameType = rteEtherTypeIpv4 then
    if len < 20 then none
    else
      let hdrLen := byteAt data 0 % 16 * 4
      if len < hdrLen then none else some (hdrLen, byteAt data 9)
  else if ethFrameType = rteEtherTypeIpv6 then
    if len < 40 then none
    else
      let ext := getIpv6HdrLen (byteAt data 6) (data.drop 40) (len - 40)
      if len < 40 + ext.2 then none else some (40 + ext.2, ext.1)
  else none

/-- `protocol_filter_ip`; `none` is a call that has not returned within the fuel. -/
def protocolFilterIp (globals : FilterGlobals) :
    Nat → List UInt8 → Nat → Nat → Option FilterReturn
  | 0, _, _, _ => none
  | fuel + 1, data, len, ethFrameType =>
    match ipHeader data len ethFrameType with
    | none => some .unknown
    | some (hdrLen, proto) =>
      let next := data.drop hdrLen
      let nextLen := len - hdrLen
      if proto = 6 then
        some (if globals.enableKni then protocolFilterTcp globals next nextLen else .unknown)
      else if proto = 17 then
        some (if globals.enableKni then protocolFilterUdp globals next nextLen else .unknown)
      else if proto = 4 then protocolFilterIp globals fuel next nextLen rteEtherTypeIpv4
      else if proto = 41 then protocolFilterIp globals fuel next nextLen rteEtherTypeIpv6
      else if proto = 58 then some (protocolFilterIcmp6 next nextLen)
      else some .unknown

/-- `ff_kni_proto_filter`; `none` is a call that never returns. -/
def ffKniProtoFilter (globals : FilterGlobals) (data : List UInt8) (len ethFrameType : Nat) :
    Option FilterReturn :=
  protocolFilterIp globals (2 * len + 2) data len ethFrameType

/-- A 16-bit length reduced by a header it may be shorter than. -/
def shrink16 (len hdrLen : Nat) : Nat := (len + 65536 - hdrLen) % 65536

/-- The Ethernet type of a frame with the memory and the length left behind the
Ethernet header and, where there is one, the VLAN header. -/
def etherPayload (data : List UInt8) (len : Nat) : Nat × List UInt8 × Nat :=
  let etherType := be16At data 12
  let payload := data.drop rteEtherHdrLen
  let left := shrink16 len rteEtherHdrLen
  if etherType = rteEtherTypeVlan then
    (be16At payload 2, payload.drop rteVlanHdrLen, shrink16 left rteVlanHdrLen)
  else (etherType, payload, left)

/-- `protocol_filter`; `none` is a call that never returns. -/
def protocolFilter (globals : FilterGlobals) (data : List UInt8) (len : Nat) :
    Option FilterReturn :=
  if len < rteEtherAddrLen then some .unknown
  else
    let (etherType, payload, left) := etherPayload data len
    if etherType = rteEtherTypeArp then some .arp
    else if etherType = rteEtherTypeIpv6 then ffKniProtoFilter globals payload left etherType
    else if !globals.enableKni then some .unknown
    else if etherType ≠ rteEtherTypeIpv4 then some .unknown
    else ffKniProtoFilter globals payload left etherType

/-! ## Enough fuel -/

/-- The header `protocol_filter_ip` steps over lies inside the packet. -/
theorem ipHeader_le (header : ipHeader data len ethFrameType = some (hdrLen, proto)) :
    hdrLen ≤ len := by
  simp only [ipHeader] at header
  split_ifs at header <;> simp at header <;> omega

/-- An IPv6 header is never empty, so an IPv6 step always shortens the packet. -/
theorem ipHeader_ipv6_pos (header : ipHeader data len rteEtherTypeIpv6 = some (hdrLen, proto)) :
    40 ≤ hdrLen := by
  simp only [ipHeader, rteEtherTypeIpv6, rteEtherTypeIpv4] at header
  split_ifs at header <;> simp at header <;> omega

/-- Outside IPv4 a header has bytes, so the packet behind it is shorter. -/
theorem ipHeader_pos (header : ipHeader data len ethFrameType = some (hdrLen, proto))
    (notIpv4 : ethFrameType ≠ rteEtherTypeIpv4) : 0 < hdrLen := by
  by_cases ipv6 : ethFrameType = rteEtherTypeIpv6
  · subst ipv6
    have atLeast := ipHeader_ipv6_pos header
    omega
  · simp [ipHeader, notIpv4, ipv6] at header

/-! ## Bytes and headers that are there -/

theorem byteAt_drop (data : List UInt8) (count offset : Nat) :
    byteAt (data.drop count) offset = byteAt data (count + offset) := by
  simp [byteAt]

/-- Two memories agree on the first `len` bytes. -/
def SameBytes (len : Nat) (data data' : List UInt8) : Prop :=
  ∀ offset, offset < len → byteAt data offset = byteAt data' offset

/-- A frame whose Ethernet header, and VLAN header if it has one, is complete. -/
def HeaderComplete (data : List UInt8) (len : Nat) : Prop :=
  rteEtherHdrLen ≤ len ∧
    (be16At data 12 = rteEtherTypeVlan → rteEtherHdrLen + rteVlanHdrLen ≤ len)

instance (data : List UInt8) (len : Nat) : Decidable (HeaderComplete data len) :=
  inferInstanceAs (Decidable (_ ∧ _))

/-- A 16-bit length at least as long as the header it loses does not wrap. -/
theorem shrink16_eq_sub (small : len < 65536) (inside : hdrLen ≤ len) :
    shrink16 len hdrLen = len - hdrLen := by
  unfold shrink16
  omega

end FStack
