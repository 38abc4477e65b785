import FStack.Packet.Recursion

/-!
# Extension headers

A chain of IPv6 extension headers, as the RFCs define it, and what `get_ipv6_hdr_len` makes of its
bytes. The length byte of most headers counts units of eight bytes behind the first eight, that of
an authentication header units of four bytes less two, and a fragment header has no length. The
source takes the length byte of the first group as a count of bytes.
-/

namespace FStack

open List

/-- The extension headers that are stepped over. -/
inductive ExtKind where
  | hopopts
  | routing
  | dstopts
  | mh
  | hip
  | shim6
  | fragment
  | ah
deriving DecidableEq, Repr

namespace ExtKind

def proto : ExtKind → Nat
  | hopopts => 0
  | routing => 43
  | dstopts => 60
  | mh => 135
  | hip => 139
  | shim6 => 140
  | fragment => 44
  | ah => 51

theorem proto_lt (kind : ExtKind) : kind.proto < 256 := by
  cases kind <;> decide

/-- The length of a header by its length byte, as the RFCs define it. -/
def size (lengthByte : Nat) : ExtKind → Nat
  | fragment => 8
  | ah => (lengthByte + 2) * 4
  | _ => (lengthByte + 1) * 8

end ExtKind

/-- An extension header without its first byte, the number of what follows it. -/
structure ExtHeader where
  kind : ExtKind
  lengthByte : UInt8
  body : List UInt8
  sized : body.length + 2 = kind.size lengthByte.toNat
deriving DecidableEq

namespace ExtHeader

def size (header : ExtHeader) : Nat := header.kind.size header.lengthByte.toNat

/-- The number by which a chain is announced: that of its first header, or that of the protocol
behind the chain. -/
def firstProto (upper : UInt8) : List ExtHeader → UInt8
  | [] => upper
  | header :: _ => UInt8.ofNat header.kind.proto

/-- The bytes of a chain. -/
def bytes (upper : UInt8) : List ExtHeader → List UInt8
  | [] => []
  | header :: rest =>
    firstProto upper rest :: header.lengthByte :: header.body ++ bytes upper rest

/-- The length of a chain. -/
def total : List ExtHeader → Nat
  | [] => 0
  | header :: rest => header.size + total rest

theorem length_bytes (upper : UInt8) (headers : List ExtHeader) :
    (bytes upper headers).length = total headers := by
  induction headers with
  | nil => rfl
  | cons header rest ih =>
    have sized := header.sized
    simp only [bytes, total, size, length_append, length_cons]
    omega

/-- The headers whose length the source takes for what it is. -/
def Measured (header : ExtHeader) : Prop := header.kind = .fragment ∨ header.kind = .ah

instance : DecidablePred Measured := fun _ => inferInstanceAs (Decidable (_ ∨ _))

/-- A protocol that is none of the extension headers. -/
def IsUpper (upper : UInt8) : Prop := ∀ kind : ExtKind, kind.proto ≠ upper.toNat

variable {upper : UInt8}

/-- An upper-layer header ends the chain of extensions. -/
theorem IsUpper.ipv6ExtHdrLen (last : IsUpper upper) (data : List UInt8) :
    ipv6ExtHdrLen upper.toNat data = none := by
  unfold FStack.ipv6ExtHdrLen
  rw [if_neg, if_neg, if_neg]
  · exact fun there => last .ah there.symm
  · exact fun there => last .fragment there.symm
  · rintro (there | there | there | there | there | there)
    · exact last .hopopts there.symm
    · exact last .routing there.symm
    · exact last .dstopts there.symm
    · exact last .mh there.symm
    · exact last .hip there.symm
    · exact last .shim6 there.symm

theorem toNat_firstProto (upper : UInt8) (header : ExtHeader) (rest : List ExtHeader) :
    (firstProto upper (header :: rest)).toNat = header.kind.proto := by
  exact Nat.mod_eq_of_lt header.kind.proto_lt

theorem Measured.ipv6ExtHdrLen {header : ExtHeader} (measured : header.Measured) (next : UInt8)
    (behind : List UInt8) :
    ipv6ExtHdrLen header.kind.proto (next :: header.lengthByte :: behind) = some header.size := by
  unfold size
  rcases measured with fragment | auth
  · rw [fragment]
    rfl
  · rw [auth]
    rfl

theorem bytes_cons_append (upper : UInt8) (header : ExtHeader) (rest : List ExtHeader)
    (payload : List UInt8) :
    bytes upper (header :: rest) ++ payload =
      (firstProto upper rest :: header.lengthByte :: header.body) ++
        (bytes upper rest ++ payload) := by
  simp [bytes]

/-- The walk over a chain of measured headers with something behind it. -/
theorem getIpv6HdrLen_bytes (last : IsUpper upper) (headers : List ExtHeader)
    (measured : ∀ header ∈ headers, header.Measured) (payload : List UInt8)
    (followed : headers ≠ [] → payload ≠ []) :
    getIpv6HdrLen (firstProto upper headers).toNat (bytes upper headers ++ payload)
        (total headers + payload.length) =
      (upper.toNat, total headers) := by
  induction headers with
  | nil => exact getIpv6HdrLen_none _ (last.ipv6ExtHdrLen _)
  | cons header rest ih =>
    rw [forall_mem_cons] at measured
    have behind := length_pos_iff.mpr (followed (by simp))
    have found : ipv6ExtHdrLen header.kind.proto
        ((firstProto upper rest :: header.lengthByte :: header.body) ++
          (bytes upper rest ++ payload)) = some header.size :=
      measured.1.ipv6ExtHdrLen _ _
    have own : (firstProto upper rest :: header.lengthByte :: header.body).length = header.size :=
      header.sized
    have left : header.size + total rest + payload.length - header.size =
        total rest + payload.length := by omega
    have next : byteAt ((firstProto upper rest :: header.lengthByte :: header.body) ++
        (bytes upper rest ++ payload)) 0 = (firstProto upper rest).toNat := rfl
    rw [toNat_firstProto, bytes_cons_append, getIpv6HdrLen_some _ found, total,
      if_neg (by omega), left, drop_left' own, next,
      ih measured.2 fun _ => followed (by simp)]

end ExtHeader

open ExtHeader

/-- An IPv6 header without the number of what follows it. -/
structure Ipv6Fixed where
  front : List UInt8
  back : List UInt8
  sizedFront : front.length = 6
  sizedBack : back.length = 33

namespace Ipv6Fixed

def packet (fixed : Ipv6Fixed) (next : UInt8) (behind : List UInt8) : List UInt8 :=
  fixed.front ++ next :: (fixed.back ++ behind)

variable (fixed : Ipv6Fixed) (next : UInt8) (behind : List UInt8)

theorem byteAt_packet : byteAt (fixed.packet next behind) 6 = next.toNat := by
  simp [byteAt, packet, fixed.sizedFront]

theorem drop_packet : (fixed.packet next behind).drop 40 = behind := by
  have whole : (fixed.front ++ next :: fixed.back).length = 40 := by
    simp [fixed.sizedFront, fixed.sizedBack]
  have split : fixed.packet next behind = (fixed.front ++ next :: fixed.back) ++ behind := by
    simp [packet]
  rw [split, drop_left' whole]

/-- The header of a packet whose chain has been walked over. -/
theorem ipHeader_packet {len walked proto : Nat} (inside : walked ≤ len)
    (walk : getIpv6HdrLen next.toNat behind len = (proto, walked)) :
    ipHeader (fixed.packet next behind) (40 + len) rteEtherTypeIpv6 =
      some (40 + walked, proto) := by
  unfold ipHeader
  rw [if_neg (by decide), if_pos rfl, if_neg (by omega), byteAt_packet, drop_packet,
    Nat.add_sub_cancel_left, walk, if_neg (by omega)]

end Ipv6Fixed

/-- A packet is classified by what its header leads to. -/
theorem protocolFilterIp_congr (globals : FilterGlobals) (fuel : Nat) {data data' : List UInt8}
    {len len' type type' hdrLen hdrLen' proto : Nat}
    (header : ipHeader data len type = some (hdrLen, proto))
    (header' : ipHeader data' len' type' = some (hdrLen', proto))
    (same : data.drop hdrLen = data'.drop hdrLen') (left : len - hdrLen = len' - hdrLen') :
    protocolFilterIp globals fuel data len type = protocolFilterIp globals fuel data' len' type' := by
  cases fuel with
  | zero => rfl
  | succ fuel => simp only [protocolFilterIp, header, header', same, left]

/-- A chain of fragment and authentication headers with something behind it is walked over as the
RFCs define its length, up to the first protocol that is no extension header, and the packet is
classified like the one without the chain. -/
theorem walked_of_measured {upper : UInt8} (last : ExtHeader.IsUpper upper)
    (headers : List ExtHeader) (measured : ∀ header ∈ headers, header.Measured)
    (payload : List UInt8) (followed : headers ≠ [] → payload ≠ []) :
    getIpv6HdrLen (firstProto upper headers).toNat
        (bytes upper headers ++ payload) (total headers + payload.length) =
      (upper.toNat, total headers) ∧
    ∀ (globals : FilterGlobals) (fixed : Ipv6Fixed) (fuel : Nat),
      protocolFilterIp globals fuel
          (fixed.packet (firstProto upper headers)
            (bytes upper headers ++ payload))
          (40 + (total headers + payload.length)) rteEtherTypeIpv6 =
        protocolFilterIp globals fuel (fixed.packet upper payload) (40 + payload.length)
          rteEtherTypeIpv6 := by
  have walk := getIpv6HdrLen_bytes last headers measured payload followed
  refine ⟨walk, fun globals fixed fuel => ?_⟩
  have plain := getIpv6HdrLen_none payload.length (last.ipv6ExtHdrLen payload)
  refine protocolFilterIp_congr globals fuel
    (fixed.ipHeader_packet _ _ (Nat.le_add_right _ _) walk)
    (fixed.ipHeader_packet _ _ (Nat.zero_le _) plain) ?_ ?_
  · rw [← drop_drop, fixed.drop_packet, fixed.drop_packet,
      drop_left' (length_bytes upper headers)]
  · omega

/-- A TCP segment to port 80 in 20 bytes. -/
def toPort80 : List UInt8 := [4, 0, 0, 80] ++ replicate 16 0

/-- A fragment header in front of an authentication header of 16 bytes. -/
def fragmentThenAh : List ExtHeader :=
  [⟨.fragment, 0, [0, 0, 0, 0, 0, 7], by decide⟩, ⟨.ah, 2, replicate 14 1, by decide⟩]

theorem isUpper_tcp : ExtHeader.IsUpper 6 := by
  intro kind
  cases kind <;> decide

theorem walked_fragmentThenAh :
    getIpv6HdrLen 44 (bytes 6 fragmentThenAh ++ toPort80) 44 = (6, 24) :=
  (walked_of_measured isUpper_tcp fragmentThenAh (by decide) toPort80 (by decide)).1

/-- Hop-by-hop options of eight bytes. -/
def options : List ExtHeader := [⟨.hopopts, 0, [1, 4, 0, 0, 0, 0], by decide⟩]

/-- An IPv6 header with two addresses. -/
def fixedHeader : Ipv6Fixed :=
  ⟨[0x60, 0, 0, 0, 0, 28], 64 :: replicate 32 1, by decide, by decide⟩

/-- TCP port 80 belongs to the kernel. -/
def port80 : FilterGlobals :=
  ⟨true, fun index => if index = 80 * 256 / 8 then 0x80 else 0, fun _ => 0⟩

/-- The eight bytes of the options are taken for one byte, and the segment behind them is looked for
inside of them; a chain that ends with the packet leaves its own number as the protocol. -/
theorem not_walked_options :
    (getIpv6HdrLen 0 (bytes 6 options ++ toPort80) 28 = (6, 1) ∧
      total options = 8 ∧
      protocolFilterIp port80 1 (fixedHeader.packet 0 (bytes 6 options ++ toPort80)) 68
          rteEtherTypeIpv6 = some .unknown ∧
      protocolFilterIp port80 1 (fixedHeader.packet 6 toPort80) 60 rteEtherTypeIpv6 =
        some .kni) ∧
    getIpv6HdrLen 44 (bytes 59 (fragmentThenAh.take 1)) 8 = (44, 8) := by
  decide +kernel

end FStack
