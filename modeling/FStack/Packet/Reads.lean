import FStack.Packet.Recursion

/-!
# What the classifier reads

The accesses of the classifier to a frame, in the order of the source: the bytes it reads, by
their offset from the start of the frame, and the calls of its parts, with the offset of what they
get and the length they are told.

Every part compares its length with the size of its header before it reads, but for two: the
Ethernet header is read if there are six bytes, and the VLAN header and the length of an extension
header in any case.
-/

namespace FStack

open List

/-- An access to a frame. -/
inductive Access where
  | read (offset : Nat)
  /-- A part of the classifier gets a pointer and a length. -/
  | layer (offset len : Nat)
  /-- `get_ipv6_hdr_len` is called for a protocol. -/
  | extension (proto offset len : Nat)
deriving DecidableEq, Repr

namespace Access

/-- The accesses of `get_ipv6_hdr_len`. -/
def ofIpv6HdrLen (frame : List UInt8) (proto offset len : Nat) : List Access :=
  .extension proto offset len ::
  match _found : ipv6ExtHdrLen proto (frame.drop offset) with
  | none => []
  | some extLen =>
    -- the length of a fragment header is not read
    (if proto = 44 then [] else [.read (offset + 1)]) ++
    if len ≤ extLen then []
    else .read offset ::
      ofIpv6HdrLen frame (byteAt frame offset) (offset + extLen) (len - extLen)
termination_by len
decreasing_by
  have positive := ipv6ExtHdrLen_pos _found
  omega

/-- Those of `protocol_filter_ip` to the header. -/
def ofIpHeader (frame : List UInt8) (offset len ethFrameType : Nat) : List Access :=
  if ethFrameType = rteEtherTypeIpv4 then
    if len < 20 then []
    else .read offset ::
      if len < byteAt frame offset % 16 * 4 then [] else [.read (offset + 9)]
  else if ethFrameType = rteEtherTypeIpv6 then
    if len < 40 then []
    else .read (offset + 6) ::
      ofIpv6HdrLen frame (byteAt frame (offset + 6)) (offset + 40) (len - 40)
  else []

/-- Those of `protocol_filter_tcp` and `protocol_filter_udp` to the destination port. -/
def ofPort (size offset len : Nat) : List Access :=
  if len < size then [] else [.read (offset + 2), .read (offset + 3)]

def ofIcmp6 (offset len : Nat) : List Access := if len < 8 then [] else [.read offset]

/-- Those of `protocol_filter_ip`, up to some depth of packets inside packets. -/
def ofIp (globals : FilterGlobals) (frame : List UInt8) : Nat → Nat → Nat → Nat → List Access
  | 0, _, _, _ => []
  | fuel + 1, offset, len, ethFrameType =>
    .layer offset len :: ofIpHeader frame offset len ethFrameType ++
    match ipHeader (frame.drop offset) len ethFrameType with
    | none => []
    | some (hdrLen, proto) =>
      if proto = 6 then
        if globals.enableKni then
          .layer (offset + hdrLen) (len - hdrLen) ::
            ofPort 20 (offset + hdrLen) (len - hdrLen)
        else []
      else if proto = 17 then
        if globals.enableKni then
          .layer (offset + hdrLen) (len - hdrLen) :: ofPort 8 (offset + hdrLen) (len - hdrLen)
        else []
      else if proto = 4 then
        ofIp globals frame fuel (offset + hdrLen) (len - hdrLen) rteEtherTypeIpv4
      else if proto = 41 then
        ofIp globals frame fuel (offset + hdrLen) (len - hdrLen) rteEtherTypeIpv6
      else if proto = 58 then
        .layer (offset + hdrLen) (len - hdrLen) :: ofIcmp6 (offset + hdrLen) (len - hdrLen)
      else []

/-- Those of `protocol_filter` behind the Ethernet and VLAN headers. -/
def ofPayload (globals : FilterGlobals) (fuel : Nat) (frame : List UInt8)
    (etherType offset len : Nat) : List Access :=
  if etherType = rteEtherTypeArp then []
  else if etherType = rteEtherTypeIpv6 then ofIp globals frame fuel offset len etherType
  else if !globals.enableKni then []
  else if etherType ≠ rteEtherTypeIpv4 then []
  else ofIp globals frame fuel offset len etherType

/-- Those of `protocol_filter`, up to some depth. -/
def ofFrame (globals : FilterGlobals) (fuel : Nat) (frame : List UInt8) (len : Nat) : List Access :=
  .layer 0 len ::
  if len < rteEtherAddrLen then []
  else
    let (etherType, _, left) := etherPayload frame len
    if be16At frame 12 = rteEtherTypeVlan then
      [.read 12, .read 13, .read (rteEtherHdrLen + 2), .read (rteEtherHdrLen + 3)] ++
        ofPayload globals fuel frame etherType (rteEtherHdrLen + rteVlanHdrLen) left
    else [.read 12, .read 13] ++ ofPayload globals fuel frame etherType rteEtherHdrLen left

/-- A byte of the frame is read; a length is that of what is left of the frame. -/
def Exact (len : Nat) : Access → Prop
  | .read offset => offset < len
  | .layer offset left => offset + left = len
  | .extension _ offset left => offset + left = len

instance (len : Nat) : DecidablePred (Exact len)
  | .read _ => inferInstanceAs (Decidable (_ < _))
  | .layer _ _ => inferInstanceAs (Decidable (_ = _))
  | .extension _ _ _ => inferInstanceAs (Decidable (_ = _))

/-- The protocols whose header has a length that is read. -/
def hasLength (proto : Nat) : Bool := proto ∈ [0, 43, 60, 135, 139, 140, 51]

end Access

open Access Descent

/-- The extension headers from one on that have a length are there with their first two bytes. -/
def ExtCall.Begun (call : ExtCall) : Prop :=
  ∀ depth outer, after nested call depth = some outer → hasLength outer.proto = true → 2 ≤ outer.len

/-- The extension headers behind a complete IPv6 header are. -/
def IpCall.Begun (call : IpCall) : Prop :=
  call.ethFrameType = rteEtherTypeIpv6 → 40 ≤ call.len →
    ExtCall.Begun ⟨byteAt call.data 6, call.data.drop 40, call.len - 40⟩

namespace Access

/-- Those of the packet behind the Ethernet and VLAN headers are, if it is looked at, and those of
the packets inside it up to some depth. -/
def PayloadBegun (globals : FilterGlobals) (fuel : Nat) (payload : Nat × List UInt8 × Nat) : Prop :=
  (payload.1 = rteEtherTypeIpv6 ∨ globals.enableKni = true ∧ payload.1 = rteEtherTypeIpv4) →
    ∀ depth call, after IpCall.nested ⟨payload.2.1, payload.2.2, payload.1⟩ depth = some call →
      depth < fuel → call.Begun

section Bounds

variable {frame : List UInt8} {proto offset len total : Nat}

theorem ofIpv6HdrLen_none (len : Nat) (found : ipv6ExtHdrLen proto (frame.drop offset) = none) :
    ofIpv6HdrLen frame proto offset len = [.extension proto offset len] := by
  rw [ofIpv6HdrLen]
  split <;> simp_all

theorem ofIpv6HdrLen_some {extLen : Nat} (len : Nat)
    (found : ipv6ExtHdrLen proto (frame.drop offset) = some extLen) :
    ofIpv6HdrLen frame proto offset len = .extension proto offset len ::
      ((if proto = 44 then [] else [.read (offset + 1)]) ++
        if len ≤ extLen then []
        else .read offset ::
          ofIpv6HdrLen frame (byteAt frame offset) (offset + extLen) (len - extLen)) := by
  rw [ofIpv6HdrLen]
  split <;> simp_all

/-- A header has a length field exactly if it is an extension other than a fragment. -/
theorem hasLength_iff (proto : Nat) (data : List UInt8) :
    hasLength proto = true ↔ proto ≠ 44 ∧ (ipv6ExtHdrLen proto data).isSome = true := by
  unfold ipv6ExtHdrLen
  split_ifs <;> simp_all [hasLength]
  omega

section

variable (here : offset + len = total)

include here

/-- The walk stays in the frame exactly if each header is there that has a length. -/
theorem ofIpv6HdrLen_exact_iff :
    (∀ access ∈ ofIpv6HdrLen frame proto offset len, access.Exact total) ↔
      ExtCall.Begun ⟨proto, frame.drop offset, len⟩ := by
  induction len using Nat.strongRecOn generalizing proto offset with
  | ind len ih =>
    have has := hasLength_iff proto (frame.drop offset)
    unfold ExtCall.Begun
    rw [forall_after_iff]
    cases found : ipv6ExtHdrLen proto (frame.drop offset) with
    | none =>
      rw [ofIpv6HdrLen_none len found, forall_mem_singleton]
      rw [found] at has
      refine iff_of_true here ⟨fun length => ?_, fun second next => ?_⟩
      · cases (has.mp length).2
      · rw [ExtCall.nested, found] at next
        cases next
    | some extLen =>
      have positive := ipv6ExtHdrLen_pos found
      have nested : ExtCall.nested ⟨proto, frame.drop offset, len⟩ =
          if len ≤ extLen then none
          else some ⟨byteAt (frame.drop offset) 0, (frame.drop offset).drop extLen, len - extLen⟩ := by
        rw [ExtCall.nested, found]
        rfl
      rw [found] at has
      rw [ofIpv6HdrLen_some len found, forall_mem_cons, forall_mem_append]
      refine (and_iff_right here).trans (and_congr ?_ ?_)
      · by_cases fragment : proto = 44
        · rw [if_pos fragment]
          exact iff_of_true (forall_mem_nil _) fun length => absurd fragment (has.mp length).1
        · rw [if_neg fragment, forall_mem_singleton, forall_prop_of_true (has.mpr ⟨fragment, rfl⟩)]
          change offset + 1 < total ↔ 2 ≤ len
          omega
      · rw [nested]
        by_cases short : len ≤ extLen
        · rw [if_pos short, if_pos short]
          exact iff_of_true (forall_mem_nil _) fun _ next => by cases next
        · rw [if_neg short, if_neg short, forall_mem_cons]
          have inside : (Access.read offset).Exact total := by
            change offset < total
            omega
          rw [and_iff_right inside, ih (len - extLen) (by omega) (by omega)]
          simp only [Option.some.injEq, forall_eq', drop_drop, byteAt_drop, Nat.add_zero]
          rfl

/-- The header is read inside the frame exactly if its extensions are there with their lengths. -/
theorem ofIpHeader_exact_iff {ethFrameType : Nat} :
    (∀ access ∈ ofIpHeader frame offset len ethFrameType, access.Exact total) ↔
      IpCall.Begun ⟨frame.drop offset, len, ethFrameType⟩ := by
  unfold ofIpHeader IpCall.Begun
  dsimp only
  split_ifs with ipv4 short long ipv6 short
  · exact iff_of_true (forall_mem_nil _) fun ipv6 => absurd (ipv4.symm.trans ipv6) (by decide)
  · refine iff_of_true (forall_mem_singleton.mpr ?_)
      fun ipv6 => absurd (ipv4.symm.trans ipv6) (by decide)
    change offset < total
    omega
  · refine iff_of_true ?_ fun ipv6 => absurd (ipv4.symm.trans ipv6) (by decide)
    rw [forall_mem_cons, forall_mem_singleton]
    change offset < total ∧ offset + 9 < total
    omega
  · exact iff_of_true (forall_mem_nil _) fun _ long => absurd long (by omega)
  · have inside : (Access.read (offset + 6)).Exact total := by
      change offset + 6 < total
      omega
    rw [forall_mem_cons, and_iff_right inside, ofIpv6HdrLen_exact_iff (by omega),
      forall_prop_of_true ipv6, forall_prop_of_true (by omega), drop_drop, byteAt_drop]
  · exact iff_of_true (forall_mem_nil _) fun ipv6' => absurd ipv6' ipv6

/-- A complete header is read inside the packet. -/
theorem ofPort_exact {size : Nat} (fits : 4 ≤ size) :
    ∀ access ∈ .layer offset len :: ofPort size offset len, access.Exact total := by
  rw [forall_mem_cons]
  refine ⟨here, ?_⟩
  unfold ofPort
  split_ifs
  · exact forall_mem_nil _
  · rw [forall_mem_cons, forall_mem_singleton]
    change offset + 2 < total ∧ offset + 3 < total
    omega

/-- The type of ICMPv6 is read inside the packet. -/
theorem ofIcmp6_exact : ∀ access ∈ .layer offset len :: ofIcmp6 offset len, access.Exact total := by
  rw [forall_mem_cons]
  refine ⟨here, ?_⟩
  unfold ofIcmp6
  split_ifs
  · exact forall_mem_nil _
  · refine forall_mem_singleton.mpr ?_
    change offset < total
    omega

end

section

variable (globals : FilterGlobals) (here : offset + len = total)

include here

/-- The accesses up to some depth are those of the packets that are reached on the way. -/
theorem ofIp_exact_iff {fuel ethFrameType : Nat} :
    (∀ access ∈ ofIp globals frame fuel offset len ethFrameType, access.Exact total) ↔
      ∀ depth call, after IpCall.nested ⟨frame.drop offset, len, ethFrameType⟩ depth = some call →
        depth < fuel → call.Begun := by
  induction fuel generalizing offset len ethFrameType with
  | zero => exact iff_of_true (forall_mem_nil _) fun _ _ _ none => absurd none (Nat.not_lt_zero _)
  | succ fuel ih =>
    have top : (Access.layer offset len).Exact total := here
    unfold ofIp
    rw [forall_after_iff, cons_append, forall_mem_cons, forall_mem_append, and_iff_right top,
      ofIpHeader_exact_iff here, forall_prop_of_true (Nat.succ_pos fuel)]
    refine and_congr_right fun _ => ?_
    simp only [Nat.add_lt_add_iff_right, IpCall.nested]
    cases found : ipHeader (frame.drop offset) len ethFrameType with
    | none => exact iff_of_true (forall_mem_nil _) fun _ next => by cases next
    | some next =>
      obtain ⟨hdrLen, proto⟩ := next
      have inside := ipHeader_le found
      have there : offset + hdrLen + (len - hdrLen) = total := by omega
      simp only [Option.bind_some, drop_drop]
      by_cases ipip : proto = 4
      · subst ipip
        simpa using ih there
      by_cases ipv6 : proto = 41
      · subst ipv6
        simpa using ih there
      simp only [if_neg ipip, if_neg ipv6]
      refine iff_of_true ?_ fun _ next => by cases next
      split_ifs
      · exact ofPort_exact there (by decide)
      · exact forall_mem_nil _
      · exact ofPort_exact there (by decide)
      · exact forall_mem_nil _
      · exact ofIcmp6_exact there
      · exact forall_mem_nil _

/-- The payload is read inside the frame exactly if that is so of every header on the way. -/
theorem ofPayload_exact_iff {fuel etherType : Nat} :
    (∀ access ∈ ofPayload globals fuel frame etherType offset len, access.Exact total) ↔
      PayloadBegun globals fuel (etherType, frame.drop offset, len) := by
  unfold ofPayload PayloadBegun
  rw [← ofIp_exact_iff globals here]
  dsimp only
  split_ifs with arp ipv6 off other
  · refine iff_of_true (forall_mem_nil _) fun looked => ?_
    rw [arp] at looked
    rcases looked with ipv6 | ⟨-, ipv4⟩ <;> contradiction
  · rw [forall_prop_of_true (Or.inl ipv6)]
  · exact iff_of_true (forall_mem_nil _) fun looked => by simp_all
  · exact iff_of_true (forall_mem_nil _) fun looked => by simp_all
  · rw [forall_prop_of_true (Or.inr ⟨by simpa using off, not_not.mp other⟩)]

end

/-- Every byte that is read belongs to the frame, and every length handed on is the exact number
of bytes left, for every content, exactly if the Ethernet and VLAN headers of a frame that is looked
at are complete, and extension headers are there with their lengths. -/
theorem exact_iff (globals : FilterGlobals) (fuel : Nat) (small : len < 65536) :
    (∀ access ∈ ofFrame globals fuel frame len, access.Exact len) ↔
      (rteEtherAddrLen ≤ len → HeaderComplete frame len ∧
        PayloadBegun globals fuel (etherPayload frame len)) := by
  have top : (Access.layer 0 len).Exact len := Nat.zero_add len
  unfold ofFrame
  rw [forall_mem_cons, and_iff_right top]
  by_cases tiny : len < rteEtherAddrLen
  · rw [if_pos tiny]
    exact iff_of_true (forall_mem_nil _) fun long => absurd tiny (not_lt.mpr long)
  rw [if_neg tiny, forall_prop_of_true (not_lt.mp tiny)]
  unfold etherPayload HeaderComplete
  by_cases tagged : be16At frame 12 = rteEtherTypeVlan
  · have reads : (∀ access ∈ [Access.read 12, .read 13, .read (rteEtherHdrLen + 2),
        .read (rteEtherHdrLen + 3)], access.Exact len) ↔
        rteEtherHdrLen ≤ len ∧ rteEtherHdrLen + rteVlanHdrLen ≤ len := by
      simp only [forall_mem_cons, not_mem_nil, IsEmpty.forall_iff, implies_true, and_true, Exact,
        rteEtherHdrLen, rteVlanHdrLen]
      omega
    simp only [if_pos tagged, forall_mem_append, forall_prop_of_true tagged, reads]
    refine and_congr_right fun ⟨ether, vlan⟩ => ?_
    rw [shrink16_eq_sub small ether, shrink16_eq_sub (by omega) (by omega), drop_drop]
    exact ofPayload_exact_iff globals (by omega)
  · have reads : (∀ access ∈ [Access.read 12, .read 13], access.Exact len) ↔
        rteEtherHdrLen ≤ len := by
      simp only [forall_mem_cons, not_mem_nil, IsEmpty.forall_iff, implies_true, and_true, Exact,
        rteEtherHdrLen]
      omega
    simp only [if_neg tagged, forall_mem_append, reads, forall_prop_of_false tagged, and_true]
    refine and_congr_right fun ether => ?_
    rw [shrink16_eq_sub small ether]
    exact ofPayload_exact_iff globals (by omega)

end Bounds

/-- A tagged frame with a TCP segment behind a fragment header. -/
def taggedFragment : List UInt8 :=
  replicate 12 2 ++ [0x81, 0, 0, 7, 0x86, 0xDD] ++
    [0x60, 0, 0, 0, 0, 28, 44, 64] ++ replicate 32 1 ++ [6, 0, 0, 0, 0, 0, 0, 9] ++
    replicate 20 0

/-- A fragment with a VLAN tag. -/
theorem exact_taggedFragment :
    HeaderComplete taggedFragment 86 ∧
      PayloadBegun noPorts 3 (etherPayload taggedFragment 86) :=
  (exact_iff noPorts 3 (by decide)).mp (by decide +kernel) (by decide)

/-- Two Ethernet addresses with an IPv4 type behind them. -/
def addresses : List UInt8 := replicate 12 2 ++ [8, 0]

/-- An IPv6 header at the end of a frame that announces hop-by-hop options. -/
def announced : List UInt8 :=
  replicate 12 2 ++ [0x86, 0xDD] ++ [0x60, 0, 0, 0, 0, 0, 0, 64] ++ replicate 32 1

/-- A frame of six bytes has no Ethernet type: it is read behind the frame, and an IP header is
looked for in 65528 bytes. The length of options that are announced and not there is read behind
the frame as well. -/
theorem not_exact_cut :
    (.read 12 ∈ ofFrame noPorts 1 addresses 6 ∧ ¬ (Access.read 12).Exact 6 ∧
      .layer 14 65528 ∈ ofFrame noPorts 1 addresses 6 ∧ ¬ (Access.layer 14 65528).Exact 6) ∧
    (HeaderComplete announced 54 ∧
      .read 55 ∈ ofFrame noPorts 1 announced 54 ∧ ¬ (Access.read 55).Exact 54) := by
  decide +kernel

/-! ## The accesses are all there are -/

/-- Two frames have the same bytes where one of them is read. -/
def Agree (accesses : List Access) (frame frame' : List UInt8) : Prop :=
  ∀ offset, .read offset ∈ accesses → byteAt frame offset = byteAt frame' offset

/-- At least where it is read before some offset. -/
def AgreeBelow (total : Nat) (accesses : List Access) (frame frame' : List UInt8) : Prop :=
  ∀ offset < total, .read offset ∈ accesses → byteAt frame offset = byteAt frame' offset

/-- Where the payload of a frame begins. -/
def start (frame : List UInt8) : Nat :=
  if be16At frame 12 = rteEtherTypeVlan then rteEtherHdrLen + rteVlanHdrLen else rteEtherHdrLen

section Agree

variable {frame frame' : List UInt8} {proto offset len total ethFrameType : Nat}
  {accesses : List Access}

theorem Agree.below (agree : Agree accesses frame frame') (total : Nat) :
    AgreeBelow total accesses frame frame' := fun offset _ there => agree offset there

theorem AgreeBelow.mono {fewer : List Access} (agree : AgreeBelow total accesses frame frame')
    (subset : fewer ⊆ accesses) : AgreeBelow total fewer frame frame' :=
  fun place inside there => agree place inside (subset there)

/-- A byte that is read is the same in both frames. -/
theorem AgreeBelow.byteAt_eq (agree : AgreeBelow total accesses frame frame') {index : Nat}
    (inside : offset + index < total) (there : .read (offset + index) ∈ accesses) :
    byteAt (frame.drop offset) index = byteAt (frame'.drop offset) index := by
  rw [byteAt_drop, byteAt_drop]
  exact agree _ inside there

/-- Which protocols have a header does not depend on the packet. -/
theorem ipv6ExtHdrLen_isSome (proto : Nat) (data data' : List UInt8) :
    (ipv6ExtHdrLen proto data).isSome = (ipv6ExtHdrLen proto data').isSome := by
  unfold ipv6ExtHdrLen
  split_ifs <;> rfl

/-- What the extension header walk finds depends on the bytes it reads. The one length byte that
it may read behind the end does not matter: any value ends the walk. -/
theorem AgreeBelow.getIpv6HdrLen_eq (here : offset + len = total)
    (agree : AgreeBelow total (ofIpv6HdrLen frame proto offset len) frame frame') :
    getIpv6HdrLen proto (frame.drop offset) len = getIpv6HdrLen proto (frame'.drop offset) len := by
  induction len using Nat.strongRecOn generalizing proto offset with
  | ind len ih =>
    have kind := ipv6ExtHdrLen_isSome proto (frame.drop offset) (frame'.drop offset)
    cases found : ipv6ExtHdrLen proto (frame.drop offset) with
    | none =>
      rw [found] at kind
      rw [getIpv6HdrLen_none len found,
        getIpv6HdrLen_none len (Option.isNone_iff_eq_none.mp (by simpa using kind))]
    | some extLen =>
      rw [found] at kind
      obtain ⟨extLen', found'⟩ := Option.isSome_iff_exists.mp kind.symm
      have positive := ipv6ExtHdrLen_pos found
      have positive' := ipv6ExtHdrLen_pos found'
      rw [getIpv6HdrLen_some len found, getIpv6HdrLen_some len found']
      by_cases short : len ≤ 1
      · rw [if_pos (by omega), if_pos (by omega)]
      rw [ofIpv6HdrLen_some len found] at agree
      obtain rfl : extLen = extLen' := by
        refine Option.some.inj (found.symm.trans (trans ?_ found'))
        by_cases fragment : proto = 44
        · subst fragment
          rfl
        · unfold ipv6ExtHdrLen
          rw [agree.byteAt_eq (by omega) (by simp [fragment])]
      by_cases last : len ≤ extLen
      · rw [if_pos last, if_pos last]
      · rw [if_neg last] at agree
        have next : byteAt (frame.drop offset) 0 = byteAt (frame'.drop offset) 0 :=
          agree.byteAt_eq (by omega) (by simp)
        have later : AgreeBelow total (ofIpv6HdrLen frame (byteAt frame offset) (offset + extLen)
            (len - extLen)) frame frame' := agree.mono fun access there => by simp [there]
        rw [if_neg last, if_neg last, ← next, drop_drop, drop_drop, byteAt_drop, Nat.add_zero,
          ih (len - extLen) (by omega) (by omega) later]

/-- The header depends on the bytes that are read only. -/
theorem AgreeBelow.ipHeader_eq (here : offset + len = total)
    (agree : AgreeBelow total (ofIpHeader frame offset len ethFrameType) frame frame') :
    ipHeader (frame.drop offset) len ethFrameType =
      ipHeader (frame'.drop offset) len ethFrameType := by
  unfold ipHeader
  unfold ofIpHeader at agree
  by_cases ipv4 : ethFrameType = rteEtherTypeIpv4
  · rw [if_pos ipv4, if_pos ipv4]
    by_cases short : len < 20
    · rw [if_pos short, if_pos short]
    rw [if_pos ipv4, if_neg short] at agree
    have words : byteAt (frame.drop offset) 0 = byteAt (frame'.drop offset) 0 :=
      agree.byteAt_eq (by omega) mem_cons_self
    rw [if_neg short, if_neg short, ← words]
    by_cases long : len < byteAt (frame.drop offset) 0 % 16 * 4
    · simp only [if_pos long]
    rw [byteAt_drop, Nat.add_zero] at long
    have proto : byteAt (frame.drop offset) 9 = byteAt (frame'.drop offset) 9 :=
      agree.byteAt_eq (by omega) (by simp [long])
    rw [proto]
  · rw [if_neg ipv4, if_neg ipv4]
    by_cases ipv6 : ethFrameType = rteEtherTypeIpv6
    · by_cases short : len < 40
      · rw [if_pos short, if_pos short]
      rw [if_neg ipv4, if_pos ipv6, if_neg short] at agree
      have proto : byteAt (frame.drop offset) 6 = byteAt (frame'.drop offset) 6 :=
        agree.byteAt_eq (by omega) mem_cons_self
      have walk : AgreeBelow total (ofIpv6HdrLen frame (byteAt frame (offset + 6)) (offset + 40)
          (len - 40)) frame frame' := agree.mono (subset_cons_self _ _)
      rw [if_pos ipv6, if_pos ipv6, if_neg short, if_neg short, ← proto, drop_drop, drop_drop,
        byteAt_drop, walk.getIpv6HdrLen_eq (by omega)]
    · rw [if_neg ipv6, if_neg ipv6]

/-- So is the port. -/
theorem AgreeBelow.le16At_eq {size : Nat} (here : offset + len = total) (fits : 4 ≤ size)
    (long : ¬ len < size) (agree : AgreeBelow total (ofPort size offset len) frame frame') :
    le16At (frame.drop offset) 2 = le16At (frame'.drop offset) 2 := by
  rw [ofPort, if_neg long] at agree
  unfold le16At
  rw [agree.byteAt_eq (by omega) (by simp), agree.byteAt_eq (by omega) (by simp)]

/-- The verdict depends on the bytes that are read only. -/
theorem AgreeBelow.protocolFilterIp_eq (globals : FilterGlobals) {fuel : Nat}
    (here : offset + len = total)
    (agree : AgreeBelow total (ofIp globals frame fuel offset len ethFrameType) frame frame') :
    protocolFilterIp globals fuel (frame.drop offset) len ethFrameType =
      protocolFilterIp globals fuel (frame'.drop offset) len ethFrameType := by
  induction fuel generalizing offset len ethFrameType with
  | zero => rfl
  | succ fuel ih =>
    unfold ofIp at agree
    unfold protocolFilterIp
    have header : AgreeBelow total (ofIpHeader frame offset len ethFrameType) frame frame' :=
      agree.mono fun access there => by simp [there]
    rw [← header.ipHeader_eq here]
    cases found : ipHeader (frame.drop offset) len ethFrameType with
    | none => rfl
    | some next =>
      obtain ⟨hdrLen, proto⟩ := next
      have inside := ipHeader_le found
      have there : offset + hdrLen + (len - hdrLen) = total := by omega
      rw [found] at agree
      replace agree := agree.mono (subset_append_right _ _)
      dsimp only at agree ⊢
      rw [drop_drop, drop_drop]
      split_ifs at agree ⊢
      · unfold protocolFilterTcp
        split_ifs with short
        · rfl
        · rw [(agree.mono (subset_cons_self _ _)).le16At_eq there (by decide) short]
      · rfl
      · unfold protocolFilterUdp
        split_ifs with short
        · rfl
        · rw [(agree.mono (subset_cons_self _ _)).le16At_eq there (by decide) short]
      · rfl
      · exact ih there agree
      · exact ih there agree
      · unfold protocolFilterIcmp6
        by_cases short : len - hdrLen < 8
        · rw [if_pos short, if_pos short]
        · rw [ofIcmp6, if_neg short] at agree
          rw [agree.byteAt_eq (by omega) (by simp)]
      · rfl

variable (type : be16At frame 12 = be16At frame' 12)
  (inner : be16At frame 12 = rteEtherTypeVlan →
    be16At (frame.drop rteEtherHdrLen) 2 = be16At (frame'.drop rteEtherHdrLen) 2)

include type inner

/-- Both frames have their payload at the same place. -/
theorem etherPayload_eq :
    etherPayload frame' len =
      ((etherPayload frame len).1, frame'.drop (start frame), (etherPayload frame len).2.2) := by
  unfold etherPayload start
  rw [← type]
  dsimp only
  split_ifs with tagged
  · rw [inner tagged, drop_drop]
  · rfl

/-- The class of a frame is decided by its type and by what is read behind its headers. -/
theorem protocolFilter_eq (globals : FilterGlobals)
    (payload : ∀ fuel, AgreeBelow (start frame + (etherPayload frame len).2.2)
      (ofPayload globals fuel frame (etherPayload frame len).1 (start frame)
        (etherPayload frame len).2.2) frame frame') :
    protocolFilter globals frame len = protocolFilter globals frame' len := by
  unfold protocolFilter
  rw [etherPayload_eq type inner, @etherPayload_eq frame frame len rfl fun _ => rfl]
  unfold ofPayload at payload
  dsimp only
  split_ifs at payload ⊢ <;> first | rfl | exact (payload _).protocolFilterIp_eq globals rfl

end Agree

/-- The class of a frame depends on the bytes that are read and on nothing else. -/
theorem protocolFilter_eq_of_agree (globals : FilterGlobals) {frame frame' : List UInt8} {len : Nat}
    (agree : ∀ fuel, Agree (ofFrame globals fuel frame len) frame frame') :
    protocolFilter globals frame len = protocolFilter globals frame' len := by
  unfold ofFrame at agree
  by_cases tiny : len < rteEtherAddrLen
  · rw [protocolFilter, protocolFilter, if_pos tiny, if_pos tiny]
  simp only [if_neg tiny] at agree
  refine protocolFilter_eq ?_ (fun tagged => ?_) globals fun fuel => ?_
  · unfold be16At
    rw [agree 0 12 (by split_ifs <;> simp), agree 0 13 (by split_ifs <;> simp)]
  · simp only [if_pos tagged] at agree
    unfold be16At
    rw [byteAt_drop, byteAt_drop, byteAt_drop, byteAt_drop, agree 0 _ (by simp),
      agree 0 _ (by simp)]
  · refine AgreeBelow.mono ((agree fuel).below _) ?_
    unfold start
    split_ifs <;> exact fun access there => mem_cons_of_mem _ (mem_append_right _ there)

/-- Of an ARP frame only its type is read. -/
theorem protocolFilter_eq_arp : protocolFilter noPorts (replicate 12 1 ++ [8, 6]) 14 =
    protocolFilter noPorts (replicate 12 2 ++ [8, 6, 0, 1]) 14 := by
  refine protocolFilter_eq_of_agree noPorts fun fuel offset read => ?_
  have type : offset = 12 ∨ offset = 13 := by
    simpa [ofFrame, etherPayload, ofPayload, be16At, byteAt, rteEtherAddrLen, rteEtherTypeVlan,
      rteEtherTypeArp] using read
  rcases type with rfl | rfl <;> rfl

end Access

open Access

/-- With complete headers the class of a frame depends on its own bytes only, so
copies of it are classified alike whatever their buffers held before. -/
theorem protocolFilter_sameBytes (globals : FilterGlobals) {data data' : List UInt8} {len : Nat}
    (small : len < 65536) (complete : HeaderComplete data len) (same : SameBytes len data data') :
    protocolFilter globals data len = protocolFilter globals data' len := by
  obtain ⟨ether, vlan⟩ := complete
  have below {accesses : List Access} : AgreeBelow len accesses data data' :=
    fun place inside _ => same place inside
  have whole : start data + (etherPayload data len).2.2 = len := by
    unfold start etherPayload
    dsimp only
    rw [shrink16_eq_sub small ether]
    split_ifs with tagged
    · have room := vlan tagged
      dsimp only
      rw [shrink16_eq_sub (by omega) (by omega)]
      omega
    · exact Nat.add_sub_cancel' ether
  unfold rteEtherHdrLen at ether vlan
  unfold rteVlanHdrLen at vlan
  refine protocolFilter_eq ?_ (fun tagged => ?_) globals fun fuel => whole.symm ▸ below
  · unfold be16At
    rw [same 12 (by omega), same 13 (by omega)]
  · have room := vlan tagged
    unfold be16At
    rw [byteAt_drop, byteAt_drop, byteAt_drop, byteAt_drop, same _ (by unfold rteEtherHdrLen; omega),
      same _ (by unfold rteEtherHdrLen; omega)]

end FStack
