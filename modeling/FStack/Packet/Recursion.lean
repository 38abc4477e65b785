import FStack.Packet.Classifier
import FStack.Std.Descent

/-!
# Headers inside headers

`protocol_filter_ip` calls itself for an IP packet inside an IP packet, and `get_ipv6_hdr_len`
for every extension header. Each extension header has some bytes, so the latter returns after at
most as many calls as the packet has bytes.

The length of an IPv4 header is taken from its first byte and may be zero. If another packet is
said to be inside, that one is the same bytes again: with IPv4 inside the calls never end.
-/

namespace FStack

open Descent

/-- The arguments of `protocol_filter_ip`. -/
structure IpCall where
  data : List UInt8
  len : Nat
  ethFrameType : Nat
deriving DecidableEq, Repr

open IpCall

/-- The arguments of the call that a call makes. -/
def IpCall.nested (call : IpCall) : Option IpCall :=
  (ipHeader call.data call.len call.ethFrameType).bind fun (hdrLen, proto) =>
    if proto = 4 then some ⟨call.data.drop hdrLen, call.len - hdrLen, rteEtherTypeIpv4⟩
    else if proto = 41 then some ⟨call.data.drop hdrLen, call.len - hdrLen, rteEtherTypeIpv6⟩
    else none

/-- The arguments of `get_ipv6_hdr_len`. -/
structure ExtCall where
  proto : Nat
  data : List UInt8
  len : Nat
deriving DecidableEq, Repr

/-- The arguments of the call that a call makes. -/
def ExtCall.nested (call : ExtCall) : Option ExtCall :=
  (ipv6ExtHdrLen call.proto call.data).bind fun extLen =>
    if call.len ≤ extLen then none
    else some ⟨byteAt call.data 0, call.data.drop extLen, call.len - extLen⟩

/-- `get_ipv6_hdr_len`, as far as it comes with so many calls. -/
def getIpv6HdrLenWithin : Nat → Nat → List UInt8 → Nat → Option (Nat × Nat)
  | 0, _, _, _ => none
  | fuel + 1, proto, data, len =>
    match ipv6ExtHdrLen proto data with
    | none => some (proto, 0)
    | some extLen =>
      if len ≤ extLen then some (proto, len)
      else
        (getIpv6HdrLenWithin fuel (byteAt data 0) (data.drop extLen) (len - extLen)).map
          fun rest => (rest.1, extLen + rest.2)

section Extensions

/-- An extension header has some bytes. -/
theorem ExtCall.shrinks (call : ExtCall) : Shrinks nested ExtCall.len call := by
  intro depth outer inner _ here
  obtain ⟨extLen, found, next⟩ := Option.bind_eq_some_iff.mp here
  have positive := ipv6ExtHdrLen_pos found
  split_ifs at next with short
  cases next
  dsimp only
  omega

/-- Fuel beyond the length changes nothing. -/
theorem getIpv6HdrLenWithin_eq {fuel len : Nat} (enough : len < fuel) (proto : Nat)
    (data : List UInt8) :
    getIpv6HdrLenWithin fuel proto data len = some (getIpv6HdrLen proto data len) := by
  induction fuel generalizing proto data len with
  | zero => exact absurd enough (Nat.not_lt_zero len)
  | succ fuel ih =>
    unfold getIpv6HdrLenWithin
    cases found : ipv6ExtHdrLen proto data with
    | none => rw [getIpv6HdrLen_none len found]
    | some extLen =>
      have positive := ipv6ExtHdrLen_pos found
      rw [getIpv6HdrLen_some len found]
      dsimp only
      split_ifs with short
      · rfl
      · rw [ih (by omega)]
        rfl

end Extensions

section Packets

variable {call inner : IpCall}

/-- A packet that nests no other one needs one unit of fuel. -/
theorem protocolFilterIp_of_nested_none (globals : FilterGlobals) (last : call.nested = none) :
    ∃ result, ∀ fuel,
      protocolFilterIp globals (fuel + 1) call.data call.len call.ethFrameType = some result := by
  unfold nested at last
  unfold protocolFilterIp
  cases header : ipHeader call.data call.len call.ethFrameType with
  | none => exact ⟨_, fun _ => rfl⟩
  | some found =>
    rw [header, Option.bind_some] at last
    dsimp only at last ⊢
    split_ifs at last ⊢ <;> exact ⟨_, fun _ => rfl⟩

/-- A call that makes another has its answer from there. -/
theorem protocolFilterIp_of_nested_some (globals : FilterGlobals) (fuel : Nat)
    (next : call.nested = some inner) :
    protocolFilterIp globals (fuel + 1) call.data call.len call.ethFrameType =
      protocolFilterIp globals fuel inner.data inner.len inner.ethFrameType := by
  obtain ⟨⟨hdrLen, proto⟩, header, next⟩ := Option.bind_eq_some_iff.mp next
  rw [protocolFilterIp, header]
  dsimp only at next ⊢
  split_ifs at next with ipip ipv6
  · cases next
    subst ipip
    rfl
  · cases next
    subst ipv6
    rfl

/-- Calls a packet of the given length can still make before it has to shrink. -/
def filterBound (len ethFrameType : Nat) : Nat :=
  2 * len + if ethFrameType = rteEtherTypeIpv4 then 2 else 1

/-- A nested call needs one call less, unless it is the same call again. -/
theorem IpCall.filterBound_nested (next : call.nested = some inner) :
    filterBound inner.len inner.ethFrameType < filterBound call.len call.ethFrameType ∨
      inner = call := by
  obtain ⟨⟨hdrLen, proto⟩, header, next⟩ := Option.bind_eq_some_iff.mp next
  have inside := ipHeader_le header
  have positive := ipHeader_pos header
  obtain ⟨data, len, ethFrameType⟩ := call
  dsimp only at *
  unfold filterBound
  split_ifs at next <;> cases next <;> dsimp only
  · rcases Nat.eq_zero_or_pos hdrLen with rfl | some
    · obtain rfl : ethFrameType = rteEtherTypeIpv4 := by
        by_contra notIpv4
        exact Nat.lt_irrefl 0 (positive notIpv4)
      exact Or.inr rfl
    · left
      split_ifs <;> omega
  · left
    rw [if_neg (by decide : rteEtherTypeIpv6 ≠ rteEtherTypeIpv4)]
    split_ifs <;> omega

section

variable (globals : FilterGlobals)

include globals

/-- A call that makes itself again never returns. -/
theorem protocolFilterIp_diverges (again : call.nested = some call) (fuel : Nat) :
    protocolFilterIp globals fuel call.data call.len call.ethFrameType = none := by
  induction fuel with
  | zero => rfl
  | succ fuel ih => rw [protocolFilterIp_of_nested_some globals fuel again, ih]

/-- Fuel at or above the bound no longer changes the answer, so `none` there
means that the source call never returns. -/
theorem protocolFilterIp_stable {fuel fuel' : Nat}
    (enough : filterBound call.len call.ethFrameType ≤ fuel)
    (enough' : filterBound call.len call.ethFrameType ≤ fuel') :
    protocolFilterIp globals fuel call.data call.len call.ethFrameType =
      protocolFilterIp globals fuel' call.data call.len call.ethFrameType := by
  have positive : 0 < filterBound call.len call.ethFrameType := by
    unfold filterBound
    split <;> omega
  induction fuel generalizing fuel' call with
  | zero => omega
  | succ fuel ih =>
    obtain _ | fuel' := fuel'
    · omega
    cases next : call.nested with
    | none =>
      obtain ⟨result, returns⟩ := protocolFilterIp_of_nested_none globals next
      rw [returns, returns]
    | some inner =>
      rcases filterBound_nested next with less | rfl
      · rw [protocolFilterIp_of_nested_some globals fuel next,
          protocolFilterIp_of_nested_some globals fuel' next]
        exact ih (by omega) (by omega) (by unfold filterBound; split <;> omega)
      · rw [protocolFilterIp_diverges globals next, protocolFilterIp_diverges globals next]

/-- The answer of `ff_kni_proto_filter` is the answer of the source call for any
amount of fuel that lets it return. -/
theorem ffKniProtoFilter_eq_some_iff (data : List UInt8) (len ethFrameType : Nat)
    (result : FilterReturn) :
    ffKniProtoFilter globals data len ethFrameType = some result ↔
      ∃ fuel₀, ∀ fuel, fuel₀ ≤ fuel →
        protocolFilterIp globals fuel data len ethFrameType = some result := by
  have bound : filterBound len ethFrameType ≤ 2 * len + 2 := by
    unfold filterBound; split <;> omega
  constructor
  · intro returned
    refine ⟨2 * len + 2, fun fuel enough => ?_⟩
    rw [← returned]
    exact @protocolFilterIp_stable ⟨data, len, ethFrameType⟩ globals _ _ (bound.trans enough) bound
  · rintro ⟨fuel₀, returned⟩
    rw [← returned (max fuel₀ (2 * len + 2)) (Nat.le_max_left _ _)]
    exact @protocolFilterIp_stable ⟨data, len, ethFrameType⟩ globals _ _ bound
      (bound.trans (Nat.le_max_right ..))

/-- If the calls get shorter, the answer is there after as many as there are bytes. -/
theorem protocolFilterIp_of_shrinks (shrinks : Shrinks nested len call) :
    ∃ result, ∀ fuel, call.len < fuel →
      protocolFilterIp globals fuel call.data call.len call.ethFrameType = some result := by
  induction size : call.len using Nat.strongRecOn generalizing call with
  | ind size ih =>
    subst size
    cases next : call.nested with
    | none =>
      obtain ⟨result, returns⟩ := protocolFilterIp_of_nested_none globals next
      refine ⟨result, fun fuel enough => ?_⟩
      obtain ⟨more, rfl⟩ : ∃ more, fuel = more + 1 := ⟨fuel - 1, by omega⟩
      exact returns more
    | some inner =>
      have smaller := shrinks 0 call inner rfl next
      obtain ⟨result, returns⟩ := ih inner.len smaller (shrinks.second next) rfl
      refine ⟨result, fun fuel enough => ?_⟩
      obtain ⟨more, rfl⟩ : ∃ more, fuel = more + 1 := ⟨fuel - 1, by omega⟩
      rw [protocolFilterIp_of_nested_some globals more next]
      exact returns more (by omega)

end

/-- No IPv4 header that a call comes to, and that has another packet inside, has a length of
zero. -/
def IpCall.Nonempty (call : IpCall) : Prop :=
  ∀ depth outer, after nested call depth = some outer → outer.nested ≠ none →
    outer.ethFrameType = rteEtherTypeIpv4 → byteAt outer.data 0 % 16 ≠ 0

/-- The header in front of a packet has some bytes. -/
theorem IpCall.Nonempty.shrinks (nonempty : call.Nonempty) : Shrinks nested len call := by
  intro depth outer inner there next
  have some : outer.nested ≠ none := by rw [next]; exact Option.some_ne_none _
  have positive := nonempty depth outer there some
  obtain ⟨⟨hdrLen, proto⟩, header, next⟩ := Option.bind_eq_some_iff.mp next
  have inside := ipHeader_le header
  have long : 0 < hdrLen ∧ 0 < outer.len := by
    by_cases ipv4 : outer.ethFrameType = rteEtherTypeIpv4
    · have first := positive ipv4
      unfold ipHeader at header
      dsimp only at header
      split_ifs at header
      cases header
      omega
    · have few := ipHeader_pos header ipv4
      omega
  have length : inner.len = outer.len - hdrLen := by
    dsimp only at next
    split_ifs at next <;> cases next <;> rfl
  omega

/-- The packet behind an empty header is as long as the one that it is in. -/
theorem IpCall.nonempty_of_shrinks (shrinks : Shrinks nested len call) : call.Nonempty := by
  intro depth outer there some ipv4 empty
  obtain ⟨inner, next⟩ := Option.ne_none_iff_exists'.mp some
  have smaller := shrinks depth outer inner there next
  obtain ⟨⟨hdrLen, proto⟩, header, next⟩ := Option.bind_eq_some_iff.mp next
  obtain rfl : hdrLen = 0 := by
    unfold ipHeader at header
    rw [if_pos ipv4] at header
    dsimp only at header
    split_ifs at header
    cases header
    omega
  dsimp only at next
  split_ifs at next <;> cases next <;> exact Nat.lt_irrefl _ smaller

end Packets

/-- Both functions return, each nested call is made with a shorter length, and there are no more
calls than the packet has bytes. -/
def Terminates (globals : FilterGlobals) (call : IpCall) (ext : ExtCall) : Prop :=
  (Shrinks nested len call ∧
    (∀ depth, call.len < depth → after nested call depth = none) ∧
    ∃ result, ∀ fuel, call.len < fuel →
      protocolFilterIp globals fuel call.data call.len call.ethFrameType = some result) ∧
  (Shrinks ExtCall.nested ExtCall.len ext ∧
    (∀ depth, ext.len < depth → after ExtCall.nested ext depth = none) ∧
    ∃ result, ∀ fuel, ext.len < fuel →
      getIpv6HdrLenWithin fuel ext.proto ext.data ext.len = some result)

/-- That is so exactly if no empty IPv4 header has another packet inside. -/
theorem terminates_iff (globals : FilterGlobals) (call : IpCall) (ext : ExtCall) :
    Terminates globals call ext ↔ call.Nonempty := by
  refine ⟨fun terminates => nonempty_of_shrinks terminates.1.1, fun nonempty => ?_⟩
  have shrinks := nonempty.shrinks
  have walks := ext.shrinks
  exact ⟨⟨shrinks, fun _ deep => shrinks.depth_le deep, protocolFilterIp_of_shrinks globals shrinks⟩,
    walks, fun _ deep => walks.depth_le deep, _, fun _ enough =>
      getIpv6HdrLenWithin_eq enough ext.proto ext.data⟩

/-- An IPv4 packet with a UDP packet inside an IPv4 packet. -/
def tunnelled : List UInt8 :=
  [0x45, 0, 0, 48, 0, 0, 0, 0, 64, 4, 0, 0, 10, 0, 0, 1, 10, 0, 0, 2] ++
  [0x45, 0, 0, 28, 0, 0, 0, 0, 64, 17, 0, 0, 10, 0, 0, 1, 10, 0, 0, 2] ++
  [0, 7, 0, 53, 0, 8, 0, 0]

/-- An IPv4 header of length zero that has an IPv4 packet inside. -/
def emptyHeader : List UInt8 :=
  [0x40, 0, 0, 20, 0, 0, 0, 0, 64, 4, 0, 0, 10, 0, 0, 1, 10, 0, 0, 2]

/-- Without any port in the bitmaps. -/
def noPorts : FilterGlobals := ⟨true, fun _ => 0, fun _ => 0⟩

/-- A packet in a tunnel. -/
theorem terminates_tunnelled :
    Terminates noPorts ⟨tunnelled, 48, rteEtherTypeIpv4⟩ ⟨0, [], 0⟩ := by
  have first : nested ⟨tunnelled, 48, rteEtherTypeIpv4⟩ =
      some ⟨tunnelled.drop 20, 28, rteEtherTypeIpv4⟩ := by decide +kernel
  have last : nested ⟨tunnelled.drop 20, 28, rteEtherTypeIpv4⟩ = none := by
    decide +kernel
  refine (terminates_iff noPorts _ _).mpr fun depth outer there some _ => ?_
  match depth with
  | 0 =>
    cases there
    decide +kernel
  | 1 =>
    cases there
    exact absurd last some
  | depth + 2 =>
    rw [after_succ first, after_last last] at there
    cases there

/-- A header of length zero nests itself. -/
theorem not_terminates_emptyHeader :
    (∀ fuel, protocolFilterIp noPorts fuel emptyHeader 20 rteEtherTypeIpv4 = none) ∧
    ¬ Terminates noPorts ⟨emptyHeader, 20, rteEtherTypeIpv4⟩ ⟨0, [], 0⟩ := by
  have again : nested ⟨emptyHeader, 20, rteEtherTypeIpv4⟩ =
      some ⟨emptyHeader, 20, rteEtherTypeIpv4⟩ := by decide +kernel
  exact ⟨protocolFilterIp_diverges noPorts again,
    fun terminates => Nat.lt_irrefl _ (terminates.1.1 0 _ _ rfl again)⟩

end FStack
