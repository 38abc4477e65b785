import FStack.Std.Bytes
import FStack.Std.Memory

/-!
# Socket addresses of two systems

A Linux address begins with a family of two bytes; a FreeBSD address has a length byte and a
family of one byte in their place, and from the third byte on both are the same. The callers of
the conversions pass different buffers or one buffer for both, as `ff_recvmsg` does. In one
buffer the family that `freebsd2linux_sockaddr` writes overwrites the length it reads next, so
its copy is too short; but there it copies every byte onto itself.
-/

namespace FStack.Syscall

open Bytes Memory

/-- FreeBSD's `AF_INET6`. -/
def afInet6 : UInt8 := 28

/-- `LINUX_AF_INET6`. -/
def linuxAfInet6 : Nat := 10

/-- The size of `sa_data` in `struct linux_sockaddr`. -/
def saDataSize : Nat := 126

/-- `bcopy` from one `sa_data` to another; a longer copy leaves the address. -/
def bcopySaData (source target : Nat) (count : UInt64) (mem : Memory) : Option Memory :=
  if count.toNat ≤ saDataSize then some (mem.move source target count.toNat) else none

/-- `linux2freebsd_sockaddr`. -/
def linux2freebsdSockaddr (linux : Option Nat) (addrlen : UInt32) (freebsd : Nat)
    (mem : Memory) : Option Memory :=
  match linux with
  | none => some mem
  | some linux =>
    let family := leValue (mem.load linux 2)
    let saFamily := if family = linuxAfInet6 then afInet6 else UInt8.ofNat family
    let mem := mem.store (freebsd + 1) [saFamily]
    let mem := mem.store freebsd [addrlen.toUInt8]
    bcopySaData (linux + 2) (freebsd + 2) (addrlen.toUInt64 - 2) mem

/-- `freebsd2linux_sockaddr`. -/
def freebsd2linuxSockaddr (linux : Option Nat) (freebsd : Nat) (mem : Memory) : Option Memory :=
  match linux with
  | none => some mem
  | some linux =>
    let family := mem (freebsd + 1)
    let saFamily := if family = afInet6 then linuxAfInet6 else family.toNat
    let mem := mem.store linux (leBytes 2 saFamily)
    -- `sa_len` is read behind the store of the family
    bcopySaData (freebsd + 2) (linux + 2) ((mem freebsd).toUInt64 - 2) mem

/-- The family of a FreeBSD address for one of Linux. -/
def freebsdFamily (family : Nat) : UInt8 :=
  if family = linuxAfInet6 then afInet6 else UInt8.ofNat family

/-- The family of a Linux address for one of FreeBSD. -/
def linuxFamily (family : UInt8) : Nat :=
  if family = afInet6 then linuxAfInet6 else family.toNat

/-- The FreeBSD form of the `addrlen` bytes of a Linux address. -/
def freebsdForm (mem : Memory) (linux : Nat) (addrlen : UInt32) : List UInt8 :=
  [addrlen.toUInt8, freebsdFamily (leValue (mem.load linux 2))] ++
    mem.load (linux + 2) (addrlen.toNat - 2)

/-- The Linux form of the `len` bytes of a FreeBSD address. -/
def linuxForm (mem : Memory) (freebsd len : Nat) : List UInt8 :=
  leBytes 2 (linuxFamily (mem (freebsd + 1))) ++ mem.load (freebsd + 2) (len - 2)

/-- The families whose addresses are converted. -/
inductive InetFamily where
  | inet
  | inet6
deriving DecidableEq, Repr

namespace InetFamily

def linux : InetFamily → Nat
  | inet => 2
  | inet6 => 10

def freebsd : InetFamily → UInt8
  | inet => 2
  | inet6 => 28

/-- The length of `struct sockaddr_in` and `struct sockaddr_in6`, on both systems. -/
def addrlen : InetFamily → UInt32
  | inet => 16
  | inet6 => 28

/-- The bytes behind the family. -/
def dataLen (family : InetFamily) : Nat := family.addrlen.toNat - 2

theorem size_eq (family : InetFamily) : 2 + family.dataLen = family.addrlen.toNat := by
  cases family <;> rfl

theorem size_bounds (family : InetFamily) :
    2 ≤ family.addrlen.toNat ∧ family.addrlen.toNat ≤ 128 := by
  cases family <;> decide

end InetFamily

/-- An address of its proper length: the family and the bytes behind it. -/
structure InetAddr where
  family : InetFamily
  data : SizedBytes family.dataLen
deriving DecidableEq, Repr

namespace InetAddr

/-- The address as Linux lays it out. -/
def linuxBytes (address : InetAddr) : List UInt8 :=
  leBytes 2 address.family.linux ++ address.data.1

/-- The address as FreeBSD lays it out. -/
def freebsdBytes (address : InetAddr) : List UInt8 :=
  [address.family.addrlen.toUInt8, address.family.freebsd] ++ address.data.1

/-- The size of the address on both systems. -/
def size (address : InetAddr) : Nat := 2 + address.family.dataLen

theorem length_linuxBytes (address : InetAddr) : address.linuxBytes.length = address.size := by
  rw [linuxBytes, List.length_append, length_leBytes, address.data.2, size]

theorem length_freebsdBytes (address : InetAddr) : address.freebsdBytes.length = address.size := by
  rw [freebsdBytes, List.length_append, address.data.2]
  rfl

end InetAddr

/-- The buffer of the result is the buffer of the source, or does not meet it. -/
def SameOrApart (source target size : Nat) : Prop :=
  target = source ∨ Apart source size target size

section Conversion

variable {address : InetAddr} {mem : Memory} {linux freebsd : Nat}

/-- The two parts of an address in memory. -/
theorem load_parts {head data : List UInt8} {count addr : Nat} (two : head.length = 2)
    (held : mem.load addr (2 + count) = head ++ data) :
    mem.load addr 2 = head ∧ mem.load (addr + 2) count = data := by
  rw [load_add] at held
  exact List.append_inj held (by rw [length_load, two])

/-- A copy of what is behind the family of an address of `len` bytes. -/
theorem bcopySaData_sub {len : UInt64} (least : 2 ≤ len.toNat) (most : len.toNat ≤ 128)
    (source target : Nat) (mem : Memory) :
    bcopySaData source target (len - 2) mem = some (mem.move source target (len.toNat - 2)) := by
  rw [bcopySaData, UInt64.toNat_sub_of_le len 2 (UInt64.le_iff_toNat_le.mpr least)]
  exact if_pos (Nat.sub_le_sub_right most 2)

/-- An address of any length is stored in its FreeBSD form, also where it replaces the Linux
form. -/
theorem linux2freebsdSockaddr_store {addrlen : UInt32} (least : 2 ≤ addrlen.toNat)
    (most : addrlen.toNat ≤ 128) (places : SameOrApart linux freebsd addrlen.toNat) :
    linux2freebsdSockaddr (some linux) addrlen freebsd mem =
      some (mem.store freebsd (freebsdForm mem linux addrlen)) := by
  have kept (family : UInt8) : ((mem.store (freebsd + 1) [family]).store freebsd
      [addrlen.toUInt8]).load (linux + 2) (addrlen.toNat - 2) =
        mem.load (linux + 2) (addrlen.toNat - 2) := by
    simp only [SameOrApart, Apart] at places
    rw [load_store_of_apart, load_store_of_apart] <;>
      simp only [Apart, List.length_singleton] <;> omega
  refine (bcopySaData_sub (show 2 ≤ addrlen.toUInt64.toNat from least) most _ _ _).trans ?_
  rw [move, UInt32.toNat_toUInt64, kept,
    store_comm mem (.inr (by simp) : Apart (freebsd + 1) _ freebsd _)]
  exact congrArg some ((congrArg (store · _ _) (store_append mem freebsd [_] [_])).trans
    (store_append mem freebsd [_, _] _))

/-- An address of any length is stored in its Linux form in a buffer of its own. -/
theorem freebsd2linuxSockaddr_store {len : Nat} (saLen : (mem freebsd).toNat = len)
    (least : 2 ≤ len) (most : len ≤ 128) (apart : Apart freebsd len linux len) :
    freebsd2linuxSockaddr (some linux) freebsd mem =
      some (mem.store linux (linuxForm mem freebsd len)) := by
  subst saLen
  unfold Apart at apart
  have untouched (family : List UInt8) (two : family.length = 2) :
      mem.store linux family freebsd = mem freebsd := by
    rcases apart with before | behind
    · exact store_of_lt _ _ (by omega)
    · exact store_of_ge _ (by omega)
  unfold freebsd2linuxSockaddr
  dsimp only
  rw [untouched _ (length_leBytes 2 _),
    bcopySaData_sub (show 2 ≤ (mem freebsd).toUInt64.toNat from least) most, move,
    UInt8.toNat_toUInt64,
    load_store_of_apart (by unfold Apart; rw [length_leBytes]; omega)]
  exact congrArg some (store_append mem linux (leBytes 2 _) _)

/-- The address is stored in its FreeBSD form, also where it replaces the Linux form. -/
theorem linux2freebsdSockaddr_eq (held : mem.load linux address.size = address.linuxBytes)
    (places : SameOrApart linux freebsd address.size) :
    linux2freebsdSockaddr (some linux) address.family.addrlen freebsd mem =
      some (mem.store freebsd address.freebsdBytes) := by
  obtain ⟨family, data, length⟩ := address
  obtain ⟨familyBytes, dataBytes⟩ := load_parts (length_leBytes 2 _) held
  have converted : freebsdFamily (leValue (leBytes 2 family.linux)) = family.freebsd := by
    cases family <;> rfl
  rw [InetAddr.size, family.size_eq] at places
  rw [linux2freebsdSockaddr_store family.size_bounds.1 family.size_bounds.2 places, freebsdForm,
    familyBytes, converted]
  exact congrArg (fun data => some (mem.store freebsd ([_, _] ++ data))) dataBytes

/-- The address is stored in its Linux form, also where it replaces the FreeBSD form. -/
theorem freebsd2linuxSockaddr_eq (held : mem.load freebsd address.size = address.freebsdBytes)
    (places : SameOrApart freebsd linux address.size) :
    freebsd2linuxSockaddr (some linux) freebsd mem =
      some (mem.store linux address.linuxBytes) := by
  obtain ⟨family, data, length⟩ := address
  obtain ⟨headBytes, dataBytes⟩ := load_parts rfl held
  obtain ⟨saLen, tail⟩ := List.cons.inj headBytes
  obtain ⟨saFamily, -⟩ := List.cons.inj tail
  change mem freebsd = family.addrlen.toUInt8 at saLen
  change mem (freebsd + 1) = family.freebsd at saFamily
  have converted : linuxFamily family.freebsd = family.linux := by cases family <;> rfl
  rcases places with rfl | apart
  · -- the first byte of the family stands where the length was
    have first : mem.store linux (leBytes 2 family.linux) linux = UInt8.ofNat family.linux :=
      store_of_inside mem (i := 0) (by rw [length_leBytes]; decide)
    have short : ((UInt8.ofNat family.linux).toUInt64 - 2).toNat ≤ saDataSize := by
      cases family <;> decide
    have settled : (mem.store linux (leBytes 2 family.linux)).store (linux + 2) data =
        mem.store linux (leBytes 2 family.linux) :=
      store_eq_self (by
        rw [length, load_store_of_apart (.inr (by rw [length_leBytes])), dataBytes])
    rw [linuxFamily] at converted
    simp only [freebsd2linuxSockaddr, saFamily, converted]
    rw [first, bcopySaData, if_pos short, move_self, ← settled]
    exact congrArg some (store_append mem linux (leBytes 2 family.linux) data)
  · rw [InetAddr.size, family.size_eq] at apart
    rw [freebsd2linuxSockaddr_store (by rw [saLen]; cases family <;> rfl) family.size_bounds.1
      family.size_bounds.2 apart, linuxForm, saFamily, converted]
    exact congrArg (fun data => some (mem.store linux (_ ++ data))) dataBytes

end Conversion

/-- For every Linux address of its proper length: converting it and converting it back gives
its bytes again, whether each of the two results has a buffer of its own or replaces its source;
and a result that replaces its source has the bytes that it has in a buffer of its own. -/
theorem sockaddr_roundTrip (address : InetAddr) (mem : Memory) (linux freebsd back : Nat)
    (held : mem.load linux address.size = address.linuxBytes)
    (there : SameOrApart linux freebsd address.size)
    (again : SameOrApart freebsd back address.size) :
    ∃ converted restored,
      linux2freebsdSockaddr (some linux) address.family.addrlen freebsd mem = some converted ∧
      freebsd2linuxSockaddr (some back) freebsd converted = some restored ∧
      restored.load back address.size = address.linuxBytes ∧
      ∃ inPlace inPlace',
        linux2freebsdSockaddr (some linux) address.family.addrlen linux mem = some inPlace ∧
        inPlace.load linux address.size = converted.load freebsd address.size ∧
        freebsd2linuxSockaddr (some freebsd) freebsd converted = some inPlace' ∧
        inPlace'.load freebsd address.size = restored.load back address.size := by
  have loaded (mem : Memory) (addr : Nat) :
      (mem.store addr address.freebsdBytes).load addr address.size = address.freebsdBytes := by
    rw [← address.length_freebsdBytes, load_store]
  have restored (mem : Memory) (addr : Nat) :
      (mem.store addr address.linuxBytes).load addr address.size = address.linuxBytes := by
    rw [← address.length_linuxBytes, load_store]
  refine ⟨_, _, linux2freebsdSockaddr_eq held there,
    freebsd2linuxSockaddr_eq (loaded mem freebsd) again, restored _ back, _, _,
    linux2freebsdSockaddr_eq held (.inl rfl), ?_,
    freebsd2linuxSockaddr_eq (loaded mem freebsd) (.inl rfl), ?_⟩
  · rw [loaded, loaded]
  · rw [restored, restored]

/-- `[::1]:80`. -/
def loopback6 : InetAddr where
  family := .inet6
  data := ⟨[0, 80, 0, 0, 0, 0, 0, 0, 0, 0, 0, 0, 0, 0, 0, 0, 0, 0, 0, 0, 0, 1, 0, 0, 0, 0], rfl⟩

/-- The IPv6 loopback address, there and back. -/
theorem sockaddr_roundTrip_loopback6 :
    ∃ converted restored,
      linux2freebsdSockaddr (some 100) 28 200 (store (fun _ => 0) 100 loopback6.linuxBytes) =
        some converted ∧
      freebsd2linuxSockaddr (some 200) 200 converted = some restored ∧
      restored.load 200 28 = loopback6.linuxBytes := by
  obtain ⟨converted, restored, there, again, same, -⟩ :=
    sockaddr_roundTrip loopback6 (store (fun _ => 0) 100 loopback6.linuxBytes) 100 200 200
      (by decide) (.inr (.inl (by decide))) (.inl rfl)
  exact ⟨converted, restored, there, again, same⟩

end FStack.Syscall
