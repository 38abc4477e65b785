import FStack.Ipc.Server
import FStack.Std.Range
import FStack.Std.Steps

/-!
# The requests of the tools

Each tool call takes a message from the pool, checks what it is going to write against
`buf_len`, fills the buffer, exchanges the message with the F-Stack process and puts it
back. `ioctl_va` and `rtioctl` move `buf_addr` behind what they have written and never
set it back. `sysctl`, `ngctl` and `ipfw_ctl` leave the message as they found it, but
what they check is not always what they write.

A call is a function of the message that it gets and of what happens to it on the way;
replies to other requests that it takes from the ring go to the pool as they are.
-/

namespace FStack.Ipc

open Range Steps

/-- `sizeof(struct ff_msg)`: it is packed, with a union of 48 bytes, and aligned to a cache
line. -/
def sizeofFfMsg : Nat := 128

/-- `MAX_MSG_BUF_SIZE`. -/
def maxMsgBufSize : Nat := 10240

/-- `ff_msg_init`, for the message at an address. -/
def ffMsgInit (addr : Nat) (msg : FfMsg) : FfMsg :=
  { msg with msgType := 0, bufAddr := addr + sizeofFfMsg, bufLen := maxMsgBufSize - sizeofFfMsg }

def enomem : Int := 12
def einval : Int := 22
def enotty : Int := 25
def epipe : Int := 32

/-- What happens to a message between `ff_ipc_send` and the end of the loop around
`ff_ipc_recv`. -/
inductive Exchange where
  | sendFails (ret : Int)
  | timesOut (ret : Int)
  | answered (build : Build) (stack : Stack) (globals : Globals)

/-- What a call leaves behind: its return value and `errno`, the message that it puts back,
what it wrote, and the buffer that it used in place of that of the message. -/
structure Done where
  ret : Int
  errno : Option Int
  msg : Option FfMsg
  writes : List Range
  extra : Option Range

/-- A call that ends before a message is sent. -/
def Done.refused (errno : Int) (msg : Option FfMsg) (writes : List Range) : Done :=
  ⟨-1, some errno, msg, writes, none⟩

/-- A message is sent and comes back, or does not. -/
def FfMsg.exchange (msg : FfMsg) (writes : List Range) (failure : Int → Int)
    (value : FfMsg → Int) : Exchange → Done
  | .sendFails ret => ⟨failure ret, some epipe, some msg, writes, none⟩
  | .timesOut ret => ⟨failure ret, some epipe, some msg, writes, none⟩
  | .answered build stack globals =>
    let retmsg := (handle stack build msg globals).1
    if retmsg.result = 0 then ⟨value retmsg, none, some retmsg, writes, none⟩
    else ⟨-1, some retmsg.result, some retmsg, writes, none⟩

/-- The arguments of `sysctl`, with the value behind `oldlenp`, and the address of the
buffer that `rte_malloc` gives if it is asked. -/
structure SysctlReq where
  namelen : UInt32
  old : Bool
  oldlenp : Option UInt64
  new : Bool
  newlen : UInt64
  rteMalloc : Option Nat

namespace SysctlReq

variable (req : SysctlReq)

def oldlen : UInt64 := if req.old then req.oldlenp.getD 0 else 0

/-- `total_len`. -/
def totalLen : Nat := (req.namelen.toUInt64 + req.oldlen + req.newlen).toNat

/-- The lengths that are written one behind the other; nothing is written where a
pointer is null. -/
def lens : List Nat :=
  [req.namelen.toNat * 4, if req.new then req.newlen.toNat else 0,
    if req.oldlenp.isSome then 8 else 0, req.oldlen.toNat]

/-- The arguments in the message, from the address of its buffer on. -/
def args (name : Nat) : SysctlArgs :=
  let new := name + req.namelen.toNat * 4
  let oldlenp := new + if req.new then req.newlen.toNat else 0
  { name := name
    namelen := req.namelen
    old := if req.old then oldlenp + 8 else 0
    oldlenp := if req.oldlenp.isSome then oldlenp else 0
    new := if req.new ∧ req.newlen ≠ 0 then new else 0
    newlen := if req.new then req.newlen else 0 }

def send (msg : FfMsg) (exchange : Exchange) : Done :=
  let msg := { msg with msgType := MsgKind.sysctl.number, sysctl := req.args msg.bufAddr }
  msg.exchange (consecutive msg.bufAddr req.lens) id (fun _ => 0) exchange

end SysctlReq

/-- `sysctl`. -/
def sysctl (req : SysctlReq) (alloc : Option FfMsg) (exchange : Exchange) : Done :=
  if req.old = true ∧ req.oldlenp = none then .refused einval none []
  else
    match alloc with
    | none => .refused enomem none []
    | some msg =>
      if msg.bufLen < req.totalLen then
        match req.rteMalloc with
        | none => .refused enomem (some msg) []
        | some addr =>
          let done := req.send { msg with bufAddr := addr, bufLen := req.totalLen } exchange
          { done with
            msg := done.msg.map fun m => { m with bufAddr := msg.bufAddr, bufLen := msg.bufLen }
            extra := some ⟨addr, req.totalLen⟩ }
      else req.send msg exchange

/-- An address family, as far as `ioctl_va` tells them apart. -/
inductive Af where
  | inet | inet6 | other
deriving DecidableEq, Repr

/-- The arguments behind `argc`. -/
inductive VaArgs where
  | none
  | family (af : Af)
  | memory (offset clen : UInt64)
  | invalid

/-- The type of the message, if there is one for the address family. -/
def VaArgs.kind? (inet6 : Bool) : VaArgs → Option MsgKind
  | .family .inet6 => if inet6 then some .ioctl6 else Option.none
  | .family .other => Option.none
  | _ => some .ioctl

structure IoctlReq where
  com : UInt64
  va : VaArgs

namespace IoctlReq

variable (req : IoctlReq)

/-- `com`, without what a sign extension has put in front. -/
def cmd : UInt64 := if 0xffffffff < req.com then req.com &&& 0xffffffff else req.com

/-- `IOCPARM_LEN`. -/
def size : Nat := ((req.cmd >>> 16) &&& 0x1fff).toNat

/-- The command has no parameter to copy. -/
def NoTty : Prop :=
  8192 < req.size ∨ req.cmd &&& (0x80000000 ||| 0x40000000) = 0 ∨ req.size = 0 ∨
    req.cmd &&& 0x20000000 ≠ 0

instance : Decidable req.NoTty := inferInstanceAs (Decidable (_ ∨ _))

/-- The part of `ioctl_va` behind its checks. -/
def send (kind : MsgKind) (msg : FfMsg) (exchange : Exchange) : Done :=
  let data : Range := ⟨msg.bufAddr, req.size⟩
  let msg := { msg with
    msgType := kind.number
    ioctl := ⟨req.cmd, msg.bufAddr⟩
    bufAddr := msg.bufAddr + req.size }
  match req.va with
  | .memory offset clen =>
    if msg.bufLen < (UInt64.ofNat req.size + clen).toNat then
      .refused enomem (some msg) [data]
    else
      msg.exchange [data, ⟨data.addr + offset.toNat, 8⟩, ⟨msg.bufAddr, clen.toNat⟩]
        (fun _ => -1) (fun _ => 0) exchange
  | _ => msg.exchange [data] (fun _ => -1) (fun _ => 0) exchange

end IoctlReq

/-- `ioctl_va`. -/
def ioctlVa (inet6 : Bool) (req : IoctlReq) (alloc : Option FfMsg) (exchange : Exchange) : Done :=
  match req.va with
  | .invalid => .refused einval none []
  | va =>
    if req.NoTty then ⟨enotty, none, none, [], none⟩
    else
      match alloc with
      | none => .refused enomem none []
      | some msg =>
        if msg.bufLen < req.size then .refused enomem (some msg) []
        else
          match va.kind? inet6 with
          | none => .refused einval (some msg) []
          | some kind => req.send kind msg exchange

structure RtReq where
  fib : Int
  len : UInt32
  readLen : UInt32

/-- `rtioctl`. -/
def rtioctl (req : RtReq) (alloc : Option FfMsg) (exchange : Exchange) : Done :=
  match alloc with
  | none => .refused enomem none []
  | some msg =>
    if msg.bufLen < req.len.toNat then .refused einval (some msg) []
    else
      let readLen := if msg.bufLen < req.readLen.toNat then UInt32.ofNat msg.bufLen else req.readLen
      let maxlen := if readLen ≠ 0 then readLen else req.len
      let data := msg.bufAddr
      let msg := { msg with
        msgType := MsgKind.route.number
        route := ⟨req.fib, req.len, maxlen, data⟩
        bufAddr := msg.bufAddr + req.len.toNat }
      msg.exchange [⟨data, req.len.toNat⟩] (fun _ => -1) (fun m => m.route.len.toNat) exchange

/-- The arguments of `ipfw_ctl`: whether `optval` is given, and the length behind `optlen`. -/
inductive IpfwReq where
  | get (optval : Bool) (optlen : Option UInt32) (level optname : Int)
  | set (optlen : UInt32) (level optname : Int)

/-- `int len`, which is then compared as a `size_t`. -/
def ipfwLen (optlen : UInt32) : Nat :=
  let len := (32 + optlen.toNat + 4) % 2 ^ 32
  if len < 2 ^ 31 then len else len + (2 ^ 64 - 2 ^ 32)

def ipfwSend (cmd level optname : Int) (optlen : UInt32) (alloc : Option FfMsg)
    (exchange : Exchange) : Done :=
  match alloc with
  | none => .refused enomem none []
  | some msg =>
    if msg.bufLen < ipfwLen optlen then .refused einval (some msg) []
    else
      let args := ⟨cmd, level, optname, msg.bufAddr, msg.bufAddr + optlen.toNat⟩
      { msg with msgType := MsgKind.ipfwCtl.number, ipfw := args }.exchange
        (consecutive msg.bufAddr [optlen.toNat, 4]) (fun _ => -1) (fun _ => 0) exchange

/-- `ipfw_ctl`. -/
def ipfwCtl (alloc : Option FfMsg) (exchange : Exchange) : IpfwReq → Done
  | .get true (some optlen) level optname =>
    ipfwSend ffIpfwGet level optname optlen alloc exchange
  | .get _ _ _ _ => ⟨einval, none, none, [], none⟩
  | .set optlen level optname => ipfwSend ffIpfwSet level optname optlen alloc exchange

/-- The requests that the functions of `libnetgraph` make through `ngctl`. -/
inductive NgReq where
  | socket
  | bind (addrlen : UInt32)
  | connect (addrlen : UInt32)
  | sendto (len : UInt64) (addrlen : UInt32)
  | recvfrom (len : UInt64) (addrlen : UInt32)
  | close

namespace NgReq

/-- `enum FF_NGCTL_CMD`. -/
def cmd : NgReq → Int
  | socket => 0
  | bind _ => 1
  | connect _ => 2
  | sendto _ _ => 3
  | recvfrom _ _ => 4
  | close => 5

/-- The length that `ngctl` is given, with the sizes of the structures of arguments. -/
def len : NgReq → Nat
  | socket => 24
  | bind addrlen => 24 + addrlen.toNat
  | connect addrlen => 24 + addrlen.toNat
  | sendto len addrlen => (48 + len + addrlen.toUInt64).toNat
  | recvfrom len addrlen => (48 + len + addrlen.toUInt64 + 4).toNat
  | close => 8

/-- What is written into the buffer. In `NGCTL_RECV` the offsets of the address and of its
length are counted in elements of `struct sockaddr` and `socklen_t`. -/
def writes (buf : Nat) : NgReq → List Range
  | socket => [⟨buf, 24⟩]
  | bind addrlen => consecutive buf [24, addrlen.toNat]
  | connect addrlen => consecutive buf [24, addrlen.toNat]
  | sendto len addrlen => consecutive buf [48, len.toNat, addrlen.toNat]
  | recvfrom len addrlen =>
    [⟨buf, 48⟩, ⟨buf + 48, len.toNat⟩, ⟨buf + 48 + 16 * len.toNat, addrlen.toNat⟩,
      ⟨buf + 48 + 4 * (len.toNat + addrlen.toNat), 4⟩]
  | close => [⟨buf, 8⟩]

end NgReq

/-- `ngctl`. -/
def ngctl (req : NgReq) (alloc : Option FfMsg) (exchange : Exchange) : Done :=
  match alloc with
  | none => .refused enomem none []
  | some msg =>
    if msg.bufLen < req.len then .refused einval (some msg) []
    else
      let args := ⟨req.cmd, msg.ngctl.ret, msg.bufAddr⟩
      { msg with msgType := MsgKind.ngctl.number, ngctl := args }.exchange
        (req.writes msg.bufAddr) (fun _ => -1) (fun m => m.ngctl.ret) exchange

/-- A request of a tool; `inet6` is how the tool is built. -/
inductive Request where
  | sysctl (req : SysctlReq)
  | ioctlVa (inet6 : Bool) (req : IoctlReq)
  | rtioctl (req : RtReq)
  | ipfw (req : IpfwReq)
  | ngctl (req : NgReq)

def Request.run (alloc : Option FfMsg) (exchange : Exchange) : Request → Done
  | .sysctl req => Ipc.sysctl req alloc exchange
  | .ioctlVa inet6 req => Ipc.ioctlVa inet6 req alloc exchange
  | .rtioctl req => Ipc.rtioctl req alloc exchange
  | .ipfw req => ipfwCtl alloc exchange req
  | .ngctl req => Ipc.ngctl req alloc exchange

/-- A call of a tool, with the message that the pool gives, if any, and what happens on
the way. -/
structure ToolCall where
  request : Request
  alloc : Option Nat
  exchange : Exchange

/-- The messages in shared memory, by their addresses. -/
abbrev Messages := Nat → FfMsg

def ToolCall.done (call : ToolCall) (msgs : Messages) : Done :=
  call.request.run (call.alloc.map msgs) call.exchange

/-- The message is put back as the call leaves it. -/
def toolStep (msgs : Messages) (call : ToolCall) : Messages :=
  match call.alloc, (call.done msgs).msg with
  | some addr, some msg => Function.update msgs addr msg
  | _, _ => msgs

/-- The length of the buffer of every message. -/
def bufSize : Nat := maxMsgBufSize - sizeofFfMsg

/-- The buffer of the message at an address. -/
def ownBuffer (addr : Nat) : Range := ⟨addr + sizeofFfMsg, bufSize⟩

/-- The buffer that a message says it has. -/
def FfMsg.buffer (msg : FfMsg) : Range := ⟨msg.bufAddr, msg.bufLen⟩

/-- The message has the buffer that `ff_msg_init` gave it. -/
def FfMsg.HasOwn (addr : Nat) (msg : FfMsg) : Prop := msg.buffer = ownBuffer addr

/-- After a call every message has its own buffer, and the call has written only to the
buffer that it had. -/
structure PoolKept (msgs : Messages) (call : ToolCall) : Prop where
  own : ∀ addr, (toolStep msgs call addr).HasOwn addr
  inside : ∀ addr, call.alloc = some addr → ∀ range ∈ (call.done msgs).writes,
    range.Within ((call.done msgs).extra.getD (ownBuffer addr))

/-- What is written is not longer than the buffer it is written to. -/
def SysctlReq.Modest (req : SysctlReq) : Prop :=
  (req.old = true ∧ req.oldlenp = none) ∨
    if bufSize < req.totalLen then req.rteMalloc = none ∨ req.lens.sum ≤ req.totalLen
    else req.lens.sum ≤ bufSize

/-- The call ends before anything is written. -/
def IoctlReq.Modest (inet6 : Bool) (req : IoctlReq) : Prop :=
  req.va = .invalid ∨ req.NoTty ∨ req.va.kind? inet6 = none

/-- Nothing is written. -/
def RtReq.Modest (req : RtReq) : Prop := req.len = 0 ∨ bufSize < req.len.toNat

/-- The length that is checked does not wrap around. -/
def IpfwReq.Modest : IpfwReq → Prop
  | .get true (some optlen) _ _ => 36 + optlen.toNat < 2 ^ 32
  | .get _ _ _ _ => True
  | .set optlen _ _ => 36 + optlen.toNat < 2 ^ 32

/-- The length that is checked does not wrap around, and what `NGCTL_RECV` writes behind
its data is still inside. -/
def NgReq.Modest : NgReq → Prop
  | .sendto len addrlen =>
    (NgReq.sendto len addrlen).len ≤ bufSize → 48 + len.toNat + addrlen.toNat < 2 ^ 64
  | .recvfrom len addrlen =>
    (NgReq.recvfrom len addrlen).len ≤ bufSize →
      48 + 16 * len.toNat + addrlen.toNat ≤ bufSize ∧
        52 + 4 * (len.toNat + addrlen.toNat) ≤ bufSize
  | _ => True

/-- A request neither writes more than fits nor advances `buf_addr`. -/
def Request.Modest : Request → Prop
  | .sysctl req => req.Modest
  | .ioctlVa inet6 req => req.Modest inet6
  | .rtioctl req => req.Modest
  | .ipfw req => req.Modest
  | .ngctl req => req.Modest

/-- What a call leaves behind is as it should be, if the message was at `addr`. -/
structure Done.Kept (addr : Nat) (done : Done) : Prop where
  own : ∀ msg, done.msg = some msg → msg.HasOwn addr
  inside : ∀ range ∈ done.writes, range.Within (done.extra.getD (ownBuffer addr))

section Calls

variable {addr : Nat} {msg : FfMsg} {exchange : Exchange}

theorem buffer_withSocket (stack : Stack) (domain type protocol : Int)
    (call : Int → Globals → Int × Globals) (globals : Globals) :
    (withSocket stack domain type protocol call msg globals).1.buffer = msg.buffer := by
  unfold withSocket
  dsimp only
  split_ifs <;> rfl

theorem buffer_handle (build : Build) (stack : Stack) (globals : Globals) :
    (handle stack build msg globals).1.buffer = msg.buffer := by
  refine handlerOf_rule build stack (motive := fun handler =>
    (handler msg globals).1.buffer = msg.buffer) _ rfl ?_ rfl rfl rfl ?_ rfl (fun _ _ => ?_) rfl
  · exact buffer_withSocket ..
  · exact buffer_withSocket ..
  · unfold handleKnictlMsg
    split_ifs <;> rfl

theorem kept_refused (errno : Int) (own : msg.HasOwn addr) :
    (Done.refused errno (some msg) []).Kept addr where
  own _ same := Option.some.inj same ▸ own
  inside _ member := absurd member List.not_mem_nil

theorem Done.kept_of_none {done : Done} (none : done.msg = none) (nothing : done.writes = []) :
    done.Kept addr where
  own _ same := absurd (none.symm.trans same) nofun
  inside _ member := absurd (nothing ▸ member) List.not_mem_nil

/-- An exchange puts the message back with the buffer that it was sent with. -/
theorem exchange_spec (msg : FfMsg) (writes : List Range) (failure : Int → Int)
    (value : FfMsg → Int) (exchange : Exchange) :
    (∃ msg', (msg.exchange writes failure value exchange).msg = some msg' ∧
        msg'.buffer = msg.buffer) ∧
      (msg.exchange writes failure value exchange).writes = writes ∧
      (msg.exchange writes failure value exchange).extra = none := by
  cases exchange with
  | sendFails | timesOut => exact ⟨⟨msg, rfl, rfl⟩, rfl, rfl⟩
  | answered build stack globals =>
    simp only [FfMsg.exchange]
    split_ifs
    · exact ⟨⟨_, rfl, buffer_handle build stack globals⟩, rfl, rfl⟩
    · exact ⟨⟨_, rfl, buffer_handle build stack globals⟩, rfl, rfl⟩

/-- A message keeps its buffer exactly if the writes are inside it. -/
theorem kept_exchange_iff {writes : List Range} {failure : Int → Int} {value : FfMsg → Int} :
    (msg.exchange writes failure value exchange).Kept addr ↔
      msg.HasOwn addr ∧ ∀ range ∈ writes, range.Within (ownBuffer addr) := by
  obtain ⟨⟨msg', same, buffer⟩, written, extra⟩ :=
    exchange_spec msg writes failure value exchange
  constructor
  · rintro ⟨own, inside⟩
    rw [written, extra] at inside
    exact ⟨buffer.symm.trans (own msg' same), inside⟩
  · rintro ⟨own, inside⟩
    refine ⟨fun m found => ?_, ?_⟩
    · cases same.symm.trans found
      exact buffer.trans own
    · rwa [written, extra]

theorem FfMsg.HasOwn.bufAddr_eq (own : msg.HasOwn addr) : msg.bufAddr = (ownBuffer addr).addr :=
  congrArg Range.addr own

theorem FfMsg.HasOwn.bufLen_eq (own : msg.HasOwn addr) :
    msg.bufLen = bufSize :=
  congrArg len own

/-- Ranges from the start of the buffer on. -/
theorem FfMsg.HasOwn.within_iff (own : msg.HasOwn addr) {lens : List Nat} :
    (∀ range ∈ consecutive msg.bufAddr lens, range.Within (ownBuffer addr)) ↔
      lens.sum ≤ bufSize := by
  rw [own.bufAddr_eq, forall_within_consecutive_iff]
  rfl

/-- In a buffer that was allocated for it, `sysctl` stays inside if its parts fit the total. -/
theorem kept_sysctl_extra_iff (req : SysctlReq) (own : msg.HasOwn addr) {extra : Nat} :
    Done.Kept addr
        { req.send { msg with bufAddr := extra, bufLen := req.totalLen } exchange with
          msg := (req.send { msg with bufAddr := extra, bufLen := req.totalLen } exchange).msg.map
            fun m => { m with bufAddr := msg.bufAddr, bufLen := msg.bufLen }
          extra := some ⟨extra, req.totalLen⟩ } ↔
      req.lens.sum ≤ req.totalLen := by
  obtain ⟨-, written, -⟩ := exchange_spec
    { msg with
      msgType := MsgKind.sysctl.number
      bufAddr := extra
      bufLen := req.totalLen
      sysctl := req.args extra }
    (consecutive extra req.lens) id (fun _ => 0) exchange
  have inside := @Range.forall_within_consecutive_iff ⟨extra, req.totalLen⟩ req.lens
  rw [← inside]
  constructor
  · intro kept range member
    exact kept.inside range (by rw [SysctlReq.send, written]; exact member)
  · intro within
    refine ⟨fun m found => ?_, fun range member => within range ?_⟩
    · obtain ⟨m', -, rfl⟩ := Option.map_eq_some_iff.mp found
      exact own
    · rwa [SysctlReq.send, written] at member

/-- `sysctl` keeps the buffer exactly for modest requests. -/
theorem kept_sysctl_iff (req : SysctlReq) (own : msg.HasOwn addr) :
    (sysctl req (some msg) exchange).Kept addr ↔ req.Modest := by
  unfold sysctl
  by_cases refused : req.old = true ∧ req.oldlenp = none
  · rw [if_pos refused]
    exact iff_of_true (Done.kept_of_none rfl rfl) (.inl refused)
  · rw [if_neg refused]
    simp only [SysctlReq.Modest, or_iff_right refused, own.bufLen_eq]
    by_cases long : bufSize < req.totalLen
    · rw [if_pos long, if_pos long]
      cases req.rteMalloc with
      | none => exact iff_of_true (kept_refused enomem own) (.inl rfl)
      | some extra =>
        rw [← own.bufLen_eq, or_iff_right (by simp)]
        exact kept_sysctl_extra_iff req own
    · rw [if_neg long, if_neg long]
      rw [SysctlReq.send, kept_exchange_iff, own.within_iff]
      exact and_iff_right own

theorem IoctlReq.size_lt (req : IoctlReq) : req.size < bufSize := by
  have small : req.size ≤ 0x1fff := Nat.and_le_right
  exact Nat.lt_of_le_of_lt small (by decide)

/-- `ioctl_va` moves `buf_addr`, by at least one byte. -/
theorem not_kept_ioctl_send (req : IoctlReq) (positive : req.size ≠ 0) (kind : MsgKind)
    (own : msg.HasOwn addr) : ¬ (req.send kind msg exchange).Kept addr := by
  have moved (msg' : FfMsg) (after : msg'.bufAddr = msg.bufAddr + req.size) :
      ¬ msg'.HasOwn addr := by
    intro own'
    have := own'.bufAddr_eq
    have := own.bufAddr_eq
    omega
  unfold IoctlReq.send
  dsimp only
  split
  · split_ifs
    · exact fun kept => moved _ rfl (kept.own _ rfl)
    · exact fun kept => moved _ rfl (kept_exchange_iff.mp kept).1
  · exact fun kept => moved _ rfl (kept_exchange_iff.mp kept).1

/-- `ioctl` keeps the buffer exactly for modest requests. -/
theorem kept_ioctlVa_iff (inet6 : Bool) (req : IoctlReq) (own : msg.HasOwn addr) :
    (ioctlVa inet6 req (some msg) exchange).Kept addr ↔ req.Modest inet6 := by
  unfold ioctlVa IoctlReq.Modest
  split
  · exact iff_of_true (Done.kept_of_none rfl rfl) (.inl ‹_›)
  · rename_i valid
    dsimp only
    rw [or_iff_right valid, own.bufLen_eq, if_neg (Nat.not_lt.mpr req.size_lt.le)]
    by_cases noTty : req.NoTty
    · rw [if_pos noTty]
      exact iff_of_true (Done.kept_of_none rfl rfl) (.inl noTty)
    · have positive : req.size ≠ 0 := fun zero => noTty (.inr (.inr (.inl zero)))
      rw [if_neg noTty, or_iff_right noTty]
      cases req.va.kind? inet6 with
      | none => exact iff_of_true (kept_refused einval own) rfl
      | some kind => exact iff_of_false (not_kept_ioctl_send req positive kind own) nofun

/-- `rtioctl` keeps the buffer exactly for modest requests. -/
theorem kept_rtioctl_iff (req : RtReq) (own : msg.HasOwn addr) :
    (rtioctl req (some msg) exchange).Kept addr ↔ req.Modest := by
  have zero_iff : req.len = 0 ↔ req.len.toNat = 0 := UInt32.toNat_inj.symm
  rw [RtReq.Modest, ← own.bufLen_eq, zero_iff]
  unfold rtioctl
  by_cases long : msg.bufLen < req.len.toNat
  · simp only [if_pos long]
    exact iff_of_true (kept_refused einval own) (.inr long)
  · simp only [if_neg long, or_iff_left long, kept_exchange_iff]
    constructor
    · rintro ⟨own', -⟩
      have moved : msg.bufAddr + req.len.toNat = _ := own'.bufAddr_eq
      have := own.bufAddr_eq
      omega
    · intro zero
      have within := (@FfMsg.HasOwn.within_iff addr msg own [req.len.toNat]).mpr (by simp [zero])
      refine ⟨?_, within⟩
      rw [zero]
      exact own

/-- The truncated length is the one that is written, unless it has wrapped around. -/
theorem ipfwLen_le_iff (optlen : UInt32) :
    ¬ bufSize < ipfwLen optlen ∧ 2 ^ 32 ≤ 36 + optlen.toNat ∨
      bufSize < ipfwLen optlen ∧ 36 + optlen.toNat < 2 ^ 32 ∨
      optlen.toNat + 4 ≤ bufSize ∧ 36 + optlen.toNat < 2 ^ 32 := by
  have bound := optlen.toNat_lt
  simp only [ipfwLen, bufSize, maxMsgBufSize, sizeofFfMsg]
  split_ifs <;> omega

/-- `ipfw` keeps the buffer exactly if its length does not overflow. -/
theorem kept_ipfwSend_iff (cmd level optname : Int) (optlen : UInt32) (own : msg.HasOwn addr) :
    (ipfwSend cmd level optname optlen (some msg) exchange).Kept addr ↔
      36 + optlen.toNat < 2 ^ 32 := by
  unfold ipfwSend
  dsimp only
  have size := own.bufLen_eq
  have sum : [optlen.toNat, 4].sum = optlen.toNat + 4 := rfl
  obtain ⟨passes, wraps⟩ | ⟨refused, fits⟩ | ⟨room, fits⟩ := ipfwLen_le_iff optlen
  · rw [if_neg (size ▸ passes), kept_exchange_iff]
    refine iff_of_false (fun ⟨_, inside⟩ => ?_) (Nat.not_lt.mpr wraps)
    have small := own.within_iff.mp inside
    rw [bufSize, maxMsgBufSize] at small
    omega
  · rw [if_pos (size ▸ refused)]
    exact iff_of_true (kept_refused einval own) fits
  · split_ifs
    · exact iff_of_true (kept_refused einval own) fits
    · exact iff_of_true (kept_exchange_iff.mpr ⟨own, own.within_iff.mpr (sum ▸ room)⟩) fits

theorem kept_ipfwCtl_iff (req : IpfwReq) (own : msg.HasOwn addr) :
    (ipfwCtl (some msg) exchange req).Kept addr ↔ req.Modest := by
  rcases req with ⟨_ | _, _ | optlen, level, optname⟩ | ⟨optlen, level, optname⟩
  · exact iff_of_true (Done.kept_of_none rfl rfl) trivial
  · exact iff_of_true (Done.kept_of_none rfl rfl) trivial
  · exact iff_of_true (Done.kept_of_none rfl rfl) trivial
  · exact kept_ipfwSend_iff _ _ _ optlen own
  · exact kept_ipfwSend_iff _ _ _ optlen own

variable {addrlen : UInt32}

/-- `ng_sendto` stays inside the buffer exactly for short data. -/
theorem FfMsg.HasOwn.sendto_iff (own : msg.HasOwn addr) {len : UInt64}
    (short : (NgReq.sendto len addrlen).len ≤ bufSize) :
    (∀ range ∈ (NgReq.sendto len addrlen).writes msg.bufAddr, range.Within (ownBuffer addr)) ↔
      48 + len.toNat + addrlen.toNat < 2 ^ 64 := by
  have sum : [48, len.toNat, addrlen.toNat].sum = 48 + len.toNat + addrlen.toNat := by simp; omega
  have wraps : (NgReq.sendto len addrlen).len = (48 + len.toNat + addrlen.toNat) % 2 ^ 64 := by
    simp [NgReq.len]
  have size : bufSize = 10112 := rfl
  rw [NgReq.writes, own.within_iff]
  omega

/-- `ng_recvfrom` stays inside the buffer exactly for short data. -/
theorem FfMsg.HasOwn.recvfrom_iff (own : msg.HasOwn addr) {len : UInt64} :
    (∀ range ∈ (NgReq.recvfrom len addrlen).writes msg.bufAddr, range.Within (ownBuffer addr)) ↔
      48 + 16 * len.toNat + addrlen.toNat ≤ bufSize ∧
        52 + 4 * (len.toNat + addrlen.toNat) ≤ bufSize := by
  have start := own.bufAddr_eq
  have region : (ownBuffer addr).len = bufSize := rfl
  simp only [NgReq.writes, List.forall_mem_cons, List.not_mem_nil, Range.Within, IsEmpty.forall_iff,
    implies_true, and_true]
  omega

/-- What `ngctl` writes stays inside if the length that it checks does. -/
theorem kept_ngctl_iff (req : NgReq) (own : msg.HasOwn addr) :
    (ngctl req (some msg) exchange).Kept addr ↔ req.Modest := by
  have checked : (ngctl req (some msg) exchange).Kept addr ↔
      (req.len ≤ msg.bufLen →
        ∀ range ∈ req.writes msg.bufAddr, range.Within (ownBuffer addr)) := by
    unfold ngctl
    dsimp only
    split_ifs with long
    · exact iff_of_true (kept_refused einval own) fun short => absurd long (Nat.not_lt.mpr short)
    · rw [forall_prop_of_true (Nat.not_lt.mp long)]
      exact kept_exchange_iff.trans (and_iff_right own)
  rw [checked, own.bufLen_eq]
  cases req with
  | socket => exact iff_of_true (@FfMsg.HasOwn.within_iff addr msg own [24]).mpr trivial
  | bind addrlen | connect addrlen =>
    exact iff_of_true (@FfMsg.HasOwn.within_iff addr msg own [24, addrlen.toNat]).mpr trivial
  | sendto len addrlen => exact imp_congr_right own.sendto_iff
  | recvfrom len addrlen => exact imp_congr_right fun _ => own.recvfrom_iff
  | close => exact iff_of_true (@FfMsg.HasOwn.within_iff addr msg own [8]).mpr trivial

theorem kept_run_iff (request : Request) (own : msg.HasOwn addr) :
    (request.run (some msg) exchange).Kept addr ↔ request.Modest := by
  cases request with
  | sysctl req => exact kept_sysctl_iff req own
  | ioctlVa inet6 req => exact kept_ioctlVa_iff inet6 req own
  | rtioctl req => exact kept_rtioctl_iff req own
  | ipfw req => exact kept_ipfwCtl_iff req own
  | ngctl req => exact kept_ngctl_iff req own

end Calls

section Runs

variable {msgs : Messages} {call : ToolCall}

/-- Every message has its own buffer. -/
def AllOwn (msgs : Messages) : Prop := ∀ addr, (msgs addr).HasOwn addr

/-- Only the message that the pool gave can change. -/
theorem poolKept_iff (own : AllOwn msgs) :
    PoolKept msgs call ↔ ∀ addr, call.alloc = some addr → (call.done msgs).Kept addr := by
  constructor
  · rintro ⟨kept, inside⟩ addr given
    refine ⟨fun msg back => ?_, inside addr given⟩
    have same := kept addr
    simp only [toolStep, given, back, Function.update_self] at same
    exact same
  · intro kept
    refine ⟨fun addr => ?_, fun addr given => (kept addr given).inside⟩
    cases given : call.alloc with
    | none =>
      simp only [toolStep, given]
      exact own addr
    | some addr' =>
      cases back : (call.done msgs).msg with
      | none =>
        simp only [toolStep, given, back]
        exact own addr
      | some msg =>
        simp only [toolStep, given, back]
        rcases eq_or_ne addr addr' with rfl | other
        · rw [Function.update_self]
          exact (kept addr given).own msg back
        · rw [Function.update_of_ne other]
          exact own addr

/-- A call without a message needs nothing. -/
def ToolCall.Modest (call : ToolCall) : Prop := call.alloc.isSome = true → call.request.Modest

theorem poolKept_iff_modest (own : AllOwn msgs) : PoolKept msgs call ↔ call.Modest := by
  rw [poolKept_iff own, ToolCall.Modest, Option.isSome_iff_exists, forall_exists_index]
  refine forall_congr' fun addr => imp_congr_right fun given => ?_
  rw [ToolCall.done, given]
  exact kept_run_iff call.request (own addr)

/-- Messages keep the buffers that `ff_msg_init` gave them, and calls write only to the
buffers that they have, as long as no call is one of `ioctl_va` or `rtioctl` that gets
as far as writing, and no other call writes more than it has checked. -/
theorem poolKept_along_iff (mem : Messages) (calls : List ToolCall) :
    Along toolStep PoolKept (fun addr => ffMsgInit addr (mem addr)) calls ↔
      ∀ call ∈ calls, call.Modest := by
  have along : Along toolStep PoolKept (fun addr => ffMsgInit addr (mem addr)) calls ↔
      Along toolStep (fun _ call => call.Modest) (fun addr => ffMsgInit addr (mem addr)) calls :=
    along_iff AllOwn (fun _ _ own => poolKept_iff_modest own) (fun _ _ _ kept => kept.own)
      (fun _ => rfl)
  rw [along, along_inputs_iff]

/-- Messages as `ff_msg_init` leaves them. -/
def freshMsgs : Messages := fun addr => ffMsgInit addr (plainMsg 0)

/-- A call that gets the message at address 0, and an answer. -/
def answeredCall (request : Request) : ToolCall where
  request := request
  alloc := some 0
  exchange := .answered allFeatures quietStack ⟨0, ⟨0, 0, 0, 0, 0⟩, ⟨0, 0, 0, 0⟩, 0⟩

/-- Asking for the flags of an interface: a command with a parameter of 32 bytes. -/
def getFlags : ToolCall := answeredCall (.ioctlVa false ⟨0xc0206911, .none⟩)

/-- Writing a large value: a name of two numbers, with a new value of 20000 bytes. -/
def setLarge : ToolCall := answeredCall (.sysctl ⟨2, false, none, true, 20000, some 0⟩)

/-- One `ioctl` leaves its message with a buffer that starts 32 bytes later; and `sysctl`
writes six bytes behind the end of the buffer that it has allocated. -/
theorem not_poolKept_getFlags_setLarge :
    ((toolStep freshMsgs getFlags 0).buffer = ⟨128 + 32, bufSize⟩ ∧
      ¬ Along toolStep PoolKept freshMsgs [getFlags]) ∧
    ((setLarge.done freshMsgs).extra = some ⟨0, 20002⟩ ∧
      (setLarge.done freshMsgs).writes = [⟨0, 8⟩, ⟨8, 20000⟩, ⟨20008, 0⟩, ⟨20008, 0⟩] ∧
      ¬ Along toolStep PoolKept freshMsgs [setLarge]) := by
  refine ⟨⟨by decide, fun ⟨kept, _⟩ => ?_⟩, by decide, by decide, fun ⟨kept, _⟩ => ?_⟩
  · exact absurd (kept.own 0) (by unfold FfMsg.HasOwn; decide)
  · exact absurd (kept.inside 0 rfl ⟨8, 20000⟩ (by decide)) (by decide)

end Runs

end FStack.Ipc
