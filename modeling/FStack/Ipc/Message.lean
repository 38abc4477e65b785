import Mathlib.Data.UInt

/-!
# Messages between tools and F-Stack processes

A tool takes a message from a pool that all processes share, fills in a request and puts
it into the in-ring of an F-Stack process. Pointers are numbers; the arguments of the
requests share one union, of which every party reads and writes only the member of the
type of the message.
-/

namespace FStack.Ipc

/-- The types of messages that have a handler. -/
inductive MsgKind where
  | sysctl | ioctl | ioctl6 | route | top | ngctl | ipfwCtl | traffic | knictl
deriving DecidableEq, Repr

/-- `FF_MSG_NUM`, which is also the number of rings of a process. -/
def ffMsgNum : Nat := 10

/-- The number of a type; 0 is `FF_UNKNOWN`. -/
def MsgKind.number : MsgKind → UInt32
  | .sysctl => 1
  | .ioctl => 2
  | .ioctl6 => 3
  | .route => 4
  | .top => 5
  | .ngctl => 6
  | .ipfwCtl => 7
  | .traffic => 8
  | .knictl => 9

/-- The type with a given number. -/
def MsgKind.ofNumber? (number : UInt32) : Option MsgKind :=
  [sysctl, ioctl, ioctl6, route, top, ngctl, ipfwCtl, traffic, knictl].find?
    (·.number = number)

theorem MsgKind.ofNumber?_eq_some_iff {number : UInt32} {kind : MsgKind} :
    ofNumber? number = some kind ↔ kind.number = number := by
  constructor
  · intro found
    have same := List.find?_some found
    exact of_decide_eq_true same
  · rintro rfl
    cases kind <;> rfl

structure SysctlArgs where
  name : Nat
  namelen : UInt32
  old : Nat
  oldlenp : Nat
  new : Nat
  newlen : UInt64
deriving DecidableEq, Repr

structure IoctlArgs where
  cmd : UInt64
  data : Nat
deriving DecidableEq, Repr

structure RouteArgs where
  fib : Int
  len : UInt32
  maxlen : UInt32
  data : Nat
deriving DecidableEq, Repr

structure TopArgs where
  loops : UInt64
  idleTsc : UInt64
  workTsc : UInt64
  sysTsc : UInt64
  usrTsc : UInt64
deriving DecidableEq, Repr

structure NgctlArgs where
  cmd : Int
  ret : Int
  data : Nat
deriving DecidableEq, Repr

structure IpfwArgs where
  cmd : Int
  level : Int
  optname : Int
  optval : Nat
  optlen : Nat
deriving DecidableEq, Repr

structure TrafficArgs where
  rxPackets : UInt64
  rxBytes : UInt64
  txPackets : UInt64
  txBytes : UInt64
deriving DecidableEq, Repr

structure KnictlArgs where
  kniCmd : Int
  kniAction : Int
deriving DecidableEq, Repr

/-- `struct ff_msg`. -/
structure FfMsg where
  msgType : UInt32
  result : Int
  bufLen : Nat
  bufAddr : Nat
  sysctl : SysctlArgs
  ioctl : IoctlArgs
  route : RouteArgs
  top : TopArgs
  ngctl : NgctlArgs
  ipfw : IpfwArgs
  traffic : TrafficArgs
  knictl : KnictlArgs
deriving DecidableEq, Repr

end FStack.Ipc
