import FStack.Ipc.Message

/-!
# The F-Stack process answers messages

`process_msg_ring` takes a message from the in-ring, which is ring 0, lets the handler of
its type fill in the result, and puts the message into the ring whose number is its type.
-/

namespace FStack.Ipc

open Function MsgKind

/-- The features that the process is built with. -/
structure Build where
  inet6 : Bool
  netgraph : Bool
  ipfw : Bool
  kni : Bool

/-- What a call returns, and the value it gives to `errno` if it sets it. -/
structure Answer where
  ret : Int
  sets : Option Int

/-- The answers of the stack to the calls of the handlers. -/
structure Stack where
  ffSysctl : SysctlArgs → Answer
  ffSocket : (domain type protocol : Int) → Answer
  ffIoctlFreebsd : (fd : Int) → IoctlArgs → Answer
  ffClose : (fd : Int) → Answer
  ffRtioctl : RouteArgs → Answer × UInt32
  ffNgctl : (cmd : Int) → (data : Nat) → Answer
  ffGetsockoptFreebsd : (fd level optname : Int) → (optval optlen : Nat) → Answer
  ffSetsockoptFreebsd : (fd level optname : Int) → (optval : Nat) → (optlen : UInt32) → Answer
  socklen : (optlen : Nat) → UInt32

/-- The globals that the handlers read and write. -/
structure Globals where
  errno : Int
  ffTopStatus : TopArgs
  ffTraffic : TrafficArgs
  knictlAction : Int

/-- `FF_KNICTL_CMD_GET`. -/
def ffKnictlCmdGet : Int := 0

/-- `FF_KNICTL_CMD_SET`. -/
def ffKnictlCmdSet : Int := 1

/-- `FF_KNICTL_ACTION_DEFAULT`, `FF_KNICTL_ACTION_ALL_TO_KNI`, `FF_KNICTL_ACTION_ALL_TO_FF`. -/
def ffKnictlActions : List Int := [0, 1, 2]

/-- `FF_IPFW_GET`. -/
def ffIpfwGet : Int := 0

/-- `FF_IPFW_SET`. -/
def ffIpfwSet : Int := 1

def afInet : Int := 2
def afInet6 : Int := 10
def sockDgram : Int := 2
def sockRaw : Int := 3
def ipprotoRaw : Int := 255
def enotsup : Int := 95

section Handlers

variable (stack : Stack)

/-- A handler works on the message in place. -/
abbrev Handler := FfMsg → Globals → FfMsg × Globals

/-- A call may set `errno`. -/
def Globals.after (globals : Globals) (answer : Answer) : Globals :=
  { globals with errno := answer.sets.getD globals.errno }

/-- `msg->result = errno` or `msg->result = 0`. -/
def FfMsg.finish (msg : FfMsg) (ret : Int) (globals : Globals) : FfMsg × Globals :=
  ({ msg with result := if ret < 0 then globals.errno else 0 }, globals)

def handleSysctlMsg : Handler := fun msg globals =>
  let answer := stack.ffSysctl msg.sysctl
  msg.finish answer.ret (globals.after answer)

/-- A socket is opened for one call and closed again. The result is what `errno` is after
the close. -/
def withSocket (domain type protocol : Int) (call : Int → Globals → Int × Globals) : Handler :=
  fun msg globals =>
    let socket := stack.ffSocket domain type protocol
    let globals := globals.after socket
    if socket.ret < 0 then msg.finish (-1) globals
    else
      let (ret, globals) := call socket.ret globals
      msg.finish ret (globals.after (stack.ffClose socket.ret))

def handleIoctlMsg (build : Build) : Handler := fun msg =>
  let domain := if build.inet6 ∧ msg.msgType = ioctl6.number then afInet6 else afInet
  withSocket stack domain sockDgram 0 (fun fd globals =>
    let answer := stack.ffIoctlFreebsd fd msg.ioctl
    (answer.ret, globals.after answer)) msg

def handleRouteMsg : Handler := fun msg globals =>
  let (answer, len) := stack.ffRtioctl msg.route
  { msg with route := { msg.route with len := len } }.finish answer.ret (globals.after answer)

def handleTopMsg : Handler := fun msg globals =>
  ({ msg with top := globals.ffTopStatus, result := 0 }, globals)

def handleNgctlMsg : Handler := fun msg globals =>
  let answer := stack.ffNgctl msg.ngctl.cmd msg.ngctl.data
  let ret := if answer.ret < 0 then msg.ngctl.ret else answer.ret
  { msg with ngctl := { msg.ngctl with ret := ret } }.finish answer.ret (globals.after answer)

def handleIpfwMsg : Handler := fun msg =>
  withSocket stack afInet sockRaw ipprotoRaw (fun fd globals =>
    let args := msg.ipfw
    if args.cmd = ffIpfwGet then
      let answer := stack.ffGetsockoptFreebsd fd args.level args.optname args.optval args.optlen
      (answer.ret, globals.after answer)
    else if args.cmd = ffIpfwSet then
      let answer := stack.ffSetsockoptFreebsd fd args.level args.optname args.optval
        (stack.socklen args.optlen)
      (answer.ret, globals.after answer)
    else (-1, { globals with errno := enotsup })) msg

def handleTrafficMsg : Handler := fun msg globals =>
  ({ msg with traffic := globals.ffTraffic, result := 0 }, globals)

/-- Only this handler has a branch that leaves the result as it is. -/
def handleKnictlMsg : Handler := fun msg globals =>
  if msg.knictl.kniCmd = ffKnictlCmdSet then
    if msg.knictl.kniAction ∈ ffKnictlActions then
      ({ msg with result := 0 }, { globals with knictlAction := msg.knictl.kniAction })
    else ({ msg with result := -1 }, globals)
  else if msg.knictl.kniCmd = ffKnictlCmdGet then
    ({ msg with knictl := { msg.knictl with kniAction := globals.knictlAction } }, globals)
  else ({ msg with result := -2 }, globals)

def handleDefaultMsg : Handler := fun msg globals => ({ msg with result := enotsup }, globals)

/-- The switch of `handle_msg`. -/
def handlerOf (build : Build) : Option MsgKind → Handler
  | some .sysctl => handleSysctlMsg stack
  | some .ioctl => handleIoctlMsg stack build
  | some .ioctl6 => if build.inet6 then handleIoctlMsg stack build else handleDefaultMsg
  | some .route => handleRouteMsg stack
  | some .top => handleTopMsg
  | some .ngctl => if build.netgraph then handleNgctlMsg stack else handleDefaultMsg
  | some .ipfwCtl => if build.ipfw then handleIpfwMsg stack else handleDefaultMsg
  | some .traffic => handleTrafficMsg
  | some .knictl => if build.kni then handleKnictlMsg else handleDefaultMsg
  | none => handleDefaultMsg

def handle (build : Build) : Handler := fun msg =>
  handlerOf stack build (ofNumber? msg.msgType) msg

end Handlers

/-- What a ring of `MSG_RING_SIZE` holds. -/
def msgRingCapacity : Nat := 32 - 1

/-- `rte_ring_enqueue`: a full ring stays as it is. -/
def ringEnqueue (ring : List Nat) (obj : Nat) : List Nat :=
  if ring.length < msgRingCapacity then ring ++ [obj] else ring

/-- An F-Stack process with its rings, and the messages in shared memory. -/
structure Proc where
  ring : Fin ffMsgNum → List Nat
  msgs : Nat → FfMsg
  globals : Globals

/-- `handle_msg`; nothing is said of a process that uses an index outside the array of
rings. -/
def handleMsg (build : Build) (stack : Stack) (addr : Nat) (proc : Proc) : Option Proc :=
  let (msg, globals) := handle stack build (proc.msgs addr) proc.globals
  if inside : msg.msgType.toNat < ffMsgNum then
    some
      { ring := update proc.ring ⟨msg.msgType.toNat, inside⟩
          (ringEnqueue (proc.ring ⟨msg.msgType.toNat, inside⟩) addr)
        msgs := update proc.msgs addr msg
        globals := globals }
  else none

/-- The in-ring. -/
def ringIn : Fin ffMsgNum := ⟨0, by decide⟩

/-- `process_msg_ring`. -/
def processMsgRing (build : Build) (stack : Stack) (proc : Proc) : Option Proc :=
  match proc.ring ringIn with
  | [] => some proc
  | addr :: rest =>
    handleMsg build stack addr { proc with ring := update proc.ring ringIn rest }

/-- The result is the one that the handler gives, whatever was there before. -/
def Assigned (build : Build) (stack : Stack) (msg : FfMsg) (globals : Globals) : Prop :=
  ∀ result, (handle stack build { msg with result := result } globals).1.result =
    (handle stack build msg globals).1.result

/-- The message at the head of the in-ring is taken from there, goes to the end of one
out-ring and to no other place, and its result has been assigned. -/
def Replied (build : Build) (stack : Stack) (proc : Proc) (addr : Nat) (rest : List Nat) : Prop :=
  ∃ proc' out, processMsgRing build stack proc = some proc' ∧ 0 < out.val ∧
    proc'.ring =
      update (update proc.ring ringIn rest) out (proc.ring out ++ [addr]) ∧
    Assigned build stack (proc.msgs addr) proc.globals

/-- The one question that is answered without a result. -/
def AsksKni (build : Build) (msg : FfMsg) : Prop :=
  build.kni = true ∧ msg.msgType = knictl.number ∧ msg.knictl.kniCmd = ffKnictlCmdGet

/-- The type of the message has an out-ring with room, and the message does not ask for
the action of KNI. -/
def Answerable (build : Build) (proc : Proc) (msg : FfMsg) : Prop :=
  (∃ out : Fin ffMsgNum, 0 < out.val ∧ out.val = msg.msgType.toNat ∧
    (proc.ring out).length < msgRingCapacity) ∧ ¬ AsksKni build msg

section Handling

variable (build : Build) (stack : Stack) (msg : FfMsg) (globals : Globals)

theorem msgType_withSocket (domain type protocol : Int) (call : Int → Globals → Int × Globals) :
    (withSocket stack domain type protocol call msg globals).1.msgType = msg.msgType := by
  unfold withSocket
  dsimp only
  split_ifs <;> rfl

theorem msgType_handleKnictlMsg : (handleKnictlMsg msg globals).1.msgType = msg.msgType := by
  unfold handleKnictlMsg
  split_ifs <;> rfl

/-- What holds of every handler holds of the one that is chosen. -/
theorem handlerOf_rule {motive : Handler → Prop} (kind : Option MsgKind)
    (sysctl : motive (handleSysctlMsg stack)) (ioctl : motive (handleIoctlMsg stack build))
    (route : motive (handleRouteMsg stack)) (top : motive handleTopMsg)
    (ngctl : motive (handleNgctlMsg stack)) (ipfw : motive (handleIpfwMsg stack))
    (traffic : motive handleTrafficMsg)
    (knictl : build.kni = true → kind = some .knictl → motive handleKnictlMsg)
    (default : motive handleDefaultMsg) : motive (handlerOf stack build kind) := by
  have choose (flag : Bool) {handler : Handler} (built : flag = true → motive handler) :
      motive (if flag = true then handler else handleDefaultMsg) := by
    cases flag with
    | false => exact default
    | true => exact built rfl
  rcases kind with _ | (_ | _ | _ | _ | _ | _ | _ | _ | _)
  · exact default
  · exact sysctl
  · exact ioctl
  · exact choose build.inet6 fun _ => ioctl
  · exact route
  · exact top
  · exact choose build.netgraph fun _ => ngctl
  · exact choose build.ipfw fun _ => ipfw
  · exact traffic
  · exact choose build.kni fun built => knictl built rfl

/-- No handler changes the type of its message. -/
theorem msgType_handle : (handle stack build msg globals).1.msgType = msg.msgType := by
  refine handlerOf_rule build stack (motive := fun handler =>
    (handler msg globals).1.msgType = msg.msgType) _ rfl ?_ rfl rfl rfl ?_ rfl (fun _ _ => ?_) rfl
  · exact msgType_withSocket ..
  · exact msgType_withSocket ..
  · exact msgType_handleKnictlMsg ..

theorem result_withSocket (domain type protocol : Int) (call : Int → Globals → Int × Globals)
    (result : Int) :
    (withSocket stack domain type protocol call { msg with result := result } globals).1.result =
      (withSocket stack domain type protocol call msg globals).1.result := by
  unfold withSocket
  dsimp only
  split_ifs <;> rfl

/-- The handler of KNI assigns the result, unless it is asked for the action. -/
theorem assigned_handleKnictlMsg_iff :
    (∀ result, (handleKnictlMsg { msg with result := result } globals).1.result =
      (handleKnictlMsg msg globals).1.result) ↔ msg.knictl.kniCmd ≠ ffKnictlCmdGet := by
  unfold handleKnictlMsg
  constructor
  · intro assigned get
    have kept := assigned (msg.result + 1)
    rw [get] at kept
    exact absurd kept (Int.ne_of_gt (Int.lt_succ _))
  · intro other result
    split_ifs <;> rfl

/-- Every message is given a result, but for the one question. -/
theorem assigned_iff : Assigned build stack msg globals ↔ ¬ AsksKni build msg := by
  unfold Assigned handle
  constructor
  · rintro assigned ⟨built, type, get⟩
    have found := ofNumber?_eq_some_iff.mpr type.symm
    have chosen : handlerOf stack build (some .knictl) = handleKnictlMsg := if_pos built
    change ∀ result, (handlerOf stack build (ofNumber? msg.msgType)
      { msg with result := result } globals).1.result = _ at assigned
    rw [found, chosen] at assigned
    exact (assigned_handleKnictlMsg_iff msg globals).mp assigned get
  · intro other
    refine handlerOf_rule build stack (motive := fun handler => ∀ result,
      (handler { msg with result := result } globals).1.result = (handler msg globals).1.result)
      (ofNumber? msg.msgType)
      (fun _ => rfl) (fun _ => ?_) (fun _ => rfl) (fun _ => rfl) (fun _ => rfl) (fun _ => ?_)
      (fun _ => rfl) (fun built found => ?_) (fun _ => rfl)
    · exact result_withSocket ..
    · exact result_withSocket ..
    · rw [assigned_handleKnictlMsg_iff]
      exact fun get => other ⟨built, (ofNumber?_eq_some_iff.mp found).symm, get⟩

end Handling

/-- What `process_msg_ring` does with the first message of the in-ring. -/
theorem processMsgRing_eq (build : Build) (stack : Stack) {proc : Proc} {addr : Nat}
    {rest : List Nat} (queued : proc.ring ringIn = addr :: rest) :
    (∀ out : Fin ffMsgNum, out.val = (proc.msgs addr).msgType.toNat →
      ∃ proc', processMsgRing build stack proc = some proc' ∧ proc'.ring =
        update (update proc.ring ringIn rest) out
          (ringEnqueue (update proc.ring ringIn rest out) addr)) ∧
      (ffMsgNum ≤ (proc.msgs addr).msgType.toNat → processMsgRing build stack proc = none) := by
  have type := msgType_handle build stack (proc.msgs addr) proc.globals
  unfold processMsgRing handleMsg
  rw [queued]
  dsimp only
  constructor
  · intro out same
    have inside : (handle stack build (proc.msgs addr) proc.globals).1.msgType.toNat < ffMsgNum := by
      rw [type, ← same]
      exact out.isLt
    obtain rfl : out = ⟨_, inside⟩ := Fin.ext (same.trans (congrArg UInt32.toNat type.symm))
    rw [dif_pos inside]
    exact ⟨_, rfl, rfl⟩
  · intro outside
    rw [dif_neg (by rw [type]; exact Nat.not_lt.mpr outside)]

theorem ringEnqueue_eq_append_iff (ring : List Nat) (obj : Nat) :
    ringEnqueue ring obj = ring ++ [obj] ↔ ring.length < msgRingCapacity := by
  unfold ringEnqueue
  split_ifs with room
  · simp [room]
  · simp [room]

/-- A message is answered exactly if its type has an out-ring with room and it does not
ask for the action of KNI. -/
theorem replied_iff (build : Build) (stack : Stack) (proc : Proc) (addr : Nat) (rest : List Nat)
    (queued : proc.ring ringIn = addr :: rest) :
    Replied build stack proc addr rest ↔ Answerable build proc (proc.msgs addr) := by
  obtain ⟨inside, outside⟩ := processMsgRing_eq build stack queued
  unfold Answerable
  rw [← assigned_iff build stack (proc.msgs addr) proc.globals]
  constructor
  · rintro ⟨proc', out, processed, positive, rings, assigned⟩
    have other : out ≠ ringIn := fun same => absurd (congrArg Fin.val same) (Nat.ne_of_gt positive)
    have below : (proc.msgs addr).msgType.toNat < ffMsgNum := by
      by_contra above
      rw [outside (Nat.not_lt.mp above)] at processed
      cases processed
    obtain ⟨proc'', processed', rings'⟩ := inside ⟨_, below⟩ rfl
    cases processed.symm.trans processed'
    have atOut := congrFun (rings.symm.trans rings') out
    rw [update_self] at atOut
    by_cases same : out = ⟨_, below⟩
    · rw [← same, update_self, update_of_ne other] at atOut
      exact ⟨⟨out, positive, congrArg Fin.val same,
        (ringEnqueue_eq_append_iff _ _).mp atOut.symm⟩, assigned⟩
    · rw [update_of_ne same, update_of_ne other] at atOut
      exact absurd (congrArg List.length atOut) (by simp)
  · rintro ⟨⟨out, positive, type, room⟩, assigned⟩
    obtain ⟨proc', processed, rings⟩ := inside out type
    have other : out ≠ ringIn := fun same => absurd (congrArg Fin.val same) (Nat.ne_of_gt positive)
    rw [update_of_ne other, (ringEnqueue_eq_append_iff _ _).mpr room] at rings
    exact ⟨proc', out, processed, positive, rings, assigned⟩

/-- A stack in which every call succeeds. -/
def quietStack : Stack where
  ffSysctl _ := ⟨0, none⟩
  ffSocket _ _ _ := ⟨3, none⟩
  ffIoctlFreebsd _ _ := ⟨0, none⟩
  ffClose _ := ⟨0, none⟩
  ffRtioctl args := (⟨0, none⟩, args.len)
  ffNgctl _ _ := ⟨0, none⟩
  ffGetsockoptFreebsd _ _ _ _ _ := ⟨0, none⟩
  ffSetsockoptFreebsd _ _ _ _ _ := ⟨0, none⟩
  socklen _ := 0

/-- A message whose arguments are all zero; a cleared KNI command is a question. -/
def plainMsg (msgType : UInt32) : FfMsg where
  msgType := msgType
  result := 0
  bufLen := 0
  bufAddr := 0
  sysctl := ⟨0, 0, 0, 0, 0, 0⟩
  ioctl := ⟨0, 0⟩
  route := ⟨0, 0, 0, 0⟩
  top := ⟨0, 0, 0, 0, 0⟩
  ngctl := ⟨0, 0, 0⟩
  ipfw := ⟨0, 0, 0, 0, 0⟩
  traffic := ⟨0, 0, 0, 0⟩
  knictl := ⟨0, 0⟩

/-- A process with one message of a type in its in-ring. -/
def procAsked (msgType : UInt32) : Proc where
  ring := update (fun _ => []) ringIn [0]
  msgs _ := plainMsg msgType
  globals := ⟨0, ⟨0, 0, 0, 0, 0⟩, ⟨0, 0, 0, 0⟩, 0⟩

def allFeatures : Build := ⟨true, true, true, true⟩

theorem replied_sysctl : Replied allFeatures quietStack (procAsked sysctl.number) 0 [] := by
  refine (replied_iff allFeatures quietStack (procAsked sysctl.number) 0 [] rfl).mpr ?_
  refine ⟨⟨⟨1, by decide⟩, by decide, by decide, by decide⟩, ?_⟩
  rintro ⟨-, type, -⟩
  exact absurd type (by decide)

/-- A message of type 0 goes back to the in-ring, and the answer to a question for the action
of KNI has the result that the message had before. -/
theorem not_replied_unknown_knictl :
    ((processMsgRing allFeatures quietStack (procAsked 0)).map (·.ring ringIn) = some [0] ∧
      ¬ Replied allFeatures quietStack (procAsked 0) 0 []) ∧
    ¬ Replied allFeatures quietStack (procAsked knictl.number) 0 [] := by
  refine ⟨⟨by decide, ?_⟩, ?_⟩
  · rintro ⟨proc', out, processed, positive, rings, -⟩
    have other : ringIn ≠ out := fun same => absurd (congrArg Fin.val same) (Nat.ne_of_lt positive)
    have back : proc'.ring ringIn = [0] := by
      cases processed
      decide
    rw [rings, update_of_ne other] at back
    cases back
  · rintro ⟨-, -, -, -, -, assigned⟩
    exact (assigned_iff ..).mp assigned ⟨rfl, rfl, rfl⟩

end FStack.Ipc
