import Mathlib.Logic.Function.Basic
import FStack.Std.Steps

/-!
# The mailboxes of the preloaded shim

`ft_hook.c` replaces the socket calls of a client process. A call is written field by
field into a shared request mailbox; the monitor process (`monitor/main.c`) polls it,
performs the F-Stack call and writes the result into a response mailbox, which the
client polls in turn.

Here every access to a field is a step of its own. A hook and a case of the monitor's
switches is a list of such accesses, in the order of the source; `clientStep` and
`monitorStep` perform the next one, and a run interleaves the two in any way.
-/

namespace FStack.Preload

open Function

/-- The values of `ds_form.form`. `IOCTL` and `FCNTL` have no mailbox. -/
inductive Form where
  | socket | close | connect | read | write | sendto | recvfrom | recv | send
  | setsockopt | listen | bind | accept | select | getsockopt
deriving DecidableEq, Repr

/-- The argument fields of the request structures. An address is written as three
fields; `text` is a buffer. -/
inductive Field where
  | fd | domain | type | protocol | backlog | sinAddr | sinFamily | sinPort | addrlen
  | text | len | flags | level | optionName | nfds | readfds | writefds | exceptfds
  | sec | usec
deriving DecidableEq, Repr

inductive Value where
  | int (value : Int)
  | bytes (content : List UInt8)
deriving DecidableEq, Repr

def Value.toInt : Value → Int
  | .int value => value
  | .bytes _ => 0

def Value.toBytes : Value → List UInt8
  | .int _ => []
  | .bytes content => content

/-- The C string at the start of a buffer, with its terminator. -/
def Value.cString (value : Value) : List UInt8 := value.toBytes.takeWhile (· ≠ 0) ++ [0]

/-- `strcpy(dst, src)`: what lies behind the terminator in `dst` stays. A string that does not fit is
written over the next fields, which is not modelled: `State.fits` excludes it. -/
def strcpy (dst src : Value) : Value :=
  .bytes (src.cString ++ dst.toBytes.drop src.cString.length)

/-- A field of a request goes into the response: numbers are assigned, buffers go through
`strcpy`. -/
def Value.copy (dst : Value) : Value → Value
  | .int value => .int value
  | .bytes content => strcpy dst (.bytes content)

/-- `sizeof(struct sockaddr_in)` and `MAX_BUFF`. -/
def sizeofSockaddrIn : Int := 16
def maxBuff : Int := 2048

def sockDgram : Int := 2

/-! ## The mailboxes -/

/-- `fmt_action` and `fmtr_action`, each with a structure for every form. -/
structure Mailbox where
  formFlag : Bool
  form : Form
  flag : Form → Bool
  arg : Form → Field → Value
  respFlag : Form → Bool
  ret : Form → Int
  out : Form → Field → Value

namespace Mailbox

/-- Shared memory as `shmget` gives it. -/
def zeroed : Mailbox where
  formFlag := false
  form := .socket
  flag _ := false
  arg _ _ := .int 0
  respFlag _ := false
  ret _ := 0
  out _ _ := .int 0

variable (form : Form) (field : Field) (box : Mailbox)

def setFormFlag (value : Bool) : Mailbox := { box with formFlag := value }

def setForm : Mailbox := { box with form := form }

def setFlag (value : Bool) : Mailbox :=
  { box with flag := update box.flag form value }

def setArg (value : Value) : Mailbox :=
  { box with arg := update box.arg form (update (box.arg form) field value) }

/-- What the F-Stack call of a form leaves in the arguments that it gets by address. -/
def setArgs (fields : List Field) (values : Field → Value) : Mailbox :=
  { box with
    arg := update box.arg form fun field =>
      if field ∈ fields then values field else box.arg form field }

def setRespFlag (value : Bool) : Mailbox :=
  { box with respFlag := update box.respFlag form value }

def setRet (value : Int) : Mailbox :=
  { box with ret := update box.ret form value }

def setOut (value : Value) : Mailbox :=
  { box with out := update box.out form (update (box.out form) field value) }

/-- `fmt_action->ds_socket.type == SOCK_DGRAM`. -/
def socketDgram : Bool := (box.arg .socket .type).toInt = sockDgram

end Mailbox

/-! ## The hooks -/

/-- A call of the client: its arguments, and what `memcpy` finds when it is given the
address of a pointer in place of the pointer. -/
structure Invocation where
  form : Form
  args : Field → Value
  frame : Field → Value

/-- Calls are numbered in the order in which they are made. -/
structure Call extends Invocation where
  num : Nat

/-- One write of a hook into the request mailbox. -/
inductive Put where
  | form
  | flag
  | arg (field : Field)
  | text
  | const (field : Field) (value : Int)
  | frame (field : Field)
deriving DecidableEq, Repr

/-- What a hook writes after it has set `ds_form.flag`. `ft_hook_read` leaves
`ds_form.form` alone; the first five forms set their flag before the arguments. -/
def request : Form → List Put
  | .socket => [.form, .flag, .arg .domain, .arg .type, .arg .protocol]
  | .close => [.form, .flag, .arg .fd]
  | .connect | .bind =>
    [.form, .flag, .arg .fd, .arg .addrlen, .arg .sinAddr, .arg .sinFamily, .arg .sinPort]
  | .listen => [.form, .flag, .arg .fd, .arg .backlog]
  | .read => [.arg .fd, .text, .arg .len, .flag]
  | .write => [.form, .arg .fd, .text, .arg .len, .flag]
  | .sendto =>
    [.form, .arg .fd, .text, .arg .len, .arg .flags, .arg .sinAddr, .arg .sinFamily,
      .arg .sinPort, .arg .addrlen, .flag]
  | .recvfrom =>
    [.form, .arg .fd, .text, .arg .len, .arg .flags, .arg .sinAddr, .arg .sinFamily,
      .arg .sinPort, .const .addrlen sizeofSockaddrIn, .flag]
  | .recv | .send => [.form, .arg .fd, .arg .len, .arg .flags, .text, .flag]
  | .setsockopt =>
    [.form, .arg .fd, .arg .level, .arg .optionName, .text, .arg .len, .flag]
  | .getsockopt =>
    [.form, .arg .fd, .arg .level, .arg .optionName, .text, .const .len maxBuff, .flag]
  | .accept =>
    [.form, .arg .fd, .arg .sinAddr, .arg .sinFamily, .arg .sinPort,
      .const .addrlen sizeofSockaddrIn, .flag]
  | .select =>
    [.form, .arg .nfds, .frame .readfds, .frame .writefds, .frame .exceptfds, .arg .sec,
      .arg .usec, .flag]

/-- One access of a hook to the response mailbox. -/
inductive Get where
  | clear
  | out (field : Field)
  | ret
deriving DecidableEq, Repr

/-- What a hook does once it has seen the flag of the response. -/
def response : Form → List Get
  | .read | .recv => [.out .text, .clear, .ret]
  | .recvfrom => [.out .text, .out .sinAddr, .out .sinFamily, .out .sinPort, .clear, .ret]
  | .getsockopt => [.clear, .out .text, .ret]
  | _ => [.clear, .ret]

/-- Where the client is. `claiming` has read `ds_form.flag == 0`; `asking` has the writes
of its request to make and, when there are none left, polls for the response. -/
inductive ClientPc where
  | idle
  | seeking (call : Call)
  | claiming (call : Call)
  | asking (call : Call) (puts : List Put)
  | collecting (call : Call) (gets : List Get)

/-! ## The monitor -/

/-- The loops of the monitor that look at requests: `preparatory_work`, `service` and the
loops of `service_epoll` for a UDP server, for a TCP connection and for a TCP listener. -/
inductive Loop where
  | prepare | service | udp | tcp | accept
deriving DecidableEq, Repr

/-- One access of the monitor to a mailbox, or one of its own steps. `callUntil` is the
F-Stack call that is repeated until its result is positive, `callOrLeave` the one after
which a negative result leaves the loop. `own` are calls for the monitor's own purposes,
which leave the mailboxes alone. -/
inductive Op where
  | arg (field : Field)
  | const (field : Field) (value : Int)
  | call
  | callUntil
  | callOrLeave
  | own
  | succeed
  | clear
  | out (field : Field)
  | ret
  | post
  | free
  | udpIfDgram
  | epollIfDgram
  | listening
  | stopIfZero
  | restart
  | udpOff
  | leave
  | register
deriving DecidableEq, Repr

/-- The arguments of the F-Stack call of a form. -/
def parameters : Form → List Op
  | .socket => [.arg .domain, .arg .type, .arg .protocol]
  | .close => [.arg .fd]
  | .connect | .bind =>
    [.arg .fd, .arg .sinAddr, .arg .sinFamily, .arg .sinPort,
      .const .addrlen sizeofSockaddrIn]
  | .listen => [.arg .fd, .arg .backlog]
  | .read | .write => [.arg .fd, .arg .text, .arg .len]
  | .sendto | .recvfrom =>
    [.arg .fd, .arg .text, .arg .len, .arg .flags, .arg .sinAddr, .arg .sinFamily,
      .arg .sinPort, .arg .addrlen]
  | .recv | .send => [.arg .fd, .arg .text, .arg .len, .arg .flags]
  | .setsockopt | .getsockopt =>
    [.arg .fd, .arg .level, .arg .optionName, .arg .text, .arg .len]
  | .accept => [.arg .fd, .arg .sinAddr, .arg .sinFamily, .arg .sinPort, .arg .addrlen]
  | .select =>
    [.arg .nfds, .arg .readfds, .arg .writefds, .arg .exceptfds, .arg .sec, .arg .usec]

/-- The arguments that an F-Stack call writes to. -/
def results : Form → List Field
  | .read | .recv => [.text]
  | .recvfrom => [.text, .sinAddr, .sinFamily, .sinPort, .addrlen]
  | .getsockopt => [.text, .len]
  | .accept => [.sinAddr, .sinFamily, .sinPort, .addrlen]
  | .select => [.readfds, .writefds, .exceptfds, .sec, .usec]
  | _ => []

/-- The forms that are served only if the descriptor is positive. -/
def guarded : Form → Bool
  | .connect | .bind | .listen | .accept | .send | .recv => true
  | _ => false

/-- What follows the F-Stack call. For `connect` the result is dropped and the flag of the
response stands before the value. -/
def answer : Form → List Op
  | .socket => [.clear, .ret, .post, .udpIfDgram]
  | .connect => [.clear, .succeed, .post, .ret]
  | .listen => [.clear, .ret, .post, .own, .listening]
  | .recv => [.clear, .out .fd, .out .text, .ret, .post]
  | .sendto => [.clear, .out .fd, .ret, .post]
  | .recvfrom =>
    [.clear, .ret, .out .text, .out .sinAddr, .out .sinFamily, .out .sinPort, .post]
  | .read | .setsockopt | .getsockopt => [.clear, .ret, .out .text, .post]
  | _ => [.clear, .ret, .post]

/-- The F-Stack call in the case of a form. -/
def perform : Loop → Form → List Op
  | .tcp, .recv => [.callUntil]
  | _, _ => [.call]

/-- What a case does when the descriptor, where it is looked at, is positive. -/
def body (loop : Loop) (form : Form) : List Op :=
  (if form = .connect then [.own] else []) ++ parameters form ++ perform loop form ++ answer form

/-- What a case does in any case. For `socket` the flag of the response is set again after
the slot is free. -/
def closing : Loop → Form → List Op
  | .prepare, .socket => [.free, .post]
  | .prepare, .connect | .prepare, .listen => [.free, .stopIfZero]
  | .prepare, .bind => [.epollIfDgram, .free]
  | .prepare, .close => [.free, .restart]
  | .service, .close => [.free, .restart, .udpOff]
  | .udp, .sendto | .tcp, .send => [.free, .leave]
  | .udp, .close => [.free, .restart, .leave]
  | _, _ => [.free]

/-- One round of the loop of a TCP listener. The flag of the request is not cleared. -/
def acceptRound : List Op :=
  parameters .accept ++ [.callOrLeave, .ret, .post, .free, .register]

/-- The cases of the switch of a loop. -/
def handles : Loop → Form → Bool
  | .prepare, form =>
    form ∈ [.socket, .connect, .bind, .listen, .close, .select, .setsockopt, .getsockopt]
  | .service, form =>
    form ∈ [.accept, .send, .recv, .sendto, .recvfrom, .write, .read, .getsockopt, .select,
      .close]
  | .udp, form => form ∈ [.sendto, .recvfrom, .close]
  | .tcp, form => form ∈ [.send, .recv, .write, .read, .getsockopt, .select, .close]
  | .accept, _ => false

/-- Where the monitor is. `poll` reads `ds_form.flag`, `switch` reads `ds_form.form`,
`await` polls the flag of a form, `guard` looks at the descriptor. `recheck` is the end of
a round of `preparatory_work`, `pick` goes through the events of `service_epoll`,
`acceptFlag` and `acceptFd` are the two halves of the test in the loop of a listener. -/
inductive MonitorPc where
  | entry
  | poll (loop : Loop)
  | switch (loop : Loop)
  | await (loop : Loop) (form : Form)
  | guard (loop : Loop) (form : Form)
  | run (loop : Loop) (form : Form) (ops : List Op)
  | recheck
  | pick
  | acceptFlag
  | acceptFd
deriving DecidableEq, Repr

/-- The monitor's variables; `used` are the arguments read for the next F-Stack call. -/
structure Monitor where
  pc : MonitorPc
  running : Bool
  udpStatus : Bool
  epStatus : Bool
  runningEpoll : Bool
  ret : Int
  used : List (Field × Value)

namespace Monitor

variable (monitor : Monitor)

def goto (pc : MonitorPc) : Monitor := { monitor with pc := pc }
def setRunning (value : Bool) : Monitor := { monitor with running := value }
def setUdpStatus (value : Bool) : Monitor := { monitor with udpStatus := value }
def setEpStatus (value : Bool) : Monitor := { monitor with epStatus := value }
def setRunningEpoll (value : Bool) : Monitor := { monitor with runningEpoll := value }
def setRet (value : Int) : Monitor := { monitor with ret := value }
def setUsed (used : List (Field × Value)) : Monitor := { monitor with used := used }

end Monitor

/-- What the monitor's surroundings decide in a step: the result of an F-Stack call and
what it writes, the next event, the value of an uninitialised variable, whether
`ff_epoll_ctl` succeeds. -/
structure Env where
  result : Int
  outs : Field → Value
  event : Option (Int × Bool × Bool)
  junk : Int
  registered : Bool

/-! ## Runs -/

/-- What has happened, none of which the code looks at. `last` is the call that took the
slot last and `answered` whether a response to it is posted; `asker` is the call that set
the flag of a request, `answering` the call whose flag the monitor has seen; `retFor` and
`outFor` are the calls that the fields of the responses were written for. -/
structure History where
  calls : Nat
  last : Call
  answered : Bool
  asker : Form → Nat
  answering : Nat
  posts : Nat
  retFor : Form → Nat
  outFor : Form → Field → Nat
  taken : List Nat
  accepted : List Int
  returned : List Int

structure State where
  box : Mailbox
  client : ClientPc
  monitor : Monitor
  history : History

namespace History

variable (form : Form) (field : Field) (history : History)

def invoke : History := { history with calls := history.calls + 1 }

def claim (call : Call) : History := { history with last := call, answered := false }

def ask (num : Nat) : History :=
  { history with asker := update history.asker form num }

/-- The monitor has seen the flag of a request. -/
def see : History := { history with answering := history.asker form, posts := 0 }

def performed (result : Int) : History :=
  { history with
    accepted := if form = .accept then history.accepted ++ [result] else history.accepted }

def wroteRet : History :=
  { history with retFor := update history.retFor form history.answering }

def wroteOut : History :=
  { history with
    outFor := update history.outFor form
      (update (history.outFor form) field history.answering) }

def post : History :=
  { history with
    answered := history.answered || history.answering == history.last.num
    posts := history.posts + 1 }

def take (value : Int) : History :=
  { history with
    taken := history.taken ++ [history.retFor form]
    returned := if form = .accept then history.returned ++ [value] else history.returned }

end History

namespace State

variable (s : State)

def setBox (box : Mailbox) : State := { s with box := box }
def setClient (client : ClientPc) : State := { s with client := client }
def setMonitor (monitor : Monitor) : State := { s with monitor := monitor }
def setHistory (history : History) : State := { s with history := history }
def goto (pc : MonitorPc) : State := s.setMonitor (s.monitor.goto pc)

end State

/-- Before any call. -/
def initial : State where
  box := .zeroed
  client := .idle
  monitor :=
    { pc := .entry, running := true, udpStatus := false, epStatus := false,
      runningEpoll := false, ret := 0, used := [] }
  history :=
    { calls := 0, last := ⟨⟨.socket, fun _ => .int 0, fun _ => .int 0⟩, 0⟩, answered := true,
      asker := fun _ => 0, answering := 0, posts := 0, retFor := fun _ => 0,
      outFor := fun _ _ => 0, taken := [], accepted := [], returned := [] }

/-- A write of a request. -/
def Put.exec (call : Call) (s : State) : Put → State
  | .form => s.setBox (s.box.setForm call.form)
  | .flag =>
    (s.setBox (s.box.setFlag call.form true)).setHistory (s.history.ask call.form call.num)
  | .arg field => s.setBox (s.box.setArg call.form field (call.args field))
  | .text =>
    s.setBox (s.box.setArg call.form .text
      (strcpy (s.box.arg call.form .text) (call.args .text)))
  | .const field value => s.setBox (s.box.setArg call.form field (.int value))
  | .frame field => s.setBox (s.box.setArg call.form field (call.frame field))

/-- An access to a response. What `out` copies goes to the caller's memory. -/
def Get.exec (form : Form) (s : State) : Get → State
  | .clear => s.setBox (s.box.setRespFlag form false)
  | .out _ => s
  | .ret => s.setHistory (s.history.take form (s.box.ret form))

/-- The next access of the client; an idle client makes a call. -/
def clientStep (invocation : Invocation) (s : State) : State :=
  match s.client with
  | .idle =>
    (s.setHistory s.history.invoke).setClient
      (.seeking { invocation with num := s.history.calls + 1 })
  | .seeking call => if s.box.formFlag then s else s.setClient (.claiming call)
  | .claiming call =>
    ((s.setBox (s.box.setFormFlag true)).setHistory (s.history.claim call)).setClient
      (.asking call (request call.form))
  | .asking call (put :: rest) => (put.exec call s).setClient (.asking call rest)
  | .asking call [] =>
    if s.box.respFlag call.form then s.setClient (.collecting call (response call.form)) else s
  | .collecting call (get :: rest) => (get.exec call.form s).setClient (.collecting call rest)
  | .collecting _ [] => s.setClient .idle

/-- Where a loop goes on after a case, or when there is none for the form. -/
def Loop.next : Loop → MonitorPc
  | .prepare => .recheck
  | .service => .entry
  | .udp => .poll .udp
  | .tcp => .poll .tcp
  | .accept => .acceptFlag

/-- The F-Stack call of a form. -/
def State.perform (form : Form) (env : Env) (s : State) : State :=
  ((s.setBox (s.box.setArgs form (results form) env.outs)).setMonitor
    ((s.monitor.setRet env.result).setUsed []))

/-- A step of a case of the monitor, `rest` being what is left of it. -/
def Op.exec (env : Env) (loop : Loop) (form : Form) (rest : List Op) (s : State) : Op → State
  | .arg field =>
    (s.setMonitor (s.monitor.setUsed (s.monitor.used ++ [(field, s.box.arg form field)]))).goto
      (.run loop form rest)
  | .const field value =>
    (s.setMonitor (s.monitor.setUsed (s.monitor.used ++ [(field, .int value)]))).goto
      (.run loop form rest)
  | .call =>
    ((s.perform form env).setHistory (s.history.performed form env.result)).goto
      (.run loop form rest)
  | .callUntil =>
    (s.perform form env).goto (.run loop form
      (if env.result ≤ 0 then parameters form ++ .callUntil :: rest else rest))
  | .callOrLeave =>
    -- `ff_accept` writes the address only when it has a connection
    if env.result < 0 then
      (s.setMonitor ((s.monitor.setRet env.result).setUsed [])).goto .pick
    else
      ((s.perform form env).setHistory (s.history.performed form env.result)).goto
        (.run loop form rest)
  | .own => s.goto (.run loop form rest)
  | .succeed => (s.setMonitor (s.monitor.setRet 0)).goto (.run loop form rest)
  | .clear => (s.setBox (s.box.setFlag form false)).goto (.run loop form rest)
  | .out field =>
    ((s.setBox (s.box.setOut form field
      ((s.box.out form field).copy (s.box.arg form field)))).setHistory
        (s.history.wroteOut form field)).goto (.run loop form rest)
  | .ret =>
    ((s.setBox (s.box.setRet form s.monitor.ret)).setHistory (s.history.wroteRet form)).goto
      (.run loop form rest)
  | .post =>
    ((s.setBox (s.box.setRespFlag form true)).setHistory s.history.post).goto
      (.run loop form rest)
  | .free => (s.setBox (s.box.setFormFlag false)).goto (.run loop form rest)
  | .udpIfDgram =>
    (s.setMonitor (s.monitor.setUdpStatus
      (s.box.socketDgram || s.monitor.udpStatus))).goto (.run loop form rest)
  | .epollIfDgram =>
    (s.setMonitor ((s.monitor.setRunning (!s.box.socketDgram && s.monitor.running)).setEpStatus
      (s.box.socketDgram || s.monitor.epStatus))).goto (.run loop form rest)
  | .listening => (s.setMonitor (s.monitor.setEpStatus true)).goto (.run loop form rest)
  | .stopIfZero =>
    (s.setMonitor (s.monitor.setRunning (s.monitor.ret ≠ 0 && s.monitor.running))).goto
      (.run loop form rest)
  | .restart => (s.setMonitor (s.monitor.setRunning true)).goto (.run loop form rest)
  | .udpOff => (s.setMonitor (s.monitor.setUdpStatus false)).goto (.run loop form rest)
  | .leave => (s.setMonitor (s.monitor.setRunningEpoll false)).goto (.run loop form rest)
  | .register => s.goto (if env.registered then .run loop form rest else .pick)

/-- The monitor looks at the next event of `ff_epoll_wait`, if there is one: its descriptor
and whether `EPOLLIN` and `EPOLLERR` are set. -/
def State.pick (event : Option (Int × Bool × Bool)) (s : State) : State :=
  match event with
  | none => s.goto .entry
  | some (fd, input, error) =>
    if s.monitor.udpStatus then
      if input ∧ s.box.ret .socket = fd then
        (s.setMonitor (s.monitor.setRunningEpoll true)).goto (.poll .udp)
      else s
    else if fd = s.box.ret .socket then s.goto .acceptFlag
    else if input ∧ ¬error then
      (s.setMonitor (s.monitor.setRunningEpoll true)).goto (.poll .tcp)
    else s

/-- The next access of the monitor, `loop` of `monitor/main.c` being called again and
again. -/
def monitorStep (env : Env) (s : State) : State :=
  match s.monitor.pc with
  | .entry =>
    s.goto (if s.monitor.running then .poll .prepare
      else if s.monitor.epStatus then .pick else .poll .service)
  | .poll loop =>
    if loop ∈ [.udp, .tcp] ∧ ¬s.monitor.runningEpoll then s.goto .pick
    else s.goto (if s.box.formFlag then .switch loop else loop.next)
  | .switch loop =>
    (s.setMonitor (s.monitor.setRet env.junk)).goto
      (if handles loop s.box.form then .await loop s.box.form else loop.next)
  | .await loop form =>
    if s.box.flag form then
      ((s.setMonitor (s.monitor.setUsed [])).setHistory (s.history.see form)).goto
        (if guarded form then .guard loop form
          else .run loop form (body loop form ++ closing loop form))
    else s
  | .guard loop form =>
    s.goto (.run loop form
      (if 0 < (s.box.arg form .fd).toInt then body loop form ++ closing loop form
        else closing loop form))
  | .run loop _ [] => s.goto loop.next
  | .run loop form (op :: rest) => op.exec env loop form rest s
  | .recheck =>
    (s.setMonitor (s.monitor.setRunning
      (s.monitor.running && !(s.box.formFlag && s.monitor.udpStatus)))).goto .entry
  | .pick => s.pick env.event
  | .acceptFlag =>
    if s.box.flag .accept then
      ((s.setMonitor (s.monitor.setUsed [])).setHistory (s.history.see .accept)).goto .acceptFd
    else s
  | .acceptFd =>
    s.goto (if 0 < (s.box.arg .accept .fd).toInt then .run .accept .accept acceptRound
      else .acceptFlag)

/-- One access of one of the two processes. -/
inductive Step where
  | client (invocation : Invocation)
  | monitor (env : Env)

def Step.env? : Step → Option Env
  | .client _ => none
  | .monitor env => some env

def Step.monitors : Step → Bool
  | .client _ => false
  | .monitor _ => true

def step (s : State) : Step → State
  | .client invocation => clientStep invocation s
  | .monitor env => monitorStep env s

/-- What a step stores into a buffer of a mailbox fits there: the string that a hook copies from the
caller's buffer, what an F-Stack call stores, and the string that the monitor copies. -/
def State.fits (s : State) : Step → Bool
  | .client _ =>
    match s.client with
    | .asking call (.text :: _) => (call.args .text).cString.length ≤ maxBuff
    | _ => true
  | .monitor env =>
    match s.monitor.pc with
    | .run _ form (.call :: _) | .run _ form (.callUntil :: _) | .run _ form (.callOrLeave :: _) =>
      .text ∉ results form || (env.outs .text).toBytes.length ≤ maxBuff
    | .run _ form (.out field :: _) => (s.box.arg form field).cString.length ≤ maxBuff
    | _ => true

/-- Accesses of a client whose next call has the given form, with one value for all of its
arguments. -/
def clientRun (form : Form) (value : Int) (count : Nat) : List Step :=
  List.replicate count (.client ⟨form, fun _ => .int value, fun _ => .int 0⟩)

/-- Accesses of the monitor, with one result for all F-Stack calls and one event. -/
def monitorRun (result : Int) (event : Option (Int × Bool × Bool)) (count : Nat) : List Step :=
  List.replicate count (.monitor ⟨result, fun _ => .int 0, event, result, true⟩)

end FStack.Preload
