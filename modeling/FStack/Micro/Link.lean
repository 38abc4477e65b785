import FStack.Micro.Waiting
import FStack.Std.CText

/-!
# Handlers that share a link

A `CSockLink` is a socket that several handlers send their requests on. `SendRecv` links a
handler to it, waits for the connection, sends and waits for the response; meanwhile the handler
is in one of the four lists of the link. What cannot be written at once is left with the
handlers in the send list, and goes out before anything else when there is room again.

Threads are cooperative: one that runs is not interrupted before it waits. A thread that waits
may go on at any time, for its time-out may have passed. A link that is destroyed is taken again
for another destination, with a new socket.
-/

namespace FStack.Micro

open Event (Filter)
open CText Steps

/-- The lists of a link, and the flags of the handlers in them. -/
inductive LinkList
  | idle
  | conn
  | send
  | recv
  deriving DecidableEq, Repr

inductive ProtoType
  | udp
  | tcp
  deriving DecidableEq, Repr

inductive ConnType
  | short
  | pool
  | session
  | sendOnly
  deriving DecidableEq, Repr

/-- Where the thread of a handler is: not in `SendRecv`, asleep in one of its three waits, or
behind one of the first two. -/
inductive Phase
  | out
  | connect
  | connected
  | send
  | sent
  | recv
  deriving DecidableEq, Repr

/-- `req` is the rest of the request, from `_req_data` on, and `sent` what is before it. `conn`
is whether `_conn_ptr` is set, `thread` whether `_thread` is; `ioWait` is the flag of the
thread. `ret` is what `SendRecv` has returned. -/
structure CNetHandler where
  conn : Bool
  stateFlags : LinkList → Bool
  connType : ConnType
  thread : Bool
  ioWait : Bool
  sent : List UInt8
  req : List UInt8
  errNo : Int
  rspLen : Option Nat
  phase : Phase
  ret : Option Int

/-- After `Reset`. -/
def CNetHandler.new : CNetHandler :=
  ⟨false, fun _ => false, .session, false, false, [], [], 0, none, .out, none⟩

/-- A link with all handlers, the proxy, and the thread that runs. `output` is what has been
written to the socket, call by call, and `submitted` are the requests that `WaitSend` was called
with. -/
structure CSockLink where
  handlers : Nat → CNetHandler
  lists : LinkList → List Nat
  protoType : ProtoType
  fd : Int
  events : BitVec 32
  connecting : Bool
  connected : Bool
  errno : Int
  proxy : KqueueProxy
  active : Option Nat
  output : List (List UInt8)
  submitted : List (List UInt8)

/-- What `writev` or `sendto` does: it takes some bytes, or fails with an error for which the
caller tries again, or with another one. -/
inductive WriteAnswer
  | written (count : Nat)
  | again
  | error
  deriving DecidableEq, Repr

/-- A descriptor; that of a new socket is not the one of the standard input. -/
structure Descriptor where
  val : Int
  positive : 0 < val

/-- What `socket` and `ioctl` answer. -/
structure SockAnswer where
  socket : Option Descriptor
  ioctl : Bool

inductive ConnectAnswer
  | ok
  | isConn
  | error
  deriving DecidableEq, Repr

/-- The arguments of `SendRecv` and what it finds: whether the destination, and the callback and
session id, are set, whether the session id is free, and whether there is memory for a link. -/
structure Request where
  data : List UInt8
  connType : ConnType
  dest : Bool
  session : Bool
  free : Bool
  memory : Bool

/-- `CheckParams`. -/
def Request.checkParams (request : Request) : Int :=
  if request.data = [] then -10
  else if !request.dest then -10
  else if request.connType = .session then
    if !request.session then -10 else if !request.free then -13 else 0
  else 0

namespace CSockLink

section Lists

def modify (link : CSockLink) (h : Nat) (change : CNetHandler → CNetHandler) : CSockLink :=
  { link with handlers := Function.update link.handlers h (change (link.handlers h)) }

def setFlag (link : CSockLink) (h : Nat) (type : LinkList) (value : Bool) : CSockLink :=
  link.modify h fun handler =>
    { handler with stateFlags := Function.update handler.stateFlags type value }

def appendToList (link : CSockLink) (type : LinkList) (h : Nat) : CSockLink :=
  { link with lists := Function.update link.lists type (link.lists type ++ [h]) }

def removeFromList (link : CSockLink) (type : LinkList) (h : Nat) : CSockLink :=
  { link with lists := Function.update link.lists type ((link.lists type).erase h) }

/-- One of the four tests of `DetachConn`. -/
def detachFrom (link : CSockLink) (h : Nat) (type : LinkList) : CSockLink :=
  if (link.handlers h).stateFlags type then (link.removeFromList type h).setFlag h type false
  else link

def detachConn (link : CSockLink) (h : Nat) : CSockLink :=
  if (link.handlers h).conn then
    (((link.detachFrom h .conn).detachFrom h .send).detachFrom h .recv).detachFrom h .idle
  else link

/-- `SwitchToConn` and its siblings. -/
def switchTo (link : CSockLink) (type : LinkList) (h : Nat) : CSockLink :=
  if (link.handlers h).conn then ((link.detachConn h).setFlag h type true).appendToList type h
  else link

def unlink (link : CSockLink) (h : Nat) : CSockLink :=
  (link.detachConn h).modify h ({ · with conn := false })

/-- The thread is made runnable if it waits. -/
def notifyThread (link : CSockLink) (h : Nat) (result : Int) : CSockLink :=
  link.modify h fun handler =>
    { handler with
      errNo := if result ≠ 0 then result else handler.errNo
      ioWait := handler.ioWait && !handler.thread }

/-- What `SendCacheTcp`, `OutputNotify` and the dispatchers do with a handler that is done. -/
def release (link : CSockLink) (h : Nat) : CSockLink := (link.notifyThread h 0).switchTo .idle h

def notifyAll (link : CSockLink) (result : Int) : CSockLink :=
  [LinkList.conn, .send, .recv, .idle].foldl (fun link type =>
    (link.lists type).foldl (fun link h => (link.notifyThread h result).unlink h) link) link

end Lists

section Socket

/-- The object that the proxy has for the link. -/
def obj (link : CSockLink) : KqueuerObj := ⟨.lasting 0, link.fd, link.events, 0⟩

/-- `close` takes the filters of the descriptor away. -/
def closeFd (proxy : KqueueProxy) (fd : Int) : KqueueProxy :=
  { proxy with registered := fun key => if key.1 = fd then false else proxy.registered key }

/-- `Close`. -/
def close (link : CSockLink) (accepts : Change → Bool) : CSockLink :=
  if link.fd < 0 then link
  else { link with
    proxy := closeFd (link.proxy.kqueueDelObj accepts link.obj).1 link.fd
    fd := -1 }

/-- `Destroy`, up to where the link is taken again for another destination. -/
def destroy (link : CSockLink) (accepts : Change → Bool) (next : ProtoType) : CSockLink :=
  { (link.close accepts).notifyAll link.errno with
    lists := fun _ => []
    protoType := next
    errno := 0
    connecting := false
    connected := false
    fd := -1
    events := 0
    output := []
    submitted := [] }

def createSock (link : CSockLink) (answer : SockAnswer) (accepts : Change → Bool) :
    CSockLink × Int :=
  if link.fd > 0 then (link, link.fd)
  else
    match answer.socket with
    | none => ({ link with fd := -1 }, -1)
    | some descriptor =>
      if !answer.ioctl then ({ link with fd := -1 }, -2)
      else
        let events := match link.protoType with
          | .tcp => link.events ||| kqEventWrite ||| kqEventRead
          | .udp => link.events ||| kqEventRead
        let opened := { link with fd := descriptor.val, events }
        match link.proxy.kqueueAddObj accepts opened.obj with
        | (proxy, false) => ({ opened with proxy := closeFd proxy descriptor.val, fd := -1 }, -3)
        | (proxy, true) => ({ opened with proxy }, descriptor.val)

def connect (link : CSockLink) (answer : ConnectAnswer) : CSockLink × Bool :=
  if link.protoType = .udp then ({ link with connected := true }, true)
  else if link.connected then (link, true)
  else if link.connecting then (link, false)
  else
    match answer with
    | .ok | .isConn => ({ link with connected := true }, true)
    | .error => ({ link with connecting := true }, false)

end Socket

section Sending

def skipSendPos (link : CSockLink) (h : Nat) (len : Nat) : CSockLink :=
  link.modify h fun handler =>
    { handler with sent := handler.sent ++ handler.req.take len, req := handler.req.drop len }

/-- The second loop of `SendCacheTcp`: what has been written is taken from the handlers. -/
def sendLoop : List Nat → Nat → CSockLink → CSockLink × Nat
  | [], left, link => (link, left)
  | h :: rest, left, link =>
    let skipped := left - (link.handlers h).req.length
    let link := link.skipSendPos h left
    let link := if (link.handlers h).req = [] then link.release h else link
    if skipped = 0 then (link, 0) else sendLoop rest skipped link

/-- The vector has the data of at most 64 handlers, and the new data if there is room. -/
def iov (link : CSockLink) (data : Option (List UInt8)) : List (List UInt8) :=
  let waiting := (link.lists .send).take 64
  waiting.map (fun h => (link.handlers h).req) ++
    if waiting.length < 64 then data.toList else []

/-- `writev` writes at most `INT_MAX` bytes. -/
def sendCacheTcp (link : CSockLink) (data : Option (List UInt8)) (answers : List WriteAnswer) :
    CSockLink × Int :=
  match answers.headD .again with
  | .again => (link, 0)
  | .error => (link, -1)
  | .written count =>
    let bytes := (link.iov data).flatten.take (min count 2147483647)
    let (link, left) := sendLoop (link.lists .send) bytes.length
      { link with output := link.output ++ [bytes] }
    (link, toInt left)

/-- The loop of `SendCacheUdp`; with a value if it returns. -/
def datagramLoop : List Nat → List WriteAnswer → CSockLink →
    CSockLink × List WriteAnswer × Option Int
  | [], answers, link => (link, answers, none)
  | h :: rest, answers, link =>
    let req := (link.handlers h).req
    if req = [] then datagramLoop rest answers (link.release h)
    else
      match answers with
      | [] => (link, [], some 0)
      | .again :: answers => (link, answers, some 0)
      | .error :: answers => (link, answers, some (-2))
      | .written _ :: answers =>
        datagramLoop rest answers ({ link with output := link.output ++ [req] }.release h)

def sendCacheUdp (link : CSockLink) (data : List UInt8) (answers : List WriteAnswer) :
    CSockLink × Int :=
  match datagramLoop (link.lists .send) answers link with
  | (link, _, some ret) => (link, ret)
  | (link, answers, none) =>
    if data = [] then (link, 0)
    else
      match answers.headD .again with
      | .again => (link, 0)
      | .error => (link, -2)
      | .written count =>
        ({ link with output := link.output ++ [data] }, toInt (min count data.length))

def sendCache (link : CSockLink) (data : Option (List UInt8)) (answers : List WriteAnswer) :
    CSockLink × Int :=
  match link.protoType with
  | .udp => link.sendCacheUdp (data.getD []) answers
  | .tcp => link.sendCacheTcp data answers

/-- `DisableOutput`, with the filter. -/
def unwatch (link : CSockLink) (accepts : Change → Bool) : CSockLink :=
  { link with
    events := link.events &&& ~~~kqEventWrite
    proxy := (link.proxy.kqueueCtrlDel accepts link.fd kqEventWrite).1 }

/-- If some data is left, the read event is added. -/
def sendData (link : CSockLink) (data : List UInt8) (answers : List WriteAnswer)
    (accepts : Change → Bool) : CSockLink × Int :=
  let (link, ret) := link.sendCache (some data) answers
  if ret < toInt data.length then
    ({ link with
        events := link.events ||| kqEventWrite
        proxy := (link.proxy.kqueueCtrlAdd accepts link.fd kqEventRead).1 }, ret)
  else (link.unwatch accepts, ret)

end Sending

section Threads

/-- The thread waits. -/
def sleep (link : CSockLink) (h : Nat) (phase : Phase) : CSockLink :=
  { link.modify h ({ · with phase, ioWait := true }) with active := none }

/-- The thread goes on behind a wait. -/
def goOn (link : CSockLink) (h : Nat) (phase : Phase) : CSockLink :=
  { link.modify h ({ · with phase }) with active := some h }

/-- `SendRecv` returns. -/
def finish (link : CSockLink) (h : Nat) (ret : Int) : CSockLink :=
  { (link.unlink h).modify h ({ · with phase := .out, ret := some ret }) with active := none }

def waitConnect (link : CSockLink) (h : Nat) (sock : SockAnswer) (answer : ConnectAnswer)
    (accepts : Change → Bool) : CSockLink :=
  let (link, fd) := link.createSock sock accepts
  if fd < 0 then link.finish h (-1)
  else
    match link.connect answer with
    | (link, true) => link.goOn h .connected
    | (link, false) => (link.switchTo .conn h).sleep h .connect

/-- `SendRecv`, up to the end of `WaitConnect` or its wait. -/
def sendRecv (link : CSockLink) (h : Nat) (request : Request) (sock : SockAnswer)
    (answer : ConnectAnswer) (accepts : Change → Bool) : CSockLink :=
  let link := link.modify h fun handler =>
    { handler with sent := [], req := request.data, connType := request.connType }
  if request.checkParams < 0 then link.finish h request.checkParams
  else
    let link := link.modify h fun handler =>
      { handler with thread := handler.thread || request.connType = .session }
    if !request.memory then link.finish h (-12)
    else
      ((link.modify h ({ · with conn := true })).switchTo .idle h).waitConnect h sock answer accepts

/-- `WaitSend`, behind `SendData`. -/
def sendResult (link : CSockLink) (h : Nat) (ret : Int) : CSockLink :=
  if ret < 0 then link.finish h (-2)
  else
    let link := link.skipSendPos h ret.toNat
    if (link.handlers h).req = [] then link.goOn h .sent
    else (link.switchTo .send h).sleep h .send

def waitSend (link : CSockLink) (h : Nat) (answers : List WriteAnswer)
    (accepts : Change → Bool) : CSockLink :=
  if !(link.handlers h).conn then link.finish h (-12)
  else
    let req := (link.handlers h).req
    let sent := { link with submitted := link.submitted ++ [req] }.sendData req answers accepts
    sent.1.sendResult h sent.2

def waitRecv (link : CSockLink) (h : Nat) : CSockLink :=
  if !(link.handlers h).conn then link.finish h (-12)
  else if (link.handlers h).connType = .sendOnly then link.finish h 0
  else (link.switchTo .recv h).sleep h .recv

/-- What a wait returns when the thread goes on. -/
def waited (link : CSockLink) (h : Nat) : Int :=
  let handler := link.handlers h
  match handler.phase with
  | .connect => if handler.errNo ≠ 0 then handler.errNo else if link.connected then 0 else -4
  | .send => if handler.errNo ≠ 0 then handler.errNo else if handler.req = [] then 0 else -2
  | .recv => if 0 < handler.rspLen.getD 0 then 0 else -3
  | _ => 0

/-- A thread that waits goes on, woken up or after its time-out. -/
def wakeup (link : CSockLink) (h : Nat) : CSockLink :=
  let phase := (link.handlers h).phase
  let link := (link.modify h ({ · with ioWait := false })).switchTo .idle h
  let ret := link.waited h
  match phase with
  | .connect => if ret < 0 then link.finish h ret else link.goOn h .connected
  | .send => if ret < 0 then link.finish h ret else link.goOn h .sent
  | _ => link.finish h ret

end Threads

section Events

/-- The handlers that wait for the connection go on. -/
def established (link : CSockLink) : CSockLink :=
  if link.connecting then
    (link.lists .conn).foldl release { link with connecting := false, connected := true }
  else link

def outputNotify (link : CSockLink) (answers : List WriteAnswer) (accepts : Change → Bool)
    (next : ProtoType) : CSockLink :=
  match link.established.sendCache none answers with
  | (link, ret) =>
    if ret < 0 then { link with errno := -2 }.destroy accepts next
    else if link.lists .send = [] then link.unwatch accepts
    else link

/-- A response is handed to a session. -/
def respond (link : CSockLink) (h : Nat) (len : Nat) : CSockLink :=
  (link.release h).modify h ({ · with rspLen := some len })

/-- `Reset` of a handler that is not in `SendRecv`. -/
def resetHandler (link : CSockLink) (h : Nat) : CSockLink :=
  (link.unlink h).modify h fun _ => .new

inductive Input
  | sendRecv (h : Nat) (request : Request) (sock : SockAnswer) (answer : ConnectAnswer)
  | waitSend (h : Nat) (answers : List WriteAnswer)
  | waitRecv (h : Nat)
  | wakeup (h : Nat)
  | outputNotify (answers : List WriteAnswer) (next : ProtoType)
  | respond (h : Nat) (len : Nat)
  /-- `InputNotify` or `HangupNotify` fails, or the link has not been used for a while. -/
  | destroy (errno : Int) (next : ProtoType)
  | resetHandler (h : Nat)

/-- A step, with what the calls of `ff_kevent` answer. -/
structure Event where
  input : Input
  accepts : Change → Bool

/-- What may happen in a state: the thread that runs goes on; if none runs, one that is not in
`SendRecv` calls it, one that waits goes on, or the daemon notifies the link. -/
def Enabled (link : CSockLink) : Input → Prop
  | .sendRecv h _ _ _ => link.active = none ∧ (link.handlers h).phase = .out
  | .waitSend h _ => link.active = some h ∧ (link.handlers h).phase = .connected
  | .waitRecv h => link.active = some h ∧ (link.handlers h).phase = .sent
  | .wakeup h => link.active = none ∧
      ((link.handlers h).phase = .connect ∨ (link.handlers h).phase = .send ∨
        (link.handlers h).phase = .recv)
  | .outputNotify _ _ | .respond _ _ | .destroy _ _ => link.active = none
  | .resetHandler h => link.active = none ∧ (link.handlers h).phase = .out

instance (link : CSockLink) : DecidablePred link.Enabled
  | .sendRecv .. | .waitSend .. | .waitRecv .. | .wakeup .. | .resetHandler .. =>
    inferInstanceAs (Decidable (_ ∧ _))
  | .outputNotify .. | .respond .. | .destroy .. => inferInstanceAs (Decidable (_ = _))

def perform (link : CSockLink) (accepts : Change → Bool) : Input → CSockLink
  | .sendRecv h request sock answer => link.sendRecv h request sock answer accepts
  | .waitSend h answers => link.waitSend h answers accepts
  | .waitRecv h => link.waitRecv h
  | .wakeup h => link.wakeup h
  | .outputNotify answers next => link.outputNotify answers accepts next
  | .respond h len => link.respond h len
  | .destroy errno next => { link with errno }.destroy accepts next
  | .resetHandler h => link.resetHandler h

/-- What cannot happen changes nothing. -/
def step (link : CSockLink) (event : Event) : CSockLink :=
  if link.Enabled event.input then link.perform event.accepts event.input else link

/-- A link that has just been taken for a destination. -/
def init (protoType : ProtoType) (proxy : KqueueProxy) : CSockLink :=
  ⟨fun _ => .new, fun _ => [], protoType, -1, 0, false, false, 0, proxy, none, [], []⟩

end Events

end CSockLink

end FStack.Micro
