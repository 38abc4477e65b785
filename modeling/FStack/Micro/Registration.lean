import FStack.Micro.Net
import FStack.Micro.Writable

/-!
# What a step of one link does to pointers

A handler points to its link, and an entry of the proxy to the link whose descriptor it is for.
A handler gets a link only in `SendRecv`. An entry gets one when a socket is created, and loses it
when the socket is closed, unless `KqueueDelObj` is refused.
-/

namespace FStack.Micro

open Event (Filter)
open CText Function KqueueProxy Maps

namespace CSockLink

variable {link link' link'' : CSockLink} {h : Nat} {accepts : Change → Bool}

section Conn

theorem linked_of_others (others : (link.handlers h).conn = false →
    link'.handlers h = link.handlers h) (linked : (link'.handlers h).conn = true) :
    (link.handlers h).conn = true := by
  cases conn : (link.handlers h).conn with
  | true => rfl
  | false => rw [others conn, conn] at linked; exact linked

theorem Tidy.switchTo_conn (tidy : link.Tidy) (type : LinkList) (h : Nat) :
    ((link.switchTo type h).handlers h).conn = (link.handlers h).conn := by
  rw [tidy.switchTo_self]

theorem Tidy.finish_conn (tidy : link.Tidy) (h : Nat) (ret : Int) :
    ((link.finish h ret).handlers h).conn = false := by
  unfold CSockLink.finish
  rw [modify_self, tidy.unlink_self]

theorem goOn_conn (link : CSockLink) (h : Nat) (phase : Phase) :
    ((link.goOn h phase).handlers h).conn = (link.handlers h).conn := by
  unfold goOn
  rw [modify_self]

theorem Tidy.waitRecv_conn (tidy : link.Tidy)
    (linked : ((link.waitRecv h).handlers h).conn = true) : (link.handlers h).conn = true := by
  cases conn : (link.handlers h).conn with
  | true => rfl
  | false =>
    unfold CSockLink.waitRecv at linked
    rw [conn, if_pos (by decide), tidy.finish_conn] at linked
    exact linked

/-- A handler that has a link after waking up had it before. -/
theorem Tidy.wakeup_conn (tidy : link.Tidy)
    (linked : ((link.wakeup h).handlers h).conn = true) : (link.handlers h).conn = true := by
  have woken : Apart link (link.modify h ({ · with ioWait := false })) h :=
    tidy.modify h _ rfl (tidy.linked h)
  have conn : (((link.modify h ({ · with ioWait := false })).switchTo .idle h).handlers h).conn =
      (link.handlers h).conn := by
    rw [woken.tidy.switchTo_conn, modify_self]
  have switched := (woken.tidy.switchTo .idle h).tidy
  unfold wakeup at linked
  dsimp only at linked
  generalize (link.modify h _).switchTo .idle h = link₁ at *
  rw [← conn]
  have finishes (ret : Int) (linked : ((link₁.finish h ret).handlers h).conn = true) :
      (link₁.handlers h).conn = true := by
    rw [switched.finish_conn] at linked
    cases linked
  split at linked
  · split_ifs at linked
    · exact finishes _ linked
    · rwa [goOn_conn] at linked
  · split_ifs at linked
    · exact finishes _ linked
    · rwa [goOn_conn] at linked
  · exact finishes _ linked

theorem Tidy.waitSend_conn (tidy : link.Tidy) {answers : List WriteAnswer}
    (linked : ((link.waitSend h answers accepts).handlers h).conn = true) :
    (link.handlers h).conn = true := by
  cases conn : (link.handlers h).conn with
  | true => rfl
  | false =>
    unfold waitSend at linked
    rw [conn, if_pos (by decide), tidy.finish_conn] at linked
    exact linked

theorem Tidy.respond_conn (tidy : link.Tidy) (h len : Nat) :
    ((link.respond h len).handlers h).conn = (link.handlers h).conn := by
  unfold respond
  rw [modify_self]
  exact (tidy.release h).conn

theorem reset_conn (link : CSockLink) (h : Nat) : ((link.reset h).handlers h).conn = false :=
  congrArg CNetHandler.conn ((link.unlink h).modify_self h _)

theorem Tidy.reset (tidy : link.Tidy) (h : Nat) : Moves link (link.reset h) h :=
  tidy.unlink_moves h (fun _ => rfl) fun _ => rfl

end Conn

section Objects

/-- An entry that names the link is that of its socket. -/
def Named (link : CSockLink) : Prop :=
  ∀ fd, link.proxy.notify fd = some (.lasting 0) →
    link.fd = fd ∧ 0 < fd ∧ link.proxy.Inside fd

/-- Only the entry of the socket of the link may be another one. -/
structure Registers (link link' : CSockLink) : Prop where
  maxfd : link'.proxy.maxfd = link.proxy.maxfd
  named : link.Named → link'.Named
  others : ∀ fd address, address ≠ 0 → link'.proxy.notify fd = some (.lasting address) →
    link.proxy.notify fd = some (.lasting address)

theorem Registers.trans (first : Registers link link') (second : Registers link' link'') :
    Registers link link'' :=
  ⟨second.maxfd.trans first.maxfd, fun named => second.named (first.named named),
    fun fd address other named => first.others fd address other
      (second.others fd address other named)⟩

theorem registers_of_sameObjs (fd : link'.fd = link.fd)
    (objs : KqueueProxy.SameObjs link.proxy link'.proxy) : Registers link link' := by
  refine ⟨objs.maxfd, fun named other there => ?_, fun other address _ there => ?_⟩
  · rw [objs.notify] at there
    obtain ⟨same, positive, inside⟩ := named other there
    exact ⟨fd.trans same, positive, inside.of_maxfd _ objs.maxfd⟩
  · rwa [objs.notify] at there

theorem fd_of_socket (socket : link'.socket = link.socket) : link'.fd = link.fd :=
  congrArg Prod.fst socket

theorem registers_of_socket (socket : link'.socket = link.socket) : Registers link link' := by
  obtain ⟨fd, proxy⟩ := Prod.mk.inj socket
  exact registers_of_sameObjs fd (proxy ▸ .refl _)

/-- Nothing names a link without a socket. -/
theorem Named.unnamed (named : link.Named) (closed : ¬ link.fd > 0) (fd : Int) :
    link.proxy.notify fd ≠ some (.lasting 0) := fun there => by
  obtain ⟨same, positive, -⟩ := named fd there
  omega

/-- The link has no socket, and may get one. -/
theorem registers_of_closed (closed : ¬ link.fd > 0)
    (maxfd : link'.proxy.maxfd = link.proxy.maxfd)
    (notify : link'.proxy.notify = link.proxy.notify ∨
      0 < link'.fd ∧ link.proxy.Inside link'.fd ∧ link'.proxy.notify =
        update link.proxy.notify link'.fd (some (.lasting 0))) :
    Registers link link' := by
  refine ⟨maxfd, fun named fd there => ?_, fun fd address other there => ?_⟩
  · rcases notify with same | ⟨positive, inside, entered⟩
    · rw [same] at there
      exact absurd there (named.unnamed closed fd)
    · rw [entered] at there
      rcases update_some_iff.mp there with ⟨rfl, -⟩ | ⟨-, there⟩
      · exact ⟨rfl, positive, inside.of_maxfd _ maxfd⟩
      · exact absurd there (named.unnamed closed fd)
  · rcases notify with same | ⟨-, -, entered⟩
    · rwa [same] at there
    · rw [entered] at there
      rcases update_some_iff.mp there with ⟨-, same⟩ | ⟨-, there⟩
      · exact absurd (ObjPtr.lasting.inj same).symm other
      · exact there

/-- A new socket is registered under its link. -/
theorem createSock_registers (link : CSockLink) (sock : SockAnswer) (accepts : Change → Bool) :
    Registers link (link.createSock sock accepts).1 := by
  unfold createSock
  by_cases opened : link.fd > 0
  · rw [if_pos opened]
    exact registers_of_socket rfl
  rw [if_neg opened]
  obtain ⟨_ | descriptor, ioctl⟩ := sock
  · exact registers_of_closed opened rfl (.inl rfl)
  dsimp only
  split_ifs
  · exact registers_of_closed opened rfl (.inl rfl)
  · generalize obj_eq : obj { link with fd := descriptor.val, events := _ } = obj
    have fd : obj.fd = descriptor.val := obj_eq ▸ rfl
    have ptr : obj.ptr = .lasting 0 := obj_eq ▸ rfl
    have added := link.proxy.kqueueAddObj_cases accepts obj
    rw [fd, ptr] at added
    generalize link.proxy.kqueueAddObj accepts obj = result at added
    obtain ⟨proxy, _ | _⟩ := result
    · obtain ⟨⟨⟩, -⟩ | ⟨-, objs⟩ := added
      exact registers_of_closed opened objs.maxfd (.inl objs.notify)
    · obtain ⟨-, inside, notify, maxfd⟩ | ⟨⟨⟩, -⟩ := added
      exact registers_of_closed opened maxfd (.inr ⟨descriptor.positive, inside, notify⟩)

section

variable (tidy : link.Tidy) (h : Nat) (answers : List WriteAnswer) (accepts : Change → Bool)

include tidy

/-- Sending changes the registration of the link only. -/
theorem sendData_registers (data : List UInt8) :
    Registers link (link.sendData data answers accepts).1 := by
  have drains := (tidy.sendCache (some data) answers).drains
  have cached : Registers link (link.sendCache (some data) answers).1 :=
    registers_of_socket (congrArg₂ Prod.mk drains.fd drains.proxy)
  refine cached.trans ?_
  unfold sendData
  dsimp only
  split_ifs
  · exact registers_of_sameObjs rfl (ctrl_sameObjs _ accepts (.add _ _))
  · exact registers_of_sameObjs rfl (ctrl_sameObjs _ accepts (.delRef _ _ false))

theorem Tidy.waitSend_registers : Registers link (link.waitSend h answers accepts) := by
  unfold waitSend
  split_ifs
  · exact registers_of_socket (link.finish_socket h _)
  · have submitted : Registers link (link.submits h) := registers_of_socket rfl
    have tidy : (link.submits h).Tidy := { tidy with }
    exact (submitted.trans (sendData_registers tidy answers accepts _)).trans
      (registers_of_socket (sendResult_socket _ h _))

/-- Sending does not close the descriptor. -/
theorem Tidy.waitSend_fd : (link.waitSend h answers accepts).fd = link.fd := by
  cases linked : (link.handlers h).conn with
  | false =>
    unfold waitSend
    rw [linked]
    exact fd_of_socket (link.finish_socket h _)
  | true =>
    have submitted : (link.submits h).Tidy := { tidy with }
    have cached := (submitted.sendCache (some (link.handlers h).req) answers).drains.fd
    rw [waitSend_eq linked, fd_of_socket (sendResult_socket _ h _)]
    refine trans ?_ cached
    unfold sendData
    dsimp only
    split_ifs <;> rfl

end

/-- Connecting changes the registration of the link only. -/
theorem waitConnect_registers (link : CSockLink) (h : Nat) (sock : SockAnswer)
    (answer : ConnectAnswer) (accepts : Change → Bool) :
    Registers link (link.waitConnect h sock answer accepts) := by
  have created := link.createSock_registers sock accepts
  unfold waitConnect
  generalize link.createSock sock accepts = result at created
  obtain ⟨link₁, fd⟩ := result
  dsimp only at created ⊢
  split_ifs
  · exact created.trans (registers_of_socket (link₁.finish_socket h _))
  · have connected := link₁.connect_socket answer
    generalize link₁.connect answer = result at connected
    obtain ⟨link₂, _ | _⟩ := result
    all_goals
      refine created.trans (registers_of_socket (trans ?_ connected))
      simp

/-- A request changes the registration of its link only. -/
theorem sendRecv_registers (link : CSockLink) (h : Nat) (request : Request) (sock : SockAnswer)
    (answer : ConnectAnswer) (accepts : Change → Bool) :
    Registers link (link.sendRecv h request sock answer accepts) := by
  have joined : (link.joins h request).socket = link.socket := switchTo_socket _ _ h
  rw [sendRecv_eq]
  split_ifs
  · exact registers_of_socket (finish_socket _ h _)
  · exact registers_of_socket (finish_socket _ h _)
  · exact (registers_of_socket joined).trans (waitConnect_registers _ h sock answer accepts)

theorem Tidy.sendRecv_fails (tidy : link.Tidy) (h : Nat) (request : Request)
    (none : request.memory = false) (sock : SockAnswer) (answer : ConnectAnswer)
    (accepts : Change → Bool) :
    ((link.sendRecv h request sock answer accepts).handlers h).conn = false ∧
    (link.sendRecv h request sock answer accepts).socket = link.socket := by
  rw [sendRecv_eq]
  split_ifs with invalid memory
  · exact ⟨(tidy.asks h request).tidy.finish_conn h _, finish_socket _ h _⟩
  · exact ⟨(tidy.registers h request).tidy.finish_conn h _, finish_socket _ h _⟩
  · exact absurd (by rw [none]; rfl) memory

/-- Closing unregisters the descriptor. -/
theorem close_registers (link : CSockLink) (accepted : ∀ change, accepts change = true) :
    Registers link (link.close accepts) := by
  unfold close
  split_ifs with closed
  · exact registers_of_socket rfl
  obtain ⟨maxfd, fewer⟩ := link.proxy.kqueueDelObj_fewer accepts link.obj
  refine ⟨maxfd, fun named fd there => ?_, fun fd address _ there => fewer fd _ there⟩
  obtain ⟨rfl, -, inside⟩ := named fd (fewer fd _ there)
  have forgotten : (link.proxy.kqueueDelObj accepts link.obj).1.notify link.obj.fd ≠ _ :=
    kqueueDelObj_forgets inside fun change _ => accepted change
  exact absurd there forgotten

theorem close_fd (link : CSockLink) (accepts : Change → Bool) : (link.close accepts).fd < 0 := by
  unfold close
  split_ifs with closed
  · exact closed
  · exact (by decide : (-1 : Int) < 0)

/-- A destroyed link is registered no longer. -/
theorem Tidy.destroy_registers (tidy : link.Tidy) (accepted : ∀ change, accepts change = true)
    (next : ProtoType) : Registers link (link.destroy accepts next) := by
  have closed := ((link.close_same accepts).within tidy).tidy
  obtain ⟨-, -, handlers, lists, inner⟩ := (closed.notifyAll link.errno).1
  have proxy : (link.destroy accepts next).proxy = (link.close accepts).proxy :=
    (congrArg proxy inner :)
  have gone : ¬ (link.close accepts).fd > 0 := not_lt_of_gt (link.close_fd accepts)
  exact (link.close_registers accepted).trans
    (registers_of_closed gone (by rw [proxy]) (.inl (by rw [proxy])))

theorem outputNotify_of_fails {answers : List WriteAnswer}
    (failed : (link.established.sendCache none answers).2 < 0) (accepts : Change → Bool)
    (next : ProtoType) : link.outputNotify answers accepts next =
      { (link.established.sendCache none answers).1 with errno := -2 }.destroy accepts next :=
  if_pos failed

/-- A link that becomes writable changes its own registration only. -/
theorem Tidy.outputNotify_registers (tidy : link.Tidy) (answers : List WriteAnswer)
    (next : ProtoType) (accepted : (link.established.sendCache none answers).2 < 0 →
      ∀ change, accepts change = true) :
    Registers link (link.outputNotify answers accepts next) := by
  have begun := tidy.established
  have drains := (begun.tidy.sendCache none answers).drains
  have sent : Registers link (link.established.sendCache none answers).1 :=
    registers_of_socket (congrArg₂ Prod.mk (drains.fd.trans begun.fd)
      (drains.proxy.trans begun.proxy))
  have tidy₁ := drains.tidy
  unfold CSockLink.outputNotify
  generalize link.established.sendCache none answers = result at sent accepted tidy₁
  obtain ⟨link₁, ret⟩ := result
  dsimp only at sent accepted tidy₁ ⊢
  split_ifs with failed
  · have marked : Registers link₁ { link₁ with errno := -2 } := registers_of_socket rfl
    have tidy₂ : ({ link₁ with errno := -2 } : CSockLink).Tidy := { tidy₁ with }
    exact sent.trans (marked.trans (tidy₂.destroy_registers (accepted failed) next))
  · exact sent.trans (registers_of_sameObjs rfl
      (ctrl_sameObjs _ accepts (.delRef _ _ false)))
  · exact sent

end Objects

end CSockLink

end FStack.Micro
