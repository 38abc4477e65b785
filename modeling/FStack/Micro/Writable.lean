import FStack.Micro.LinkLists

/-!
# Requests that wait until the socket can be written

What `SendData` cannot write waits in the send list until `OutputNotify` is called, and this is
done for a write filter. A TCP socket gets one when it is created. It is deleted as soon as
everything has been written, and `SendData` does not add it again: for data that is left it adds
the event that is there anyway, `KQ_EVENT_READ`.
-/

namespace FStack.Micro

open Event (Filter has has_or)
open CText Steps

namespace KqueueProxy

theorem kqueueAddObj_events {proxy : KqueueProxy} {accepts : Change → Bool} {obj : KqueuerObj}
    (added : (proxy.kqueueAddObj accepts obj).2 = true) :
    ((proxy.kqueueAddObj accepts obj).1.kqrefs obj.fd).events =
      (proxy.kqrefs obj.fd).events ||| obj.events := by
  obtain ⟨registered, ⟨-, -, entered⟩ | refused⟩ := proxy.kqueueAddObj_eq accepts obj
  · rw [entered]
    simp only [setRef, Function.update_self]
    rfl
  · rw [refused] at added
    cases added

end KqueueProxy

namespace CSockLink

variable {link : CSockLink} {h : Nat} {type : LinkList}

section Socket

/-- What belongs to the socket of the link. -/
def socket (link : CSockLink) : Int × KqueueProxy := (link.fd, link.proxy)

variable (link)

@[simp] theorem modify_socket (h : Nat) (change : CNetHandler → CNetHandler) :
    (link.modify h change).socket = link.socket := rfl

@[simp] theorem detachFrom_socket (h : Nat) (type : LinkList) :
    (link.detachFrom h type).socket = link.socket := by
  unfold detachFrom
  split_ifs <;> rfl

@[simp] theorem detachConn_socket (h : Nat) : (link.detachConn h).socket = link.socket := by
  unfold detachConn
  split_ifs
  · simp only [detachFrom_socket]
  · rfl

@[simp] theorem switchTo_socket (type : LinkList) (h : Nat) :
    (link.switchTo type h).socket = link.socket := by
  unfold switchTo
  split_ifs
  · exact link.detachConn_socket h
  · rfl

@[simp] theorem unlink_socket (h : Nat) :
    (link.unlink h).socket = link.socket := link.detachConn_socket h

@[simp] theorem finish_socket (h : Nat) (ret : Int) :
    (link.finish h ret).socket = link.socket := link.unlink_socket h

@[simp] theorem sleep_socket (h : Nat) (phase : Phase) :
    (link.sleep h phase).socket = link.socket := rfl

@[simp] theorem goOn_socket (h : Nat) (phase : Phase) :
    (link.goOn h phase).socket = link.socket := rfl

theorem waitRecv_socket (h : Nat) : (link.waitRecv h).socket = link.socket := by
  unfold waitRecv
  split_ifs <;> simp

theorem wakeup_socket (h : Nat) : (link.wakeup h).socket = link.socket := by
  unfold wakeup
  dsimp only
  split <;> (try split_ifs) <;> simp

theorem respond_socket (h len : Nat) : (link.respond h len).socket = link.socket := by
  unfold respond release notifyThread
  simp

theorem resetHandler_socket (h : Nat) : (link.resetHandler h).socket = link.socket := by
  unfold resetHandler
  simp

theorem sendResult_socket (h : Nat) (ret : Int) : (link.sendResult h ret).socket = link.socket := by
  unfold sendResult skipSendPos
  dsimp only
  split_ifs <;> simp

theorem connect_socket (answer : ConnectAnswer) : (link.connect answer).1.socket = link.socket := by
  unfold connect
  split_ifs
  · rfl
  · rfl
  · rfl
  · cases answer <;> rfl

end Socket

section Watching

/-- The proxy listens for input on an open socket, and for output if some handler waits for it. -/
structure Watching (link : CSockLink) : Prop where
  opened : link.fd = -1 ∨ 0 < link.fd
  reads : 0 < link.fd → has (link.proxy.kqrefs link.fd).events (kqEvent .read) = true
  writes : link.lists .send ≠ [] → 0 < link.fd ∧ link.proxy.registered (link.fd, .write) = true

variable {link' : CSockLink}

/-- The socket is as it was, and no one has got into the send list. -/
theorem Watching.quiet (watching : link.Watching) (socket : link'.socket = link.socket)
    (lists : link'.lists .send ≠ [] → link.lists .send ≠ []) : link'.Watching := by
  obtain ⟨fd, proxy⟩ := Prod.mk.inj socket
  refine ⟨?_, ?_, fun some => ?_⟩ <;> rw [fd] <;> (try rw [proxy])
  · exact watching.opened
  · exact watching.reads
  · exact watching.writes (lists some)

theorem Moves.send_ne_nil (moves : Moves link link' h) (some : link'.lists .send ≠ []) :
    link.lists .send ≠ [] := by
  rintro none
  rw [moves.toApart.list_eq moves.rests.unflagged, none] at some
  exact some rfl

section

variable (watching : link.Watching)

include watching

/-- A handler that does not get into the send list. -/
theorem Watching.moves (moves : Moves link link' h) (socket : link'.socket = link.socket) :
    link'.Watching :=
  watching.quiet socket moves.send_ne_nil

/-- A socket is opened only if there is none, and is read then. -/
theorem Watching.createSock (answer : SockAnswer) (accepts : Change → Bool) :
    (link.createSock answer accepts).1.Watching := by
  unfold CSockLink.createSock
  by_cases opened : link.fd > 0
  · rw [if_pos opened]
    exact watching
  · rw [if_neg opened]
    have none : ¬ link.lists .send ≠ [] := fun some => opened (watching.writes some).1
    cases answer.socket with
    | none => exact ⟨.inl rfl, by rintro ⟨⟩, fun some => absurd some none⟩
    | some descriptor =>
      cases answer.ioctl with
      | false => exact ⟨.inl rfl, by rintro ⟨⟩, fun some => absurd some none⟩
      | true =>
        dsimp only
        cases link.protoType
        all_goals
          generalize answered : link.proxy.kqueueAddObj accepts _ = result
          obtain ⟨proxy, _ | _⟩ := result
          · exact ⟨.inl rfl, by rintro ⟨⟩, fun some => absurd some none⟩
          · have mask := KqueueProxy.kqueueAddObj_events (congrArg Prod.snd answered)
            rw [answered] at mask
            refine ⟨.inr descriptor.positive, fun _ => ?_, fun some => absurd some none⟩
            refine (congrArg (has · (kqEvent .read)) mask).trans ?_
            dsimp only [obj]
            have reads : has kqEventRead (kqEvent .read) = true := by decide
            simp only [has_or, reads, Bool.or_true]

/-- A link that connects is watched. -/
theorem Watching.waitConnect {sock : SockAnswer} {answer : ConnectAnswer} {accepts : Change → Bool}
    (moves : Moves link (link.waitConnect h sock answer accepts) h) :
    (link.waitConnect h sock answer accepts).Watching := by
  have same := link.createSock_same sock accepts
  have socket : (link.waitConnect h sock answer accepts).socket =
      (link.createSock sock accepts).1.socket := by
    unfold CSockLink.waitConnect
    generalize link.createSock sock accepts = result
    obtain ⟨link₁, fd⟩ := result
    dsimp only
    have connected := link₁.connect_socket answer
    split_ifs
    · exact link₁.finish_socket h _
    · generalize link₁.connect answer = result at connected
      obtain ⟨link₂, _ | _⟩ := result
      · simp only [sleep_socket, switchTo_socket]
        exact connected
      · rw [goOn_socket]
        exact connected
  refine (watching.createSock sock accepts).quiet socket fun some => ?_
  rw [same.lists]
  exact moves.send_ne_nil some

/-- A request keeps the link watched. -/
theorem Watching.sendRecv (tidy : link.Tidy) (h : Nat) (request : Request) (sock : SockAnswer)
    (answer : ConnectAnswer) (accepts : Change → Bool) :
    (link.sendRecv h request sock answer accepts).Watching := by
  have moves := tidy.sendRecv (h := h) request sock answer accepts
  rw [sendRecv_eq] at moves ⊢
  split_ifs at moves ⊢ with invalid memory
  · exact watching.moves moves (by unfold asks; simp)
  · exact watching.moves moves (by unfold registers asks; simp)
  · obtain ⟨apart, unflagged, -⟩ := tidy.joins h request
    have joined : (link.joins h request).Watching := by
      refine watching.quiet (by unfold joins registers asks; simp) fun some => ?_
      rintro none
      rw [apart.list_eq unflagged, none] at some
      exact some rfl
    exact joined.waitConnect (tidy.joins_waitConnect h invalid sock answer accepts)

theorem Watching.drains (drains : Drains link link') : link'.Watching := by
  refine watching.quiet (Prod.ext drains.fd drains.proxy) fun some none => ?_
  obtain ⟨h, member⟩ := List.exists_mem_of_ne_nil _ some
  have there := drains.lists h member
  rw [none] at there
  exact absurd there List.not_mem_nil

/-- With no one in the send list the write filter may go. -/
theorem Watching.unwatch (none : link.lists .send = []) (accepts : Change → Bool) :
    (link.unwatch accepts).Watching := by
  refine ⟨watching.opened, fun opened => ?_, absurd none⟩
  exact (KqueueProxy.kqueueCtrlDel_other (by decide)).trans (watching.reads opened)

/-- Listening for input takes nothing away from output. -/
theorem Watching.addRead (accepts : Change → Bool) :
    Watching { link with
      events := link.events ||| kqEventWrite
      proxy := (link.proxy.kqueueCtrlAdd accepts link.fd kqEventRead).1 } ∧
    (0 < link.fd → (link.proxy.kqueueCtrlAdd accepts link.fd kqEventRead).1.registered =
      link.proxy.registered) := by
  have same (opened : 0 < link.fd) :=
    @KqueueProxy.kqueueCtrlAdd_there link.proxy accepts link.fd .read (watching.reads opened)
  refine ⟨⟨watching.opened, fun opened => ?_, fun some => ?_⟩, fun opened => (same opened).1⟩
  · exact (congrArg (has · (kqEvent .read)) (same opened).2).trans (watching.reads opened)
  · obtain ⟨opened, registered⟩ := watching.writes some
    exact ⟨opened, (congrFun (same opened).1 _).trans registered⟩

end

/-- `writev` or `sendto` takes a part of the request of a handler, or is to be tried again. -/
def TakesPart (link : CSockLink) (h : Nat) (answers : List WriteAnswer) : Prop :=
  (link.handlers h).conn = true ∧
    0 ≤ ((link.submits h).sendCache (some (link.handlers h).req) answers).2 ∧
    ((link.submits h).sendCache (some (link.handlers h).req) answers).2 < (link.handlers h).req.length

/-- The request has a length that `SendData` compares as it is. If not all of it is taken, the
socket is open and has a write filter. -/
def Guarded (link : CSockLink) (event : Event) : Prop :=
  match event.input with
  | .waitSend h answers => (link.handlers h).req.length < 2147483648 ∧
      (link.TakesPart h answers →
        0 < link.fd ∧ link.proxy.registered (link.fd, .write) = true)
  | _ => True

instance (link : CSockLink) : DecidablePred link.Guarded
  | ⟨.waitSend .., _⟩ => inferInstanceAs (Decidable (_ ∧ (_ ∧ _ ∧ _ → _ ∧ _)))
  | ⟨.sendRecv .., _⟩ | ⟨.waitRecv .., _⟩ | ⟨.wakeup .., _⟩ | ⟨.outputNotify .., _⟩
  | ⟨.respond .., _⟩ | ⟨.destroy .., _⟩ | ⟨.resetHandler .., _⟩ =>
    inferInstanceAs (Decidable True)

/-- `SendData` takes the filter away only if nothing is left. -/
theorem Watching.sendData (watching : link.Watching) (tidy : link.Tidy) {data : List UInt8}
    (some : data ≠ []) (small : data.length < 2147483648) (answers : List WriteAnswer)
    (accepts : Change → Bool) :
    (link.sendData data answers accepts).1.Watching ∧
    (link.sendData data answers accepts).1.fd = link.fd ∧
    (0 < link.fd → (link.sendData data answers accepts).2 < data.length →
      (link.sendData data answers accepts).1.proxy.registered = link.proxy.registered) := by
  have cached := tidy.sendCache (.some data) answers
  have long := List.length_pos_of_ne_nil some
  unfold CSockLink.sendData
  rw [toInt_small small]
  generalize link.sendCache (.some data) answers = result at cached
  obtain ⟨link₁, ret⟩ := result
  have drained := watching.drains cached.drains
  dsimp only
  by_cases left : ret < data.length
  · rw [if_pos left]
    obtain ⟨added, same⟩ := drained.addRead accepts
    refine ⟨added, cached.drains.fd, fun opened _ => ?_⟩
    rw [same (by rw [cached.drains.fd]; exact opened), cached.drains.proxy]
  · rw [if_neg left]
    exact ⟨drained.unwatch (cached.empty (by omega)) accepts, cached.drains.fd,
      fun _ less => absurd less left⟩

/-- Who is put into the send list has not sent everything, and has not failed. -/
theorem Tidy.sendResult_left (tidy : link.Tidy)
    (unflagged : (link.handlers h).stateFlags .send = false) {ret : Int}
    (member : h ∈ (link.sendResult h ret).lists .send) :
    0 ≤ ret ∧ ret < (link.handlers h).req.length := by
  unfold CSockLink.sendResult at member
  have skipped := tidy.skipSendPos h ret.toNat
  by_cases failed : ret < 0
  · rw [if_pos failed] at member
    refine absurd member ((tidy.finish h (-2)).tidy.not_mem_of_unflagged ?_)
    unfold CSockLink.finish
    dsimp only
    rw [modify_self, tidy.unlink_self]
    rfl
  rw [if_neg failed] at member
  by_cases none : ((link.skipSendPos h ret.toNat).handlers h).req = []
  · rw [if_pos none] at member
    refine absurd member ((skipped.tidy.goOn h .sent).tidy.not_mem_of_unflagged ?_)
    rw [goOn_flags, skipSendPos_self]
    exact unflagged
  · rw [skipSendPos_done] at none
    omega

/-- A handler that is left with bytes is watched for output. -/
theorem Watching.waitSend (watching : link.Watching) (steady : link.Steady)
    (phase : (link.handlers h).phase = .connected) {answers : List WriteAnswer}
    {accepts : Change → Bool} (small : (link.handlers h).req.length < 2147483648)
    (guarded : link.TakesPart h answers →
      0 < link.fd ∧ link.proxy.registered (link.fd, .write) = true) :
    (link.waitSend h answers accepts).Watching := by
  have absent : h ∉ link.lists .send := steady.not_mem_send (by rw [phase]; decide)
  have unflagged := steady.tidy.unflagged_of_not_mem absent
  cases linked : (link.handlers h).conn with
  | false =>
    unfold CSockLink.waitSend
    rw [linked, if_pos (by decide)]
    exact watching.moves (steady.tidy.finish h _) (link.finish_socket h _)
  | true =>
    unfold TakesPart at guarded
    rw [linked, eq_self, true_and] at guarded
    rw [waitSend_eq linked]
    obtain ⟨drains, same, self⟩ := steady.tidy.submits_sendCache absent answers accepts
    have submitted : (link.submits h).Watching :=
      watching.quiet rfl fun some => some
    obtain ⟨watched, fd, registered⟩ := submitted.sendData { steady.tidy with }
      ((steady.settled h).fresh linked (.inr phase)).2 small answers accepts
    obtain ⟨-, value⟩ := sendData_same (link.submits h) (link.handlers h).req answers accepts
    rw [value] at registered
    have tidy := drains.tidy.same same
    generalize ((link.submits h).sendData (link.handlers h).req answers accepts).1 = link₂ at *
    generalize ((link.submits h).sendCache (some (link.handlers h).req) answers).2 = ret at *
    have flags : (link₂.handlers h).stateFlags .send = false := by rw [self]; exact unflagged
    obtain ⟨socket, proxy⟩ := Prod.mk.inj (link₂.sendResult_socket h ret)
    refine ⟨?_, ?_, fun some => ?_⟩ <;> rw [socket] <;> (try rw [proxy])
    · exact watched.opened
    · exact watched.reads
    · by_cases member : h ∈ (link₂.sendResult h ret).lists .send
      · have left := tidy.sendResult_left flags member
        rw [self] at left
        obtain ⟨opened, writes⟩ := guarded left
        rw [registered opened left.2, fd]
        exact ⟨opened, writes⟩
      · have apart := (tidy.sendResult flags ret).1
        refine watched.writes fun none => some ?_
        rw [apart.list_eq (apart.tidy.unflagged_of_not_mem member), none]
        rfl

theorem destroy_watching (link : CSockLink) (accepts : Change → Bool) (next : ProtoType) :
    (link.destroy accepts next).Watching :=
  ⟨.inl rfl, by rintro ⟨⟩, absurd rfl⟩

/-- A link that becomes writable is watched while handlers wait. -/
theorem Watching.outputNotify (watching : link.Watching) (tidy : link.Tidy)
    (answers : List WriteAnswer) (accepts : Change → Bool) (next : ProtoType) :
    (link.outputNotify answers accepts next).Watching := by
  have begun := tidy.established
  have established : link.established.Watching :=
    watching.quiet (Prod.ext begun.fd begun.proxy) fun some => begun.list ▸ some
  have sent := established.drains (begun.tidy.sendCache none answers).drains
  unfold CSockLink.outputNotify
  generalize link.established.sendCache none answers = result at sent
  dsimp only at sent ⊢
  split_ifs with failed empty
  · exact destroy_watching _ accepts next
  · exact sent.unwatch empty accepts
  · exact sent

end Watching

section Runs

/-- The lists are in order, and what waits is watched. -/
structure Served (link : CSockLink) : Prop extends Steady link where
  watching : link.Watching

/-- A guarded event leaves no handler waiting unwatched. -/
theorem Served.step (served : link.Served) (event : Event) (guarded : link.Guarded event) :
    (link.step event).Served := by
  refine ⟨served.toSteady.step event, ?_⟩
  obtain ⟨input, accepts⟩ := event
  have watching := served.watching
  unfold CSockLink.step
  split_ifs with enabled
  · cases input with
    | sendRecv h request sock answer =>
      exact watching.sendRecv served.tidy h request sock answer accepts
    | waitSend h answers => exact watching.waitSend served.toSteady enabled.2 guarded.1 guarded.2
    | waitRecv h => exact watching.moves (served.tidy.waitRecv h) (link.waitRecv_socket h)
    | wakeup h => exact watching.moves (served.toSteady.wakeup h) (link.wakeup_socket h)
    | outputNotify answers next => exact watching.outputNotify served.tidy answers accepts next
    | respond h len =>
      exact watching.moves (served.toSteady.respond h len) (link.respond_socket h len)
    | destroy errno next => exact destroy_watching _ accepts next
    | resetHandler h => exact watching.moves (served.tidy.resetHandler h) (link.resetHandler_socket h)
  · exact watching

theorem init_served (protoType : ProtoType) (proxy : KqueueProxy) :
    (init protoType proxy).Served :=
  ⟨init_steady protoType proxy, .inl rfl, by rintro ⟨⟩, absurd rfl⟩

/-- Every handler in the send list that has data left is waited for. -/
def Attended (link : CSockLink) : Prop :=
  ∀ h ∈ link.lists .send, (link.handlers h).req ≠ [] →
    link.proxy.registered (link.fd, .write) = true

/-- If only requests that are taken as a whole are sent without a write filter, the filter is there
while data is in the send list. -/
theorem attended_of_guarded (protoType : ProtoType) (proxy : KqueueProxy) (events : List Event)
    (guarded : Along step Guarded (init protoType proxy) events) :
    (events.foldl step (init protoType proxy)).Attended := by
  have served := guarded.last Served (fun _ event served here => served.step event here)
    (init_served protoType proxy)
  intro h member _
  exact (served.watching.writes (List.ne_nil_of_mem member)).2

/-- A part of a request is written on a new TCP socket, the rest a little later. -/
def watchedRun : List Event :=
  [asked 1 [1, 2, 3], ⟨.waitSend 1 [.written 1], fun _ => true⟩,
    ⟨.outputNotify [.written 1] .tcp, fun _ => true⟩]

theorem attended_watchedRun :
    (watchedRun.foldl step (init .tcp (.initKqueue 1000))).lists .send = [1] ∧
    (watchedRun.foldl step (init .tcp (.initKqueue 1000))).Attended :=
  ⟨by decide +kernel, attended_of_guarded .tcp _ watchedRun (by decide +kernel)⟩

/-- A request is written as a whole, and a part of the next one. -/
def secondPartRun : List Event :=
  [asked 1 [1, 2, 3], ⟨.waitSend 1 [.written 3], fun _ => true⟩, ⟨.waitRecv 1, fun _ => true⟩,
    asked 2 [4, 5], ⟨.waitSend 2 [.written 1], fun _ => true⟩]

/-- A datagram that does not go out at once. -/
def datagramRun : List Event :=
  [asked 1 [1, 2, 3], ⟨.waitSend 1 [.again], fun _ => true⟩]

theorem not_attended_secondPartRun :
    ¬ (secondPartRun.foldl step (init .tcp (.initKqueue 1000))).Attended ∧
    ¬ (datagramRun.foldl step (init .udp (.initKqueue 1000))).Attended :=
  ⟨fun attended => absurd (attended 2 (by decide +kernel) (by decide +kernel)) (by decide +kernel),
    fun attended => absurd (attended 1 (by decide +kernel) (by decide +kernel)) (by decide +kernel)⟩

end Runs

end CSockLink

end FStack.Micro
