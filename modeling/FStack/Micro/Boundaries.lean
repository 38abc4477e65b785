import Mathlib.Data.List.Sublists
import FStack.Micro.LinkLists
import FStack.Std.Outbox

/-!
# Requests on a shared TCP link

The send list of a TCP link is an outbox: `SendCacheTcp` writes what is left of the requests in
it, in order, and the new one behind them. So the stream has complete requests in the order in
which `WaitSend` was called with them, and the beginning of the one that is sent now.

A handler leaves the send list when its wait is over, and when it gets a response. If a part of
its request has been written by then, the rest never follows, and the next request comes right
behind the part.
-/

namespace FStack.Micro

open CText List Outbox Steps

namespace CSockLink

variable {link : CSockLink} {h : Nat} {type : LinkList}

section Outbox

/-- A handler in the send list. -/
def queued (link : CSockLink) (h : Nat) : Queued UInt8 :=
  ⟨h, (link.handlers h).sent, (link.handlers h).req⟩

theorem queued_skipSendPos (link : CSockLink) (h len : Nat) :
    (link.skipSendPos h len).queued h =
      ⟨h, (link.handlers h).sent ++ (link.handlers h).req.take len, (link.handlers h).req.drop len⟩ := by
  unfold queued
  rw [skipSendPos_self]

theorem map_queued_congr {link' : CSockLink} {items : List Nat}
    (same : ∀ h ∈ items, link'.handlers h = link.handlers h) :
    items.map link'.queued = items.map link.queued :=
  map_congr_left fun h member => by
    unfold queued
    rw [same h member]

/-- The send list with the stream. -/
def outbox (link : CSockLink) : Outbox UInt8 :=
  ⟨(link.lists .send).map link.queued, link.output.flatten, link.submitted⟩

theorem leave_outbox (link : CSockLink) (h : Nat) :
    link.outbox.leave h = ⟨((link.lists .send).filter (· ≠ h)).map link.queued,
      link.output.flatten, link.submitted⟩ := by
  unfold outbox leave
  rw [filter_map]
  rfl

/-- Without the handler in the list nothing leaves. -/
theorem Tidy.leave_outbox_eq (tidy : link.Tidy)
    (unflagged : (link.handlers h).stateFlags .send = false) :
    link.outbox.leave h = link.outbox := by
  rw [leave_outbox, tidy.filter_eq unflagged]
  rfl

variable {link' : CSockLink}

theorem Apart.leave_outbox (apart : Apart link link' h) :
    link'.outbox.leave h = link.outbox.leave h := by
  rw [CSockLink.leave_outbox, CSockLink.leave_outbox, apart.lists, apart.output,
    apart.submitted]
  congr 1
  exact map_queued_congr fun other member => apart.others other (by simpa using (mem_filter.mp member).2)

/-- The handler is not in the send list afterwards. -/
theorem Apart.outbox_eq (apart : Apart link link' h)
    (unflagged : (link'.handlers h).stateFlags .send = false) :
    link'.outbox = link.outbox.leave h := by
  rw [← apart.leave_outbox, apart.tidy.leave_outbox_eq unflagged]

theorem SameLists.outbox_eq (same : SameLists link link') : link'.outbox = link.outbox := by
  unfold outbox
  rw [same.lists, same.output, same.submitted,
    map_queued_congr fun _ _ => congrFun same.handlers _]

/-- A change that has nothing to do with the request. -/
theorem modify_outbox (link : CSockLink) (h : Nat) (change : CNetHandler → CNetHandler)
    (sent : ∀ handler, (change handler).sent = handler.sent)
    (req : ∀ handler, (change handler).req = handler.req) :
    (link.modify h change).outbox = link.outbox := by
  have same : (link.modify h change).queued = link.queued := by
    funext other
    unfold queued
    rcases eq_or_ne other h with rfl | different
    · rw [modify_self, sent, req]
    · rw [modify_of_ne different]
  unfold outbox
  rw [same]
  rfl

theorem sleep_outbox (link : CSockLink) (h : Nat) (phase : Phase) :
    (link.sleep h phase).outbox = link.outbox :=
  link.modify_outbox h ({ · with phase, ioWait := true }) (fun _ => rfl) fun _ => rfl

/-- A handler that begins to send is queued at the end. -/
theorem Tidy.switchTo_send_outbox (tidy : link.Tidy) (linked : (link.handlers h).conn = true)
    (unflagged : (link.handlers h).stateFlags .send = false) :
    (link.switchTo .send h).outbox =
      ⟨link.outbox.queue ++ [link.queued h], link.outbox.stream, link.outbox.submitted⟩ := by
  have apart := tidy.switchTo .send h
  obtain ⟨sent, req⟩ := tidy.switchTo_data .send h
  have list : (link.switchTo .send h).lists .send = link.lists .send ++ [h] := by
    rw [tidy.switchTo_eq, linked]
    exact congrArg (· ++ [h]) (tidy.filter_eq unflagged)
  have same : (link.lists .send).map (link.switchTo .send h).queued =
      (link.lists .send).map link.queued :=
    map_queued_congr fun other member => apart.others other fun same =>
      tidy.not_mem_of_unflagged unflagged (same ▸ member)
  have last : (link.switchTo .send h).queued h = link.queued h := by
    unfold queued
    rw [sent, req]
  unfold outbox
  rw [list, map_append, same, map_singleton, last, apart.output, apart.submitted]

theorem Establishes.outbox_eq (same : Establishes link link') : link'.outbox = link.outbox := by
  unfold outbox
  rw [same.list, same.output, same.submitted, map_queued_congr same.sending]

end Outbox

section Flush

/-- So many bytes are taken from the requests in the send list. -/
structure Flushed (link : CSockLink) (left : Nat) (result : CSockLink × Nat) : Prop where
  outbox : result.1.outbox =
    ⟨advance link.outbox.queue left, link.outbox.stream, link.outbox.submitted⟩
  left : result.2 = left - (rests link.outbox.queue).length

theorem outbox_of_cons {rest : List Nat} (queue : link.lists .send = h :: rest) :
    link.outbox = ⟨link.queued h :: rest.map link.queued, link.outbox.stream,
      link.outbox.submitted⟩ := by
  unfold outbox
  rw [queue]
  rfl

/-- The loop takes so many bytes off the front of the requests. -/
theorem sendLoop_flushed (tidy : link.Tidy)
    (pending : ∀ h ∈ link.lists .send, (link.handlers h).req ≠ []) (left : Nat) :
    Flushed link left (sendLoop (link.lists .send) left link) := by
  generalize queue : link.lists .send = items at pending
  induction items generalizing link left with
  | nil =>
    have empty : link.outbox.queue = [] := congrArg (map link.queued) queue
    refine ⟨?_, ?_⟩
    · rw [empty, advance_nil, ← empty]
      rfl
    · rw [empty]
      rfl
  | cons h rest ih =>
    have nodup := tidy.nodup .send
    rw [queue, nodup_cons] at nodup
    have skipped := tidy.skipSendPos h left
    have box := outbox_of_cons queue
    have apartRest : ∀ other ∈ rest, other ≠ h := fun other member same =>
      nodup.1 (same ▸ member)
    have total : (rests link.outbox.queue).length =
        (link.handlers h).req.length + (rests (rest.map link.queued)).length := by
      rw [box, rests_cons, length_append]
      rfl
    have list : (link.skipSendPos h left).lists .send = h :: rest := queue
    unfold sendLoop
    dsimp only
    rcases Nat.lt_or_ge left (link.handlers h).req.length with part | whole
    · -- the request of this handler is not complete
      rw [if_neg (mt skipSendPos_done.mp part.not_ge), if_pos (by omega)]
      refine ⟨?_, ?_⟩
      · rw [box, advance_part part, outbox_of_cons list, queued_skipSendPos,
          map_queued_congr fun other member => skipped.others other (apartRest other member)]
        rfl
      · rw [total]
        omega
    · rw [if_pos (skipSendPos_done.mpr whole)]
      have released := skipped.tidy.release h
      have apart := skipped.trans released.toApart
      have list₂ := skipped.tidy.release_first list
      have left₂ : ((link.skipSendPos h left).release h).outbox =
          ⟨rest.map link.queued, link.outbox.stream, link.outbox.submitted⟩ := by
        rw [apart.outbox_eq released.unflagged, leave_outbox,
          ← apart.list_eq released.unflagged, list₂]
        rfl
      have advanced : advance link.outbox.queue left =
          advance (rest.map link.queued) (left - (link.handlers h).req.length) := by
        rw [box]
        exact advance_whole whole
      split_ifs with all
      · refine ⟨?_, ?_⟩
        · rw [advanced, all, left₂, advance_zero]
          intro item member
          obtain ⟨other, there, rfl⟩ := mem_map.mp member
          exact pending other (mem_cons_of_mem _ there)
        · rw [total]
          omega
      · have next := ih apart.tidy (left - (link.handlers h).req.length) list₂ fun other member => by
          rw [apart.others other (apartRest other member)]
          exact pending other (mem_cons_of_mem _ member)
        refine ⟨?_, ?_⟩
        · rw [next.outbox, left₂, advanced]
        · rw [next.left, left₂]
          dsimp only
          omega

theorem rests_queue (link : CSockLink) :
    rests link.outbox.queue = ((link.lists .send).map fun h => (link.handlers h).req).flatten := by
  unfold rests outbox
  rw [flatMap_map]
  rfl

/-- The vector has the beginning of what is to be written. -/
theorem iov_begins (link : CSockLink) (data : Option (List UInt8)) :
    (link.iov data).flatten <+: rests link.outbox.queue ++ data.getD [] := by
  rw [rests_queue]
  unfold iov
  rw [flatten_append]
  split_ifs with few
  · rw [length_take] at few
    rw [take_of_length_le (by omega)]
    cases data <;> simp
  · rw [flatten_nil, append_nil]
    conv_rhs => rw [← take_append_drop 64 (link.lists .send), map_append, flatten_append,
      append_assoc]
    exact prefix_append ..

/-- What `SendCacheTcp` writes is the beginning of the requests in the list and the new data. -/
theorem sendCacheTcp_spec (tidy : link.Tidy)
    (pending : ∀ h ∈ link.lists .send, (link.handlers h).req ≠ [])
    (data : Option (List UInt8)) (answers : List WriteAnswer) :
    link.sendCacheTcp data answers = (link, 0) ∨ link.sendCacheTcp data answers = (link, -1) ∨
      ∃ count, (link.sendCacheTcp data answers).2 =
          (count - (rests link.outbox.queue).length : Nat) ∧
        (link.sendCacheTcp data answers).1.outbox =
          ⟨advance link.outbox.queue count, link.outbox.stream ++
            (rests link.outbox.queue ++ data.getD []).take count, link.outbox.submitted⟩ := by
  unfold sendCacheTcp
  cases answers.headD .again with
  | again => exact .inl rfl
  | error => exact .inr (.inl rfl)
  | written count =>
    dsimp only
    generalize written : (link.iov data).flatten.take (min count 2147483647) = bytes
    have begins : bytes <+: rests link.outbox.queue ++ data.getD [] :=
      written ▸ ( take_prefix ..).trans (link.iov_begins data)
    have short : bytes.length < 2147483648 := by
      rw [← written, length_take]
      omega
    have logged : Tidy { link with output := link.output ++ [bytes] } := { tidy with }
    have flushed := sendLoop_flushed logged pending bytes.length
    generalize sendLoop (link.lists .send) bytes.length _ = result at flushed ⊢
    obtain ⟨link₁, left⟩ := result
    have value : left = bytes.length - (rests link.outbox.queue).length := flushed.left
    have small : toInt left = left := toInt_small (by omega)
    have stream : ({ link with output := link.output ++ [bytes] } : CSockLink).outbox.stream =
        link.outbox.stream ++ (rests link.outbox.queue ++ data.getD []).take bytes.length := by
      rw [← prefix_iff_eq_take.mp begins]
      exact flatten_concat
    refine .inr (.inr ⟨bytes.length, ?_, ?_⟩)
    · dsimp only
      rw [small, value]
    · rw [flushed.outbox, stream]
      rfl

end Flush

section Orderly

/-- The link is steady, and what is on the wire is in order. -/
structure Sane (link : CSockLink) : Prop extends Steady link where
  orderly : link.protoType = .tcp → link.outbox.Orderly

variable {link' : CSockLink}

theorem Sane.same (sane : link.Sane) (same : SameLists link link') : link'.Sane := by
  refine ⟨sane.toSteady.same same, fun tcp => ?_⟩
  rw [same.protoType] at tcp
  rw [same.outbox_eq]
  exact sane.orderly tcp

/-- One handler moves, and leaves the send list if it was there. -/
theorem Sane.moves (sane : link.Sane) (moves : Moves link link' h)
    (untouched : h ∈ link.lists .send → (link.handlers h).sent = []) : link'.Sane := by
  refine ⟨sane.toSteady.moves moves, fun tcp => ?_⟩
  rw [moves.protoType] at tcp
  rw [moves.toApart.outbox_eq moves.rests.unflagged]
  refine (sane.orderly tcp).leave h fun item member same => ?_
  obtain ⟨other, there, rfl⟩ := mem_map.mp member
  have here : other = h := same
  subst here
  exact untouched there

theorem Sane.moves_elsewhere (sane : link.Sane) (moves : Moves link link' h)
    (phase : (link.handlers h).phase ≠ .send) : link'.Sane :=
  sane.moves moves fun member => absurd member (sane.not_mem_send phase)

theorem Sane.pending (sane : link.Sane) (tcp : link.protoType = .tcp)
    (member : h ∈ link.lists .send) : (link.handlers h).req ≠ [] :=
  (sane.orderly tcp).waiting.incomplete (link.queued h) (mem_map_of_mem member)

/-- What has not been sent is put into the send list. -/
theorem Tidy.sendResult_outbox (tidy : link.Tidy) (linked : (link.handlers h).conn = true)
    (unflagged : (link.handlers h).stateFlags .send = false) (unsent : (link.handlers h).sent = [])
    (ret : Int) :
    (link.sendResult h ret).outbox = ⟨link.outbox.queue ++
        (if ret < 0 then [] else advance [⟨h, [], (link.handlers h).req⟩] ret.toNat),
      link.outbox.stream, link.outbox.submitted⟩ := by
  have alone : link.outbox.leave h = link.outbox := tidy.leave_outbox_eq unflagged
  unfold CSockLink.sendResult
  by_cases failed : ret < 0
  · rw [if_pos failed, if_pos failed, append_nil]
    have moves := tidy.finish h (-2)
    exact (moves.toApart.outbox_eq moves.rests.unflagged).trans alone
  · rw [if_neg failed, if_neg failed]
    have skipped := tidy.skipSendPos h ret.toNat
    have self := link.skipSendPos_self h ret.toNat
    have unflagged₁ : ((link.skipSendPos h ret.toNat).handlers h).stateFlags .send = false := by
      rw [self]
      exact unflagged
    have box := (skipped.outbox_eq unflagged₁).trans alone
    rcases Nat.lt_or_ge ret.toNat (link.handlers h).req.length with part | whole
    · rw [if_neg (mt skipSendPos_done.mp part.not_ge), advance_part part, sleep_outbox,
        skipped.tidy.switchTo_send_outbox (by rw [self]; exact linked) unflagged₁, box,
        queued_skipSendPos, unsent]
    · have apart := skipped.trans (skipped.tidy.goOn h .sent)
      rw [if_pos (skipSendPos_done.mpr whole), advance_whole whole, advance_nil, append_nil]
      exact (apart.outbox_eq (by rw [goOn_flags]; exact unflagged₁)).trans alone

variable (sane : link.Sane)

include sane

/-- The requests in the list, and then the new one, are written as far as possible. -/
theorem Sane.submits_orderly (tcp : link.protoType = .tcp) (some : (link.handlers h).req ≠ [])
    (answers : List WriteAnswer) {result : CSockLink × Int}
    (sent : (link.submits h).sendCacheTcp (.some (link.handlers h).req) answers = result) :
    Outbox.Orderly ⟨result.1.outbox.queue ++ (if result.2 < 0 then [] else
        advance [⟨h, [], (link.handlers h).req⟩] result.2.toNat),
      result.1.outbox.stream, result.1.outbox.submitted⟩ := by
  have orderly := sane.orderly tcp
  have submitted := orderly.submit h some
  have tidy : (link.submits h).Tidy := { sane.tidy with }
  have spec := sendCacheTcp_spec tidy (fun _ => sane.pending tcp) (.some (link.handlers h).req)
    answers
  rw [sent] at spec
  rcases spec with rfl | rfl | ⟨count, value, box⟩
  · dsimp only
    rw [Int.toNat_zero, advance_zero (forall_mem_singleton.mpr some)]
    exact submitted
  · dsimp only
    rw [if_pos (by decide), append_nil]
    exact orderly.drop (link.handlers h).req
  · have whole := submitted.write count
    unfold Outbox.write Outbox.submit at whole
    rw [advance_snoc _ some, rests_append, rests_cons, rests_nil,
      append_nil] at whole
    rw [box, value]
    exact whole

/-- A connected handler that sends keeps the stream in order. -/
theorem Sane.waitSend (phase : (link.handlers h).phase = .connected) (answers : List WriteAnswer)
    (accepts : Change → Bool) : (link.waitSend h answers accepts).Sane := by
  have steady := sane.toSteady.waitSend phase answers accepts
  have absent : h ∉ link.lists .send := sane.not_mem_send (by rw [phase]; decide)
  have unflagged := sane.tidy.unflagged_of_not_mem absent
  cases linked : (link.handlers h).conn with
  | false =>
    unfold CSockLink.waitSend
    rw [linked]
    exact sane.moves (sane.tidy.finish h (-12)) fun member => absurd member absent
  | true =>
    obtain ⟨unsent, some⟩ := (sane.settled h).fresh linked (.inr phase)
    obtain ⟨drains, same, self⟩ := sane.tidy.submits_sendCache absent answers accepts
    have tidy := drains.tidy.same same
    rw [waitSend_eq linked] at steady ⊢
    have flags : (((link.submits h).sendData (link.handlers h).req answers accepts).1.handlers
        h).stateFlags .send = false := by rw [self]; exact unflagged
    refine ⟨steady, fun tcp => ?_⟩
    rw [(tidy.sendResult flags _).1.protoType, same.protoType, drains.protoType] at tcp
    rw [tidy.sendResult_outbox (by rw [self]; exact linked) flags (by rw [self]; exact unsent),
      same.outbox_eq, self]
    refine sane.submits_orderly tcp some answers ?_
    unfold sendCache
    rw [tcp]

/-- What is in the send list goes out as far as possible. -/
theorem Sane.sendCache_none (answers : List WriteAnswer) :
    (link.sendCache none answers).1.Sane := by
  have drains := (sane.tidy.sendCache none answers).drains
  refine ⟨(drains.within sane.tidy).steady sane.toSteady, fun tcp => ?_⟩
  rw [drains.protoType] at tcp
  have spec := sendCacheTcp_spec sane.tidy (fun _ => sane.pending tcp) none answers
  unfold sendCache
  rw [tcp]
  rcases spec with same | same | ⟨count, -, box⟩
  · rw [same]
    exact sane.orderly tcp
  · rw [same]
    exact sane.orderly tcp
  · rw [box, Option.getD_none, append_nil]
    exact (sane.orderly tcp).write count

theorem Sane.established : link.established.Sane := by
  have same := sane.tidy.established
  refine ⟨same.toWithin.steady sane.toSteady, fun tcp => ?_⟩
  rw [same.protoType] at tcp
  rw [same.outbox_eq]
  exact sane.orderly tcp

theorem Sane.destroy (accepts : Change → Bool) (next : ProtoType) :
    (link.destroy accepts next).Sane :=
  ⟨(sane.tidy.destroy accepts next).1.steady sane.toSteady, fun _ => orderly_empty⟩

/-- Sending what is queued keeps the stream in order. -/
theorem Sane.outputNotify (answers : List WriteAnswer) (accepts : Change → Bool)
    (next : ProtoType) : (link.outputNotify answers accepts next).Sane := by
  have sent := sane.established.sendCache_none answers
  unfold CSockLink.outputNotify
  generalize link.established.sendCache none answers = result at sent
  obtain ⟨link₁, ret⟩ := result
  dsimp only at sent ⊢
  split_ifs
  · exact (sent.same (link₁.errno_same (-2))).destroy accepts next
  · exact sent.same (link₁.unwatch_same accepts)
  · exact sent

end Orderly

section Runs

/-- A handler that leaves the send list, because its wait is over or because it gets a response,
has sent nothing of its request yet. -/
def Unbroken (link : CSockLink) : Input → Prop
  | .wakeup h | .respond h _ => h ∈ link.lists .send → (link.handlers h).sent = []
  | _ => True

instance (link : CSockLink) : DecidablePred link.Unbroken
  | .sendRecv .. | .waitSend .. | .waitRecv .. | .outputNotify .. | .destroy .. | .resetHandler .. =>
    inferInstanceAs (Decidable True)
  | .wakeup .. => inferInstanceAs (Decidable (_ → _))
  | .respond .. => inferInstanceAs (Decidable (_ → _))

/-- An event that breaks off no request keeps the stream in order. -/
theorem Sane.step (sane : link.Sane) (event : Event) (unbroken : link.Unbroken event.input) :
    (link.step event).Sane := by
  obtain ⟨input, accepts⟩ := event
  unfold CSockLink.step
  split_ifs with enabled
  · cases input with
    | sendRecv h request sock answer =>
      exact sane.moves_elsewhere (sane.tidy.sendRecv request sock answer accepts)
        (by rw [enabled.2]; decide)
    | waitSend h answers => exact sane.waitSend enabled.2 answers accepts
    | waitRecv h =>
      exact sane.moves_elsewhere (sane.tidy.waitRecv h) (by rw [enabled.2]; decide)
    | wakeup h => exact sane.moves (sane.toSteady.wakeup h) unbroken
    | outputNotify answers next => exact sane.outputNotify answers accepts next
    | respond h len => exact sane.moves (sane.toSteady.respond h len) unbroken
    | destroy errno next => exact (sane.same (link.errno_same errno)).destroy accepts next
    | resetHandler h =>
      exact sane.moves_elsewhere (sane.tidy.resetHandler h) (by rw [enabled.2]; decide)
  · exact sane

theorem init_sane (protoType : ProtoType) (proxy : KqueueProxy) : (init protoType proxy).Sane :=
  ⟨init_steady protoType proxy, fun _ => orderly_empty⟩

/-- The stream has complete requests, in the order of their submission, and what has been sent of
the first one in the send list; those in the list are to follow. -/
def Delimited (link : CSockLink) : Prop :=
  ∃ complete : List (List UInt8),
    link.output.flatten = complete.flatten ++
      ((link.lists .send).head?.map fun h => (link.handlers h).sent).getD [] ∧
    Sublist (complete ++ (link.lists .send).map fun h =>
      (link.handlers h).sent ++ (link.handlers h).req) link.submitted

/-- A stream in order has whole requests, and part of one at its end. -/
theorem Sane.delimited (sane : link.Sane) (tcp : link.protoType = .tcp) : link.Delimited := by
  obtain ⟨complete, stream, order⟩ := (sane.orderly tcp).stream
  refine ⟨complete, ?_, ?_⟩
  · unfold begun outbox at stream
    dsimp only at stream
    rw [stream, head?_map, Option.map_map]
    rfl
  · unfold outbox at order
    rw [map_map] at order
    exact order

/-- However handlers share a link, whatever `writev` takes and whoever gives up: as long as no
request is given up that has been sent in part, requests keep their boundaries. -/
theorem delimited_of_unbroken (protoType : ProtoType) (proxy : KqueueProxy) (events : List Event)
    (unbroken : Along step (fun link event => link.Unbroken event.input) (init protoType proxy)
      events) :
    (events.foldl step (init protoType proxy)).protoType = .tcp →
      (events.foldl step (init protoType proxy)).Delimited :=
  (unbroken.last Sane (fun _ event sane here => sane.step event here)
    (init_sane protoType proxy)).delimited

/-- Two handlers: a part of the first request, and then the rest with a part of the second. -/
def sharedRun : List Event :=
  [asked 1 [1, 2, 3], ⟨.waitSend 1 [.written 1], fun _ => true⟩,
    asked 2 [4, 5], ⟨.waitSend 2 [.again], fun _ => true⟩,
    ⟨.outputNotify [.written 3] .tcp, fun _ => true⟩]

theorem delimited_sharedRun :
    (sharedRun.foldl step (init .tcp (.initKqueue 1000))).output.flatten = [1, 2, 3, 4] ∧
    (sharedRun.foldl step (init .tcp (.initKqueue 1000))).Delimited :=
  ⟨by decide +kernel, delimited_of_unbroken .tcp _ sharedRun (by decide +kernel)
    (by decide +kernel)⟩

/-- The first handler gives up after a part of its request. -/
def brokenRun : List Event :=
  [asked 1 [1, 2, 3], ⟨.waitSend 1 [.written 1], fun _ => true⟩, ⟨.wakeup 1, fun _ => true⟩,
    asked 2 [4, 5], ⟨.waitSend 2 [.written 2], fun _ => true⟩]

/-- A request that is broken off after its first byte runs into the next one. -/
theorem not_delimited_brokenRun :
    (brokenRun.foldl step (init .tcp (.initKqueue 1000))).protoType = .tcp ∧
    (brokenRun.foldl step (init .tcp (.initKqueue 1000))).output.flatten = [1, 4, 5] ∧
    ¬ (brokenRun.foldl step (init .tcp (.initKqueue 1000))).Delimited := by
  have output : (brokenRun.foldl step (init .tcp (.initKqueue 1000))).output.flatten = [1, 4, 5] := by
    decide +kernel
  refine ⟨by decide +kernel, output, ?_⟩
  rintro ⟨complete, stream, order⟩
  have none : (brokenRun.foldl step (init .tcp (.initKqueue 1000))).lists .send = [] := by
    decide +kernel
  rw [none, head?_nil, Option.map_none, Option.getD_none, append_nil] at stream
  rw [none, map_nil, append_nil] at order
  have apart : ∀ texts ∈ ([[1, 2, 3], [4, 5]] : List (List UInt8)).sublists,
      [1, 4, 5] ≠ texts.flatten := by decide +kernel
  exact apart complete (mem_sublists.mpr order) stream

end Runs

end CSockLink

end FStack.Micro
