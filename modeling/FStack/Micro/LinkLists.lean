import FStack.Micro.Link

/-!
# The lists of a link

A handler is in the list of its flag, and has at most one flag: it is moved by its own thread, by
the notifications of the link, and when the link is destroyed. Each operation is described by what
it does to one handler (`Moves`), to those in the send list (`Drains`), or to all of them
(`Leaves`); a step of the link keeps the lists in order (`Steady`).
-/

namespace FStack.Micro

open CText Function List Steps

namespace CSockLink

variable {link : CSockLink} {h : Nat} {type : LinkList}

section Lists

/-- Handlers are in the lists of their flags, and have at most one. -/
structure Tidy (link : CSockLink) : Prop where
  nodup : ∀ type, (link.lists type).Nodup
  listed : ∀ h type, h ∈ link.lists type ↔ (link.handlers h).stateFlags type = true
  single : ∀ h type other, (link.handlers h).stateFlags type = true →
    (link.handlers h).stateFlags other = true → type = other
  linked : ∀ h type, (link.handlers h).stateFlags type = true → (link.handlers h).conn = true

/-- Other handlers and lists, everything else as it was. -/
def relisted (link : CSockLink) (handlers : Nat → CNetHandler) (lists : LinkList → List Nat) :
    CSockLink :=
  { link with handlers, lists }

section Relisted

variable {handlers handlers' : Nat → CNetHandler} {lists lists' : LinkList → List Nat}

@[simp] theorem relisted_handlers : (link.relisted handlers lists).handlers = handlers := rfl

@[simp] theorem relisted_lists : (link.relisted handlers lists).lists = lists := rfl

@[simp] theorem relisted_relisted :
    (link.relisted handlers lists).relisted handlers' lists' = link.relisted handlers' lists' := rfl

@[simp] theorem relisted_self : link.relisted link.handlers link.lists = link := rfl

end Relisted

/-- The handler is in one list, or in none. -/
def placed (link : CSockLink) (h : Nat) (place : Option LinkList) : CSockLink :=
  link.relisted
    (update link.handlers h
      { link.handlers h with stateFlags := fun type => place = some type })
    fun type => (link.lists type).filter (· ≠ h) ++ if place = some type then [h] else []

section

variable (tidy : link.Tidy)

include tidy

theorem Tidy.filter_eq (unflagged : (link.handlers h).stateFlags type = false) :
    (link.lists type).filter (· ≠ h) = link.lists type := by
  refine filter_eq_self.mpr fun other member => decide_eq_true ?_
  rintro rfl
  exact absurd ((tidy.listed other type).mp member) (by rw [unflagged]; decide)

theorem Tidy.unflagged_of_alone (alone : (link.handlers h).conn = false) (type : LinkList) :
    (link.handlers h).stateFlags type = false := by
  cases flag : (link.handlers h).stateFlags type with
  | false => rfl
  | true => exact absurd (tidy.linked h type flag) (by rw [alone]; decide)

/-- The lists are changed only with respect to one handler. -/
theorem Tidy.relist {link' : CSockLink} (h : Nat)
    (others : ∀ other, other ≠ h → link'.handlers other = link.handlers other)
    (nodup : ∀ type, (link'.lists type).Nodup)
    (elsewhere : ∀ type other, other ≠ h → (other ∈ link'.lists type ↔ other ∈ link.lists type))
    (here : ∀ type, h ∈ link'.lists type ↔ (link'.handlers h).stateFlags type = true)
    (single : ∀ type other, (link'.handlers h).stateFlags type = true →
      (link'.handlers h).stateFlags other = true → type = other)
    (linked : ∀ type, (link'.handlers h).stateFlags type = true → (link'.handlers h).conn = true) :
    link'.Tidy := by
  refine ⟨nodup, fun other type => ?_, fun other => ?_, fun other => ?_⟩
  all_goals rcases eq_or_ne other h with rfl | different
  · exact here type
  · rw [elsewhere type other different, others other different]
    exact tidy.listed other type
  · exact single
  · rw [others other different]
    exact tidy.single other
  · exact linked
  · rw [others other different]
    exact tidy.linked other

/-- A handler can be placed in any one list. -/
theorem Tidy.placed (h : Nat) {place : Option LinkList}
    (linked : place ≠ none → (link.handlers h).conn = true) : (link.placed h place).Tidy := by
  refine tidy.relist h (fun other different => update_of_ne different ..)
    (fun type => ?_) (fun type other different => ?_) (fun type => ?_) (fun first second => ?_)
    (fun type => ?_)
  all_goals simp only [CSockLink.placed, relisted_handlers, relisted_lists]
  · refine nodup_append.mpr ⟨(tidy.nodup type).filter _, by split_ifs <;> simp, ?_⟩
    intro other member last there
    have different : other ≠ h := by simpa using (mem_filter.mp member).2
    split_ifs at there
    · exact mem_singleton.mp there ▸ different
    · exact absurd there not_mem_nil
  · split_ifs <;> simp [different]
  · rw [update_self]
    split_ifs with here <;> simp [here]
  · rw [update_self]
    simp only [decide_eq_true_eq]
    rintro rfl one
    exact Option.some.inj one
  · rw [update_self]
    simp only [decide_eq_true_eq]
    rintro rfl
    exact linked (Option.some_ne_none _)

/-- A handler that has a flag has no other, and is in no list afterwards. -/
theorem Tidy.detachFrom_eq (h : Nat) (type : LinkList) : link.detachFrom h type =
    if (link.handlers h).stateFlags type then link.placed h none else link := by
  unfold detachFrom
  split_ifs with flag
  · have alone {other : LinkList} (different : other ≠ type) :
        (link.handlers h).stateFlags other = false :=
      Bool.eq_false_iff.mpr fun another => different (tidy.single h other type another flag)
    have flags : update (link.handlers h).stateFlags type false =
        fun other => decide ((none : Option LinkList) = some other) := by
      funext other
      rw [update_apply]
      split_ifs with same
      · rfl
      · exact alone same
    have lists : update link.lists type ((link.lists type).erase h) =
        fun other => (link.lists other).filter (· ≠ h) ++
          if (none : Option LinkList) = some other then [h] else [] := by
      funext other
      rw [if_neg (by rintro ⟨⟩), append_nil, update_apply]
      split_ifs with same
      · rw [same, (tidy.nodup type).erase_eq_filter]
        exact filter_congr fun _ _ => Bool.eq_iff_iff.mpr (by simp)
      · exact (tidy.filter_eq (alone same)).symm
    unfold CSockLink.placed
    rw [← flags, ← lists]
    rfl
  · rfl

theorem Tidy.placed_none (unflagged : ∀ type, (link.handlers h).stateFlags type = false) :
    link.placed h none = link := by
  have flags : (fun type => decide ((none : Option LinkList) = some type)) =
      (link.handlers h).stateFlags := (funext unflagged).symm
  have lists : (fun type => (link.lists type).filter (· ≠ h) ++
      if (none : Option LinkList) = some type then [h] else []) = link.lists :=
    funext fun type => (append_nil _).trans (tidy.filter_eq (unflagged type))
  unfold CSockLink.placed
  rw [lists, flags, update_eq_self, relisted_self]

omit tidy in
theorem detachFrom_placed (h : Nat) (type : LinkList) :
    (link.placed h none).detachFrom h type = link.placed h none := by
  refine if_neg ?_
  unfold CSockLink.placed
  rw [relisted_handlers, update_self]
  exact Bool.false_ne_true

/-- Whatever the flags are, the handler is in no list afterwards. -/
theorem Tidy.detachConn_eq (h : Nat) : link.detachConn h = link.placed h none := by
  unfold detachConn
  split_ifs with linked
  · rw [tidy.detachFrom_eq h .conn]
    split_ifs with conn
    · rw [detachFrom_placed, detachFrom_placed, detachFrom_placed]
    rw [tidy.detachFrom_eq h .send]
    split_ifs with send
    · rw [detachFrom_placed, detachFrom_placed]
    rw [tidy.detachFrom_eq h .recv]
    split_ifs with recv
    · rw [detachFrom_placed]
    rw [tidy.detachFrom_eq h .idle]
    split_ifs with idle
    · rfl
    refine (tidy.placed_none fun type => ?_).symm
    cases type <;> apply Bool.eq_false_iff.mpr <;> assumption
  · exact (tidy.placed_none (tidy.unflagged_of_alone (Bool.eq_false_iff.mpr linked))).symm

end

theorem setFlag_appendToList (link : CSockLink) (type : LinkList) (h : Nat) :
    (link.setFlag h type true).appendToList type h = link.relisted
      (update link.handlers h { link.handlers h with
        stateFlags := update (link.handlers h).stateFlags type true })
      (update link.lists type (link.lists type ++ [h])) := rfl

/-- Switching places the handler, if it has a link. -/
theorem Tidy.switchTo_eq (tidy : link.Tidy) (type : LinkList) (h : Nat) :
    link.switchTo type h =
      link.placed h (if (link.handlers h).conn then some type else none) := by
  unfold switchTo
  split_ifs with linked
  · rw [tidy.detachConn_eq, setFlag_appendToList]
    unfold CSockLink.placed
    simp only [relisted_handlers, relisted_relisted, update_self, update_idem]
    congr 1
    on_goal 1 => congr 2
    all_goals
      funext other
      rcases eq_or_ne other type with rfl | different
      · simp
      · rw [update_of_ne different]
        simp [different.symm]
  · rw [← tidy.detachConn_eq, detachConn, if_neg linked]

end Lists

section Changes

/-- Nothing has changed but one handler, and where it is. -/
structure Apart (link link' : CSockLink) (h : Nat) : Prop where
  tidy : link'.Tidy
  others : ∀ other, other ≠ h → link'.handlers other = link.handlers other
  lists : ∀ type, (link'.lists type).filter (· ≠ h) = (link.lists type).filter (· ≠ h)
  protoType : link'.protoType = link.protoType
  output : link'.output = link.output
  submitted : link'.submitted = link.submitted

namespace Apart

variable {link' link'' : CSockLink}

theorem trans (first : Apart link link' h) (second : Apart link' link'' h) :
    Apart link link'' h :=
  ⟨second.tidy, fun other different => (second.others other different).trans
      (first.others other different), fun type => (second.lists type).trans (first.lists type),
    second.protoType.trans first.protoType, second.output.trans first.output,
    second.submitted.trans first.submitted⟩

theorem mem_iff (apart : Apart link link' h) {other : Nat} (different : other ≠ h) :
    other ∈ link'.lists type ↔ other ∈ link.lists type := by
  have stays (list : List Nat) : other ∈ list.filter (· ≠ h) ↔ other ∈ list := by simp [different]
  rw [← stays, apart.lists, stays]

end Apart

theorem modify_self (link : CSockLink) (h : Nat) (change : CNetHandler → CNetHandler) :
    (link.modify h change).handlers h = change (link.handlers h) := update_self ..

theorem modify_of_ne {other : Nat} (different : other ≠ h) (change : CNetHandler → CNetHandler) :
    (link.modify h change).handlers other = link.handlers other :=
  update_of_ne different ..

/-- A change that keeps the handler in its list. -/
theorem Tidy.modify (tidy : link.Tidy) (h : Nat) (change : CNetHandler → CNetHandler)
    (flags : (change (link.handlers h)).stateFlags = (link.handlers h).stateFlags)
    (linked : ∀ type, (link.handlers h).stateFlags type = true →
      (change (link.handlers h)).conn = true) : Apart link (link.modify h change) h := by
  refine ⟨tidy.relist h (fun other different => modify_of_ne different _) tidy.nodup
    (fun _ _ _ => Iff.rfl) (fun type => ?_) (fun first second => ?_) (fun type => ?_),
    fun other different => modify_of_ne different _, fun _ => rfl, rfl, rfl, rfl⟩
  all_goals rw [modify_self, flags]
  · exact tidy.listed h type
  · exact tidy.single h first second
  · exact linked type

theorem Tidy.place (tidy : link.Tidy) (h : Nat) {place : Option LinkList}
    (linked : place ≠ none → (link.handlers h).conn = true) :
    Apart link (link.placed h place) h := by
  refine ⟨tidy.placed h linked, fun other different => update_of_ne different ..,
    fun type => ?_, rfl, rfl, rfl⟩
  unfold CSockLink.placed
  rw [relisted_lists]
  split_ifs <;> simp

/-- The handlers, the lists and the stream are the same. -/
structure SameLists (link link' : CSockLink) : Prop where
  handlers : link'.handlers = link.handlers
  lists : link'.lists = link.lists
  protoType : link'.protoType = link.protoType
  output : link'.output = link.output
  submitted : link'.submitted = link.submitted

variable {link' : CSockLink}

theorem Tidy.same (tidy : link.Tidy) (same : SameLists link link') : link'.Tidy := by
  obtain ⟨nodup, listed, single, linked⟩ := tidy
  rw [← same.lists] at nodup listed
  rw [← same.handlers] at listed single linked
  exact ⟨nodup, listed, single, linked⟩

theorem SameLists.apart (same : SameLists link link') (tidy : link.Tidy) (h : Nat) :
    Apart link link' h :=
  ⟨tidy.same same, fun _ _ => congrFun same.handlers _, fun _ => by rw [same.lists],
    same.protoType, same.output, same.submitted⟩

end Changes

section Moves

section

variable (tidy : link.Tidy)

include tidy

theorem Tidy.skipSendPos (h len : Nat) : Apart link (link.skipSendPos h len) h :=
  tidy.modify h _ rfl (tidy.linked h)

theorem Tidy.switchTo_self (type : LinkList) (h : Nat) :
    (link.switchTo type h).handlers h = { link.handlers h with
      stateFlags := fun other =>
        (if (link.handlers h).conn then some type else none) = some other } := by
  rw [tidy.switchTo_eq]
  exact update_self ..

theorem Tidy.switchTo (type : LinkList) (h : Nat) : Apart link (link.switchTo type h) h := by
  rw [tidy.switchTo_eq]
  refine tidy.place h fun some => ?_
  by_contra alone
  rw [if_neg alone] at some
  exact some rfl

theorem Tidy.unlink_self (h : Nat) :
    (link.unlink h).handlers h = { link.handlers h with
      conn := false
      stateFlags := fun type => (none : Option LinkList) = some type } := by
  unfold unlink
  rw [tidy.detachConn_eq, modify_self]
  unfold CSockLink.placed
  rw [relisted_handlers, update_self]

theorem Tidy.unlink (h : Nat) : Apart link (link.unlink h) h := by
  unfold CSockLink.unlink
  rw [tidy.detachConn_eq]
  have placed : Apart link (link.placed h none) h := tidy.place h (absurd rfl)
  refine placed.trans (placed.tidy.modify h _ rfl fun type flag => ?_)
  unfold CSockLink.placed at flag
  rw [relisted_handlers, update_self] at flag
  cases flag

theorem Tidy.sleep (h : Nat) (phase : Phase) : Apart link (link.sleep h phase) h := by
  have apart : Apart link (link.modify h ({ · with phase, ioWait := true })) h :=
    tidy.modify h _ rfl (tidy.linked h)
  exact { apart with tidy := { apart.tidy with } }

theorem Tidy.goOn (h : Nat) (phase : Phase) : Apart link (link.goOn h phase) h := by
  have apart : Apart link (link.modify h ({ · with phase })) h :=
    tidy.modify h _ rfl (tidy.linked h)
  exact { apart with tidy := { apart.tidy with } }

end

theorem skipSendPos_self (link : CSockLink) (h len : Nat) :
    (link.skipSendPos h len).handlers h = { link.handlers h with
      sent := (link.handlers h).sent ++ (link.handlers h).req.take len
      req := (link.handlers h).req.drop len } := link.modify_self h _

theorem skipSendPos_done {len : Nat} : ((link.skipSendPos h len).handlers h).req = [] ↔
    (link.handlers h).req.length ≤ len := by
  rw [skipSendPos_self]
  exact drop_eq_nil_iff

/-- Making the socket leaves the lists alone. -/
theorem createSock_same (link : CSockLink) (answer : SockAnswer) (accepts : Change → Bool) :
    SameLists link (link.createSock answer accepts).1 := by
  unfold createSock
  by_cases opened : link.fd > 0
  · rw [if_pos opened]
    exact ⟨rfl, rfl, rfl, rfl, rfl⟩
  · rw [if_neg opened]
    cases answer.socket with
    | none => exact ⟨rfl, rfl, rfl, rfl, rfl⟩
    | some descriptor =>
      cases answer.ioctl with
      | false => exact ⟨rfl, rfl, rfl, rfl, rfl⟩
      | true =>
        dsimp only
        generalize link.proxy.kqueueAddObj accepts _ = result
        obtain ⟨proxy, _ | _⟩ := result <;> exact ⟨rfl, rfl, rfl, rfl, rfl⟩

theorem connect_same (link : CSockLink) (answer : ConnectAnswer) :
    SameLists link (link.connect answer).1 := by
  unfold connect
  split_ifs
  · exact ⟨rfl, rfl, rfl, rfl, rfl⟩
  · exact ⟨rfl, rfl, rfl, rfl, rfl⟩
  · exact ⟨rfl, rfl, rfl, rfl, rfl⟩
  · cases answer <;> exact ⟨rfl, rfl, rfl, rfl, rfl⟩

end Moves

section Threads

/-- A handler that is linked is in a list, and its thread is in `SendRecv`. -/
structure Placed (handler : CNetHandler) : Prop where
  seated : handler.conn = true → ∃ type, handler.stateFlags type = true
  inside : handler.conn = true → handler.phase ≠ .out

/-- A handler in the send list is in `WaitSend`, and its request is as it was up to there. -/
structure Settled (handler : CNetHandler) : Prop extends Placed handler where
  sending : handler.stateFlags .send = true → handler.phase = .send
  fresh : handler.conn = true → handler.phase = .connect ∨ handler.phase = .connected →
    handler.sent = [] ∧ handler.req ≠ []

/-- The lists are in order, and so are the handlers. -/
structure Steady (link : CSockLink) : Prop where
  tidy : link.Tidy
  settled : ∀ h, Settled (link.handlers h)

/-- The handler is not in the send list. -/
structure Rests (handler : CNetHandler) : Prop where
  settled : Settled handler
  unflagged : handler.stateFlags .send = false

variable {handler : CNetHandler} {link' : CSockLink}

theorem rests_of (unflagged : handler.stateFlags .send = false) (placed : Placed handler)
    (fresh : handler.conn = true → handler.phase = .connect ∨ handler.phase = .connected →
      handler.sent = [] ∧ handler.req ≠ []) : Rests handler :=
  ⟨⟨placed, fun flagged => absurd flagged (by rw [unflagged]; decide), fresh⟩, unflagged⟩

theorem rests_of_alone (unflagged : handler.stateFlags .send = false) (alone : handler.conn = false) :
    Rests handler := by
  have never {p : Prop} (linked : handler.conn = true) : p :=
    absurd linked (by rw [alone]; decide)
  exact rests_of unflagged ⟨never, never⟩ never

theorem settled_of_sending (phase : handler.phase = .send)
    (seated : handler.conn = true → ∃ type, handler.stateFlags type = true) : Settled handler :=
  ⟨⟨seated, by rw [phase]; rintro _ ⟨⟩⟩, fun _ => phase,
    by rw [phase]; rintro _ (⟨⟨⟩⟩ | ⟨⟨⟩⟩)⟩

theorem Steady.not_mem_send (steady : link.Steady) (phase : (link.handlers h).phase ≠ .send) :
    h ∉ link.lists .send := fun member =>
  phase ((steady.settled h).sending ((steady.tidy.listed h .send).mp member))

theorem Tidy.unflagged_of_not_mem (tidy : link.Tidy) (absent : h ∉ link.lists type) :
    (link.handlers h).stateFlags type = false := by
  rw [← Bool.not_eq_true, ← tidy.listed]
  exact absent

theorem Tidy.not_mem_of_unflagged (tidy : link.Tidy)
    (unflagged : (link.handlers h).stateFlags type = false) : h ∉ link.lists type := fun member =>
  absurd ((tidy.listed h type).mp member) (by rw [unflagged]; decide)

theorem Steady.apart (steady : link.Steady) (apart : Apart link link' h)
    (settled : Settled (link'.handlers h)) : link'.Steady := by
  refine ⟨apart.tidy, fun other => ?_⟩
  rcases eq_or_ne other h with rfl | different
  · exact settled
  · rw [apart.others other different]
    exact steady.settled other

theorem Steady.same (steady : link.Steady) (same : SameLists link link') : link'.Steady :=
  ⟨steady.tidy.same same, same.handlers ▸ steady.settled⟩

/-- One handler moves, and is not in the send list afterwards. -/
structure Moves (link link' : CSockLink) (h : Nat) : Prop extends Apart link link' h where
  rests : Rests (link'.handlers h)

variable {link'' : CSockLink}

theorem Apart.moves (first : Apart link link' h) (second : Moves link' link'' h) :
    Moves link link'' h :=
  ⟨first.trans second.toApart, second.rests⟩

theorem Steady.moves (steady : link.Steady) (moves : Moves link link' h) : link'.Steady :=
  steady.apart moves.toApart moves.rests.settled

/-- Who is not in the list afterwards has left it, and nobody else has. -/
theorem Apart.list_eq (apart : Apart link link' h)
    (unflagged : (link'.handlers h).stateFlags type = false) :
    link'.lists type = (link.lists type).filter (· ≠ h) := by
  rw [← apart.lists, apart.tidy.filter_eq unflagged]

section

variable (tidy : link.Tidy)

include tidy

/-- A request that ends moves its own handler only. -/
theorem Tidy.finish (h : Nat) (ret : Int) : Moves link (link.finish h ret) h := by
  have unlinked := tidy.unlink h
  have apart : Apart (link.unlink h)
      ((link.unlink h).modify h ({ · with phase := .out, ret := some ret })) h :=
    unlinked.tidy.modify h _ rfl (unlinked.tidy.linked h)
  refine ⟨unlinked.trans { apart with tidy := { apart.tidy with } }, ?_⟩
  unfold CSockLink.finish
  rw [modify_self, tidy.unlink_self]
  exact rests_of_alone rfl rfl

section

variable (type : LinkList) (h : Nat)

theorem Tidy.switchTo_unflagged (other : type ≠ .send) :
    ((link.switchTo type h).handlers h).stateFlags .send = false := by
  rw [tidy.switchTo_self]
  split_ifs <;> simp [other]

theorem Tidy.switchTo_seated (linked : ((link.switchTo type h).handlers h).conn = true) :
    ∃ other, ((link.switchTo type h).handlers h).stateFlags other = true := by
  rw [tidy.switchTo_self] at linked ⊢
  dsimp only at linked ⊢
  exact ⟨type, by simp [linked]⟩

theorem Tidy.switchTo_data :
    ((link.switchTo type h).handlers h).sent = (link.handlers h).sent ∧
    ((link.switchTo type h).handlers h).req = (link.handlers h).req := by
  rw [tidy.switchTo_self]
  exact ⟨rfl, rfl⟩

end

variable {phase : Phase} (unflagged : (link.handlers h).stateFlags .send = false)
  (seated : (link.handlers h).conn = true → ∃ type, (link.handlers h).stateFlags type = true)
  (inside : phase ≠ .out)
  (fresh : (link.handlers h).conn = true → phase = .connect ∨ phase = .connected →
    (link.handlers h).sent = [] ∧ (link.handlers h).req ≠ [])

include unflagged seated inside fresh

theorem Tidy.sleep_rests : Moves link (link.sleep h phase) h := by
  refine ⟨tidy.sleep h phase, ?_⟩
  unfold CSockLink.sleep
  rw [modify_self]
  exact rests_of unflagged ⟨seated, fun _ => inside⟩ fresh

theorem Tidy.goOn_rests : Moves link (link.goOn h phase) h := by
  refine ⟨tidy.goOn h phase, ?_⟩
  unfold CSockLink.goOn
  rw [modify_self]
  exact rests_of unflagged ⟨seated, fun _ => inside⟩ fresh

end

theorem goOn_flags (link : CSockLink) (h : Nat) (phase : Phase) :
    ((link.goOn h phase).handlers h).stateFlags = (link.handlers h).stateFlags := by
  unfold goOn
  rw [modify_self]

/-- Waiting for the connection moves this handler only. -/
theorem Tidy.waitConnect (tidy : link.Tidy) (sock : SockAnswer) (answer : ConnectAnswer)
    (accepts : Change → Bool) (unflagged : (link.handlers h).stateFlags .send = false)
    (seated : (link.handlers h).conn = true → ∃ type, (link.handlers h).stateFlags type = true)
    (unsent : (link.handlers h).sent = []) (some : (link.handlers h).req ≠ []) :
    Moves link (link.waitConnect h sock answer accepts) h := by
  have created := link.createSock_same sock accepts
  unfold CSockLink.waitConnect
  generalize link.createSock sock accepts = result at created
  obtain ⟨link₁, fd⟩ := result
  have apart := created.apart tidy h
  have connected := link₁.connect_same answer
  dsimp only at created apart connected ⊢
  split_ifs
  · exact apart.moves (apart.tidy.finish h _)
  · generalize link₁.connect answer = result at connected
    obtain ⟨link₂, _ | _⟩ := result
    all_goals
      have handlers := connected.handlers.trans created.handlers
      have apart := apart.trans (connected.apart apart.tidy h)
      rw [← handlers] at unflagged seated unsent some
    · have switched := apart.tidy.switchTo .conn h
      obtain ⟨sent, req⟩ := apart.tidy.switchTo_data .conn h
      exact (apart.trans switched).moves (switched.tidy.sleep_rests
        (apart.tidy.switchTo_unflagged _ h (by decide)) (apart.tidy.switchTo_seated _ h)
        (by decide) fun _ _ => by rw [sent, req]; exact ⟨unsent, some⟩)
    · exact apart.moves (apart.tidy.goOn_rests unflagged seated (by decide)
        fun _ _ => ⟨unsent, some⟩)

theorem data_ne_nil {request : Request} (valid : ¬ request.checkParams < 0) : request.data ≠ [] := by
  intro empty
  unfold Request.checkParams at valid
  rw [if_pos empty] at valid
  exact valid (by decide)

/-- The handler, with the request that `SendRecv` is called with. -/
def asks (link : CSockLink) (h : Nat) (request : Request) : CSockLink :=
  link.modify h fun handler =>
    { handler with sent := [], req := request.data, connType := request.connType }

/-- With its session registered. -/
def registers (link : CSockLink) (h : Nat) (request : Request) : CSockLink :=
  (link.asks h request).modify h fun handler =>
    { handler with thread := handler.thread || request.connType = .session }

/-- And when `GetConnLink` has linked it. -/
def joins (link : CSockLink) (h : Nat) (request : Request) : CSockLink :=
  ((link.registers h request).modify h ({ · with conn := true })).switchTo .idle h

theorem sendRecv_eq (link : CSockLink) (h : Nat) (request : Request) (sock : SockAnswer)
    (answer : ConnectAnswer) (accepts : Change → Bool) :
    link.sendRecv h request sock answer accepts =
      if request.checkParams < 0 then (link.asks h request).finish h request.checkParams
      else if !request.memory then (link.registers h request).finish h (-12)
      else (link.joins h request).waitConnect h sock answer accepts := rfl

section

variable (tidy : link.Tidy)

include tidy

section

variable (h : Nat) (request : Request)

theorem Tidy.asks : Apart link (link.asks h request) h :=
  tidy.modify h _ rfl (tidy.linked h)

theorem Tidy.registers : Apart link (link.registers h request) h :=
  (tidy.asks h request).trans
    ((tidy.asks h request).tidy.modify h _ rfl ((tidy.asks h request).tidy.linked h))

/-- The handler has its request, and is not in the send list. -/
theorem Tidy.joins :
    Apart link (link.joins h request) h ∧
    ((link.joins h request).handlers h).stateFlags .send = false ∧
    (((link.joins h request).handlers h).conn = true →
      ∃ type, ((link.joins h request).handlers h).stateFlags type = true) ∧
    ((link.joins h request).handlers h).sent = [] ∧
    ((link.joins h request).handlers h).req = request.data := by
  have registered := tidy.registers h request
  have linked := registered.trans
    (registered.tidy.modify h ({ · with conn := true }) rfl fun _ _ => rfl)
  obtain ⟨sent, req⟩ := linked.tidy.switchTo_data .idle h
  refine ⟨linked.trans (linked.tidy.switchTo .idle h),
    linked.tidy.switchTo_unflagged _ h (by decide), linked.tidy.switchTo_seated _ h, ?_⟩
  unfold CSockLink.joins
  rw [sent, req, modify_self]
  unfold CSockLink.registers CSockLink.asks
  rw [modify_self, modify_self]
  exact ⟨rfl, rfl⟩

end

theorem Tidy.joins_waitConnect (h : Nat) {request : Request} (valid : ¬ request.checkParams < 0)
    (sock : SockAnswer) (answer : ConnectAnswer) (accepts : Change → Bool) :
    Moves (link.joins h request) ((link.joins h request).waitConnect h sock answer accepts) h := by
  obtain ⟨apart, unflagged, seated, sent, req⟩ := tidy.joins h request
  exact apart.tidy.waitConnect sock answer accepts unflagged seated sent
    (by rw [req]; exact data_ne_nil valid)

/-- A request that begins moves its own handler only. -/
theorem Tidy.sendRecv (request : Request) (sock : SockAnswer) (answer : ConnectAnswer)
    (accepts : Change → Bool) : Moves link (link.sendRecv h request sock answer accepts) h := by
  have asked := tidy.asks h request
  have registered := tidy.registers h request
  rw [sendRecv_eq]
  split_ifs with invalid
  · exact asked.moves (asked.tidy.finish h _)
  · exact registered.moves (registered.tidy.finish h _)
  · exact (tidy.joins h request).1.moves (tidy.joins_waitConnect h invalid sock answer accepts)

theorem Tidy.waitRecv (h : Nat) : Moves link (link.waitRecv h) h := by
  unfold CSockLink.waitRecv
  split_ifs
  · exact tidy.finish h _
  · exact tidy.finish h _
  · have switched := tidy.switchTo .recv h
    exact switched.moves (switched.tidy.sleep_rests (tidy.switchTo_unflagged _ h (by decide))
      (tidy.switchTo_seated _ h) (by decide) (by rintro _ (⟨⟨⟩⟩ | ⟨⟨⟩⟩)))

end

/-- A thread that wakes up moves its own handler only. -/
theorem Steady.wakeup (steady : link.Steady) (h : Nat) : Moves link (link.wakeup h) h := by
  have woken : Apart link (link.modify h ({ · with ioWait := false })) h :=
    steady.tidy.modify h _ rfl (steady.tidy.linked h)
  have switched := woken.trans (woken.tidy.switchTo .idle h)
  have unflagged := woken.tidy.switchTo_unflagged .idle h (by decide)
  have seated := woken.tidy.switchTo_seated .idle h
  have conn := congrArg CNetHandler.conn (woken.tidy.switchTo_self .idle h)
  obtain ⟨sent, req⟩ := woken.tidy.switchTo_data .idle h
  rw [modify_self] at sent req conn
  have finishes (ret : Int) := switched.moves (switched.tidy.finish h ret)
  unfold CSockLink.wakeup
  dsimp only
  split
  next phase =>
    split_ifs
    · exact finishes _
    · refine switched.moves (switched.tidy.goOn_rests unflagged seated (by decide)
        fun linked _ => ?_)
      rw [sent, req]
      exact (steady.settled h).fresh (conn ▸ linked) (.inl phase)
  next =>
    split_ifs
    · exact finishes _
    · exact switched.moves (switched.tidy.goOn_rests unflagged seated (by decide)
        (by rintro _ (⟨⟨⟩⟩ | ⟨⟨⟩⟩)))
  next => exact finishes _

/-- Only handlers and lists are different. -/
def Inner (link link' : CSockLink) : Prop :=
  ∃ handlers lists, link' = link.relisted handlers lists

theorem Inner.trans (first : Inner link link') (second : Inner link' link'') :
    Inner link link'' := by
  obtain ⟨handlers, lists, rfl⟩ := first
  exact second

/-- A handler becomes idle; its thread is where it was. -/
structure Released (link link' : CSockLink) (h : Nat) : Prop extends Apart link link' h where
  unflagged : (link'.handlers h).stateFlags .send = false
  settled : Settled (link.handlers h) → Settled (link'.handlers h)
  conn : (link'.handlers h).conn = (link.handlers h).conn
  inner : Inner link link'

/-- A released handler becomes idle. -/
theorem Tidy.release (tidy : link.Tidy) (h : Nat) : Released link (link.release h) h := by
  have notified : Apart link (link.notifyThread h 0) h := tidy.modify h _ rfl (tidy.linked h)
  have unflagged := notified.tidy.switchTo_unflagged .idle h (by decide)
  refine ⟨notified.trans (notified.tidy.switchTo .idle h), unflagged, fun settled => ?_, ?_, ?_⟩
  · refine (rests_of unflagged ⟨notified.tidy.switchTo_seated .idle h, ?_⟩ ?_).settled
    all_goals
      rw [notified.tidy.switchTo_self]
      unfold notifyThread
      rw [modify_self]
    · exact settled.inside
    · exact settled.fresh
  · unfold CSockLink.release
    rw [notified.tidy.switchTo_self]
    unfold notifyThread
    rw [modify_self]
  · unfold CSockLink.release
    rw [notified.tidy.switchTo_eq]
    exact ⟨_, _, rfl⟩

/-- A response moves its own handler only. -/
theorem Steady.respond (steady : link.Steady) (h len : Nat) :
    Moves link (link.respond h len) h := by
  have released := steady.tidy.release h
  refine ⟨released.toApart.trans (released.tidy.modify h ({ · with rspLen := some len }) rfl
    (released.tidy.linked h)), ?_⟩
  have settled := released.settled (steady.settled h)
  unfold CSockLink.respond
  rw [modify_self]
  exact rests_of released.unflagged ⟨settled.seated, settled.inside⟩ settled.fresh

/-- A handler that loses its link is in no list. -/
theorem Tidy.unlink_moves (tidy : link.Tidy) (h : Nat) {change : CNetHandler → CNetHandler}
    (flags : ∀ handler, (change handler).stateFlags = CNetHandler.new.stateFlags)
    (alone : ∀ handler, (change handler).conn = false) :
    Moves link ((link.unlink h).modify h change) h := by
  have unlinked := tidy.unlink h
  have none : ((link.unlink h).handlers h).stateFlags = CNetHandler.new.stateFlags := by
    rw [tidy.unlink_self]
    rfl
  refine ⟨unlinked.trans (unlinked.tidy.modify h change ((flags _).trans none.symm)
    fun type flag => absurd flag (by rw [none]; exact Bool.false_ne_true)), ?_⟩
  rw [modify_self]
  exact rests_of_alone (congrFun (flags _) _) (alone _)

theorem Tidy.resetHandler (tidy : link.Tidy) (h : Nat) : Moves link (link.resetHandler h) h :=
  tidy.unlink_moves h (fun _ => rfl) fun _ => rfl

end Threads

section Sending

/-- Only handlers of the link have changed. -/
structure Within (link link' : CSockLink) : Prop where
  tidy : link'.Tidy
  settled : ∀ h, Settled (link.handlers h) → Settled (link'.handlers h)
  others : ∀ h, (link.handlers h).conn = false → link'.handlers h = link.handlers h

theorem Within.refl (tidy : link.Tidy) : Within link link :=
  ⟨tidy, fun _ settled => settled, fun _ _ => rfl⟩

variable {link' : CSockLink} {link'' : CSockLink}

theorem Within.trans (first : Within link link') (second : Within link' link'') :
    Within link link'' := by
  refine ⟨second.tidy, fun h settled => second.settled h (first.settled h settled),
    fun h alone => ?_⟩
  have same := first.others h alone
  rw [second.others h (by rw [same]; exact alone), same]

theorem Within.steady (within : Within link link') (steady : link.Steady) : link'.Steady :=
  ⟨within.tidy, fun h => within.settled h (steady.settled h)⟩

theorem SameLists.within (same : SameLists link link') (tidy : link.Tidy) : Within link link' :=
  ⟨tidy.same same, fun _ settled => same.handlers ▸ settled, fun h _ => congrFun same.handlers h⟩

theorem Apart.within (apart : Apart link link' h) (linked : (link.handlers h).conn = true)
    (settled : Settled (link.handlers h) → Settled (link'.handlers h)) : Within link link' := by
  refine ⟨apart.tidy, fun other before => ?_, fun other alone => apart.others other ?_⟩
  · rcases eq_or_ne other h with rfl | different
    · exact settled before
    · rw [apart.others other different]
      exact before
  · rintro rfl
    exact absurd alone (by rw [linked]; decide)

/-- Handlers leave the send list. -/
structure Drains (link link' : CSockLink) : Prop where
  tidy : link'.Tidy
  settled : ∀ h, Settled (link.handlers h) → Settled (link'.handlers h)
  others : ∀ h, h ∉ link.lists .send → link'.handlers h = link.handlers h
  lists : ∀ h, h ∈ link'.lists .send → h ∈ link.lists .send
  protoType : link'.protoType = link.protoType
  fd : link'.fd = link.fd
  proxy : link'.proxy = link.proxy

theorem Drains.refl (tidy : link.Tidy) : Drains link link :=
  ⟨tidy, fun _ settled => settled, fun _ _ => rfl, fun _ member => member, rfl, rfl, rfl⟩

theorem Drains.trans (first : Drains link link') (second : Drains link' link'') :
    Drains link link'' :=
  ⟨second.tidy, fun h settled => second.settled h (first.settled h settled),
    fun h absent => (second.others h fun member => absent (first.lists h member)).trans
      (first.others h absent),
    fun h member => first.lists h (second.lists h member),
    second.protoType.trans first.protoType, second.fd.trans first.fd,
    second.proxy.trans first.proxy⟩

section

variable (tidy : link.Tidy)

include tidy

theorem Drains.within (drains : Drains link link') : Within link link' :=
  ⟨drains.tidy, drains.settled, fun h alone =>
    drains.others h (tidy.not_mem_of_unflagged (tidy.unflagged_of_alone alone .send))⟩

/-- A handler of the send list stays there or leaves it. -/
theorem Apart.drains (apart : Apart link link' h) (member : h ∈ link.lists .send)
    (settled : Settled (link.handlers h) → Settled (link'.handlers h)) (fd : link'.fd = link.fd)
    (proxy : link'.proxy = link.proxy) : Drains link link' := by
  have within := apart.within (tidy.linked h .send ((tidy.listed h .send).mp member)) settled
  refine ⟨apart.tidy, within.settled, fun other outside => ?_, fun other there => ?_,
    apart.protoType, fd, proxy⟩
  · exact apart.others other fun same => outside (same ▸ member)
  · rcases eq_or_ne other h with rfl | different
    · exact member
    · exact (apart.mem_iff different).mp there

theorem Tidy.release_drains (member : h ∈ link.lists .send) : Drains link (link.release h) := by
  have released := tidy.release h
  obtain ⟨handlers, lists, inner⟩ := released.inner
  exact released.toApart.drains tidy member released.settled (congrArg fd inner :)
    (congrArg proxy inner :)

/-- The first handler of the send list is done, the others stay. -/
theorem Tidy.release_first {rest : List Nat} (queue : link.lists .send = h :: rest) :
    (link.release h).lists .send = rest := by
  have released := tidy.release h
  have nodup := tidy.nodup .send
  rw [queue, nodup_cons] at nodup
  rw [released.list_eq released.unflagged, queue, filter_cons_of_neg (by simp),
    filter_eq_self]
  exact fun other member => decide_eq_true fun same => nodup.1 (same ▸ member)

theorem Tidy.skipSendPos_drains (member : h ∈ link.lists .send) (len : Nat) :
    Drains link (link.skipSendPos h len) := by
  refine (tidy.skipSendPos h len).drains tidy member (fun settled => ?_) rfl rfl
  rw [skipSendPos_self]
  exact settled_of_sending (settled.sending ((tidy.listed _ _).mp member)) settled.seated

/-- If some bytes are left, there is no handler for them. -/
theorem sendLoop_drains (left : Nat) :
    Drains link (sendLoop (link.lists .send) left link).1 ∧
    ((sendLoop (link.lists .send) left link).2 ≠ 0 →
      (sendLoop (link.lists .send) left link).1.lists .send = []) := by
  generalize queue : link.lists .send = items
  induction items generalizing link left with
  | nil => exact ⟨Drains.refl tidy, fun _ => queue⟩
  | cons h rest ih =>
    have member : h ∈ link.lists .send := queue ▸ mem_cons_self
    have skipped := tidy.skipSendPos_drains member left
    have list : (link.skipSendPos h left).lists .send = h :: rest := queue
    unfold sendLoop
    dsimp only
    rcases Nat.lt_or_ge left (link.handlers h).req.length with part | whole
    · -- the request of this handler is not complete
      rw [if_neg (mt skipSendPos_done.mp part.not_ge), if_pos (by omega)]
      exact ⟨skipped, absurd rfl⟩
    · rw [if_pos (skipSendPos_done.mpr whole)]
      have released := skipped.trans (skipped.tidy.release_drains (h := h)
        (list ▸ mem_cons_self))
      have left₂ := skipped.tidy.release_first list
      split_ifs with all
      · exact ⟨released, absurd rfl⟩
      · obtain ⟨later, empty⟩ := ih released.tidy (left - (link.handlers h).req.length) left₂
        exact ⟨released.trans later, empty⟩

end

/-- What `SendCacheTcp` and `SendCacheUdp` leave. If they return more than zero, the send list is
empty. -/
structure Cached (link : CSockLink) (result : CSockLink × Int) : Prop where
  drains : Drains link result.1
  empty : 0 < result.2 → result.1.lists .send = []

theorem Drains.cached (drains : Drains link link') {ret : Int} (none : ret ≤ 0) :
    Cached link (link', ret) :=
  ⟨drains, fun some => absurd some (by omega)⟩

/-- `SendCacheTcp` only takes handlers off the send list, all if it returns more than zero. -/
theorem sendCacheTcp_cached (tidy : link.Tidy) (data : Option (List UInt8))
    (answers : List WriteAnswer) : Cached link (link.sendCacheTcp data answers) := by
  unfold sendCacheTcp
  cases answers.headD .again with
  | again | error => exact (Drains.refl tidy).cached (by decide)
  | written count =>
    dsimp only
    generalize (link.iov data).flatten.take (min count 2147483647) = bytes
    have logged : Drains link { link with output := link.output ++ [bytes] } :=
      { Drains.refl tidy with tidy := { tidy with } }
    obtain ⟨drains, empty⟩ := sendLoop_drains logged.tidy bytes.length
    generalize sendLoop (link.lists .send) bytes.length _ = result at drains empty ⊢
    obtain ⟨link₁, left⟩ := result
    refine ⟨logged.trans drains, fun some => empty ?_⟩
    rintro rfl
    dsimp only at some
    exact absurd some (by decide)

/-- The loop of `SendCacheUdp` ends with an empty list, or returns. -/
structure Emptied (link : CSockLink) (result : CSockLink × List WriteAnswer × Option Int) :
    Prop where
  drains : Drains link result.1
  empty : result.2.2 = none → result.1.lists .send = []
  values : ∀ ret ∈ result.2.2, ret ≤ 0

/-- Each datagram takes its handler off the list. -/
theorem datagramLoop_emptied (tidy : link.Tidy) (answers : List WriteAnswer) :
    Emptied link (datagramLoop (link.lists .send) answers link) := by
  generalize queue : link.lists .send = items
  induction items generalizing link answers with
  | nil => exact ⟨Drains.refl tidy, fun _ => queue, by rintro _ ⟨⟩⟩
  | cons h rest ih =>
    -- with what has been sent in the output or not
    have goes (link₀ : CSockLink) (same : Drains link link₀) (list : link₀.lists .send = h :: rest)
        (answers : List WriteAnswer) : Emptied link (datagramLoop rest answers (link₀.release h)) := by
      have drains := same.tidy.release_drains (h := h) (list ▸ mem_cons_self)
      obtain ⟨later, empty, values⟩ := ih drains.tidy answers (same.tidy.release_first list)
      exact ⟨(same.trans drains).trans later, empty, values⟩
    have stays (answers : List WriteAnswer) {ret : Int} (value : ret ≤ 0) :
        Emptied link (link, answers, some ret) :=
      ⟨Drains.refl tidy, by rintro ⟨⟩, by rintro _ ⟨⟩; exact value⟩
    unfold datagramLoop
    dsimp only
    split_ifs
    · exact goes link (Drains.refl tidy) queue answers
    · match answers with
      | [] => exact stays _ (by decide)
      | .again :: answers => exact stays _ (by decide)
      | .error :: answers => exact stays _ (by decide)
      | .written _ :: answers =>
        have logged : Drains link { link with output := link.output ++ [(link.handlers h).req] } :=
          { Drains.refl tidy with tidy := { tidy with } }
        exact goes _ logged queue answers

/-- `SendCacheUdp` only takes handlers off the send list, all if it returns more than zero. -/
theorem sendCacheUdp_cached (tidy : link.Tidy) (data : List UInt8) (answers : List WriteAnswer) :
    Cached link (link.sendCacheUdp data answers) := by
  obtain ⟨drains, empty, values⟩ := datagramLoop_emptied tidy answers
  unfold sendCacheUdp
  generalize datagramLoop (link.lists .send) answers link = result at drains empty values
  obtain ⟨link₁, answers, ret | ret⟩ := result
  · dsimp only at empty ⊢
    split_ifs
    · exact drains.cached (by decide)
    · cases answers.headD .again with
      | again | error => exact drains.cached (by decide)
      | written count =>
        exact ⟨{ drains with tidy := { drains.tidy with } }, fun _ => empty rfl⟩
  · exact drains.cached (values ret rfl)

theorem Tidy.sendCache (tidy : link.Tidy) (data : Option (List UInt8))
    (answers : List WriteAnswer) : Cached link (link.sendCache data answers) := by
  unfold CSockLink.sendCache
  cases link.protoType with
  | udp => exact sendCacheUdp_cached tidy _ answers
  | tcp => exact sendCacheTcp_cached tidy data answers

/-- Both branches of `SendData` change the proxy only. -/
theorem sendData_same (link : CSockLink) (data : List UInt8) (answers : List WriteAnswer)
    (accepts : Change → Bool) :
    SameLists (link.sendCache (some data) answers).1 (link.sendData data answers accepts).1 ∧
    (link.sendData data answers accepts).2 = (link.sendCache (some data) answers).2 := by
  unfold sendData
  dsimp only
  split_ifs <;> exact ⟨⟨rfl, rfl, rfl, rfl, rfl⟩, rfl⟩

/-- What has not been sent is put into the send list. -/
theorem Tidy.sendResult (tidy : link.Tidy)
    (unflagged : (link.handlers h).stateFlags .send = false) (ret : Int) :
    Apart link (link.sendResult h ret) h ∧
    (((link.handlers h).conn = true → ∃ type, (link.handlers h).stateFlags type = true) →
      Settled ((link.sendResult h ret).handlers h)) := by
  unfold CSockLink.sendResult
  have skipped := tidy.skipSendPos h ret.toNat
  have self := link.skipSendPos_self h ret.toNat
  by_cases failed : ret < 0
  · rw [if_pos failed]
    have moves := tidy.finish h (-2)
    exact ⟨moves.toApart, fun _ => moves.rests.settled⟩
  · rw [if_neg failed]
    by_cases none : ((link.skipSendPos h ret.toNat).handlers h).req = []
    · rw [if_pos none]
      refine ⟨skipped.trans (skipped.tidy.goOn h .sent), fun seated => ?_⟩
      exact (skipped.tidy.goOn_rests (by rw [self]; exact unflagged) (by rw [self]; exact seated)
        (by decide) (by rintro _ (⟨⟨⟩⟩ | ⟨⟨⟩⟩))).rests.settled
    · rw [if_neg none]
      have switched := skipped.trans (skipped.tidy.switchTo .send h)
      refine ⟨switched.trans (switched.tidy.sleep h .send), fun _ => ?_⟩
      unfold CSockLink.sleep
      rw [modify_self]
      exact settled_of_sending rfl (skipped.tidy.switchTo_seated .send h)

/-- The link, when the request of a handler has been handed to `SendData`. -/
def submits (link : CSockLink) (h : Nat) : CSockLink :=
  { link with submitted := link.submitted ++ [(link.handlers h).req] }

theorem waitSend_eq (linked : (link.handlers h).conn = true) (answers : List WriteAnswer)
    (accepts : Change → Bool) :
    link.waitSend h answers accepts =
      ((link.submits h).sendData (link.handlers h).req answers accepts).1.sendResult h
        ((link.submits h).sendCache (some (link.handlers h).req) answers).2 := by
  rw [← (sendData_same (link.submits h) (link.handlers h).req answers accepts).2]
  unfold waitSend
  rw [linked, if_neg (by decide)]
  rfl

/-- Others leave the send list; the handler stays as it is. -/
theorem Tidy.submits_sendCache (tidy : link.Tidy) (absent : h ∉ link.lists .send)
    (answers : List WriteAnswer) (accepts : Change → Bool) :
    Drains (link.submits h)
      ((link.submits h).sendCache (some (link.handlers h).req) answers).1 ∧
    SameLists ((link.submits h).sendCache (some (link.handlers h).req) answers).1
      ((link.submits h).sendData (link.handlers h).req answers accepts).1 ∧
    ((link.submits h).sendData (link.handlers h).req answers accepts).1.handlers h =
      link.handlers h := by
  have submitted : (link.submits h).Tidy := { tidy with }
  have drains := (submitted.sendCache (some (link.handlers h).req) answers).drains
  obtain ⟨same, -⟩ := sendData_same (link.submits h) (link.handlers h).req answers accepts
  exact ⟨drains, same, (congrFun same.handlers h).trans (drains.others h absent)⟩

variable (steady : link.Steady) (phase : (link.handlers h).phase = .connected)
  (answers : List WriteAnswer) (accepts : Change → Bool)

include steady phase

/-- First others leave the send list, and then the handler may get into it. -/
theorem Steady.waitSend_apart :
    ∃ between, Within link between ∧ Apart between (link.waitSend h answers accepts) h ∧
      Settled ((link.waitSend h answers accepts).handlers h) := by
  have absent : h ∉ link.lists .send := steady.not_mem_send (by rw [phase]; decide)
  cases linked : (link.handlers h).conn with
  | false =>
    unfold waitSend
    rw [linked]
    have moves := steady.tidy.finish h (-12)
    exact ⟨link, .refl steady.tidy, moves.toApart, moves.rests.settled⟩
  | true =>
    rw [waitSend_eq linked]
    obtain ⟨drains, same, self⟩ := steady.tidy.submits_sendCache absent answers accepts
    have submitted : Within link (link.submits h) :=
      ⟨{ steady.tidy with }, fun _ settled => settled, fun _ _ => rfl⟩
    have within := submitted.trans ((drains.within submitted.tidy).trans
      (same.within drains.tidy))
    obtain ⟨apart, settled⟩ := within.tidy.sendResult
      (by rw [self]; exact steady.tidy.unflagged_of_not_mem absent) _
    exact ⟨_, within, apart, settled (by rw [self]; exact (steady.settled h).seated)⟩

theorem Steady.waitSend : (link.waitSend h answers accepts).Steady := by
  obtain ⟨between, within, apart, settled⟩ := steady.waitSend_apart phase answers accepts
  exact (within.steady steady).apart apart settled

end Sending

section Notify

/-- Releasing handlers outside the send list leaves that list alone. -/
theorem Tidy.releases (tidy : link.Tidy) (items : List Nat)
    (linked : ∀ h ∈ items, (link.handlers h).conn = true)
    (outside : ∀ h ∈ items, h ∉ link.lists .send) :
    Within link (items.foldl CSockLink.release link) ∧
    (items.foldl CSockLink.release link).lists .send = link.lists .send ∧
    (∀ h ∈ link.lists .send,
      (items.foldl CSockLink.release link).handlers h = link.handlers h) ∧
    Inner link (items.foldl CSockLink.release link) := by
  induction items generalizing link with
  | nil => exact ⟨.refl tidy, rfl, fun _ _ => rfl, _, _, rfl⟩
  | cons h rest ih =>
    have absent := outside h mem_cons_self
    have released := tidy.release h
    have list : (link.release h).lists .send = link.lists .send := by
      rw [released.list_eq released.unflagged, filter_eq_self]
      exact fun other member => decide_eq_true fun same => absent (same ▸ member)
    obtain ⟨within, same, sending, inner⟩ := ih released.tidy
      (fun other member => by
        rcases eq_or_ne other h with rfl | different
        · rw [released.conn]
          exact linked other mem_cons_self
        · rw [released.others other different]
          exact linked other (mem_cons_of_mem _ member))
      (fun other member => by
        rw [list]
        exact outside other (mem_cons_of_mem _ member))
    refine ⟨(released.toApart.within (linked h mem_cons_self) released.settled).trans within, same.trans list,
      fun other member => ?_, released.inner.trans inner⟩
    rw [foldl_cons, sending other (list ▸ member), released.others other fun same => absent (same ▸ member)]

/-- The send list is as it was, and so is the socket. -/
structure Establishes (link link' : CSockLink) : Prop extends Within link link' where
  list : link'.lists .send = link.lists .send
  sending : ∀ h ∈ link.lists .send, link'.handlers h = link.handlers h
  protoType : link'.protoType = link.protoType
  output : link'.output = link.output
  submitted : link'.submitted = link.submitted
  fd : link'.fd = link.fd
  proxy : link'.proxy = link.proxy

/-- The handlers that wait for the connection are not in the send list. -/
theorem Tidy.established (tidy : link.Tidy) : Establishes link link.established := by
  unfold CSockLink.established
  split_ifs
  · have same : SameLists link { link with connecting := false, connected := true } :=
      ⟨rfl, rfl, rfl, rfl, rfl⟩
    have flagged (h : Nat) (waits : h ∈ link.lists .conn) := (tidy.listed h .conn).mp waits
    obtain ⟨within, list, sending, handlers, lists, inner⟩ :=
      (tidy.same same).releases (link.lists .conn)
        (fun h waits => tidy.linked h .conn (flagged h waits))
        (fun h waits sends => absurd
          (tidy.single h _ _ (flagged h waits) ((tidy.listed h .send).mp sends)) (by decide))
    exact ⟨(same.within tidy).trans within, list, sending,
      (congrArg protoType inner :), (congrArg output inner :),
      (congrArg submitted inner :), (congrArg fd inner :),
      (congrArg proxy inner :)⟩
  · exact ⟨.refl tidy, rfl, fun _ _ => rfl, rfl, rfl, rfl, rfl, rfl⟩

/-- Handlers leave the lists. -/
structure Leaves (link link' : CSockLink) : Prop extends Within link link' where
  lists : ∀ h type, h ∈ link'.lists type → h ∈ link.lists type
  inner : Inner link link'

theorem Leaves.refl (tidy : link.Tidy) : Leaves link link :=
  ⟨.refl tidy, fun _ _ member => member, _, _, rfl⟩

theorem Leaves.trans {link' link'' : CSockLink} (first : Leaves link link')
    (second : Leaves link' link'') : Leaves link link'' :=
  ⟨first.toWithin.trans second.toWithin, fun h type member => first.lists h type (second.lists h type member),
    first.inner.trans second.inner⟩

/-- One round of the loops of `NotifyAll`. -/
theorem Tidy.dismiss (tidy : link.Tidy) (linked : (link.handlers h).conn = true) (result : Int) :
    Leaves link ((link.notifyThread h result).unlink h) ∧
    (∀ type, h ∉ ((link.notifyThread h result).unlink h).lists type) ∧
    ∀ other, other ≠ h →
      ((link.notifyThread h result).unlink h).handlers other = link.handlers other := by
  have notified : Apart link (link.notifyThread h result) h :=
    tidy.modify h _ rfl (tidy.linked h)
  have apart := notified.trans (notified.tidy.unlink h)
  have self := notified.tidy.unlink_self h
  have absent : ∀ type, h ∉ ((link.notifyThread h result).unlink h).lists type := fun type =>
    apart.tidy.not_mem_of_unflagged (by rw [self]; rfl)
  refine ⟨⟨apart.within linked fun _ => ?_, fun other type member => ?_, ?_⟩, absent, apart.others⟩
  · rw [self]
    exact (rests_of_alone rfl rfl).settled
  · have different : other ≠ h := fun same => absent type (same ▸ member)
    exact (apart.mem_iff different).mp member
  · unfold CSockLink.unlink
    rw [notified.tidy.detachConn_eq]
    exact ⟨_, _, rfl⟩

/-- Handlers that are dismissed are in no list. -/
theorem Tidy.dismissAll (tidy : link.Tidy) {items : List Nat} (nodup : items.Nodup)
    (linked : ∀ h ∈ items, (link.handlers h).conn = true) (result : Int) :
    Leaves link (items.foldl (fun link h => (link.notifyThread h result).unlink h) link) ∧
    ∀ h ∈ items, ∀ type,
      h ∉ (items.foldl (fun link h => (link.notifyThread h result).unlink h) link).lists type := by
  induction items generalizing link with
  | nil => exact ⟨.refl tidy, fun _ member => absurd member not_mem_nil⟩
  | cons h rest ih =>
    rw [nodup_cons] at nodup
    obtain ⟨one, gone, others⟩ := tidy.dismiss (linked h mem_cons_self) result
    obtain ⟨later, absent⟩ := ih one.tidy nodup.2 fun other member => by
      rw [others other fun same => nodup.1 (same ▸ member)]
      exact linked other (mem_cons_of_mem _ member)
    refine ⟨one.trans later, fun other member type => ?_⟩
    rcases mem_cons.mp member with rfl | there
    · exact fun stays => gone type (later.lists other type stays)
    · exact absent other there type

/-- Afterwards nothing is in the lists that have been gone through. -/
theorem Tidy.notifyLists (tidy : link.Tidy) (types : List LinkList) (result : Int) :
    Leaves link (types.foldl (fun link type => (link.lists type).foldl
      (fun link h => (link.notifyThread h result).unlink h) link) link) ∧
    ∀ type ∈ types, (types.foldl (fun link type => (link.lists type).foldl
      (fun link h => (link.notifyThread h result).unlink h) link) link).lists type = [] := by
  induction types generalizing link with
  | nil => exact ⟨.refl tidy, fun _ member => absurd member not_mem_nil⟩
  | cons type rest ih =>
    obtain ⟨one, gone⟩ := tidy.dismissAll (tidy.nodup type)
      (fun h member => tidy.linked h type ((tidy.listed h type).mp member)) result
    obtain ⟨later, empty⟩ := ih one.tidy
    refine ⟨one.trans later, fun other member => ?_⟩
    rcases mem_cons.mp member with rfl | there
    · refine eq_nil_iff_forall_not_mem.mpr fun h stays => ?_
      have first := later.lists h other stays
      exact gone h (one.lists h other first) other first
    · exact empty other there

theorem Tidy.notifyAll (tidy : link.Tidy) (result : Int) :
    Leaves link (link.notifyAll result) ∧ ∀ type, (link.notifyAll result).lists type = [] := by
  obtain ⟨leaves, empty⟩ := tidy.notifyLists [.conn, .send, .recv, .idle] result
  exact ⟨leaves, fun type => empty type (by cases type <;> decide)⟩

theorem close_same (link : CSockLink) (accepts : Change → Bool) :
    SameLists link (link.close accepts) := by
  unfold close
  split_ifs <;> exact ⟨rfl, rfl, rfl, rfl, rfl⟩

/-- A link that is destroyed has empty lists. -/
theorem Tidy.destroy (tidy : link.Tidy) (accepts : Change → Bool) (next : ProtoType) :
    Within link (link.destroy accepts next) ∧
    ∀ type, (link.destroy accepts next).lists type = [] := by
  have closed := (link.close_same accepts).within tidy
  obtain ⟨leaves, empty⟩ := closed.tidy.notifyAll link.errno
  have lists : (fun _ : LinkList => ([] : List Nat)) =
      ((link.close accepts).notifyAll link.errno).lists := (funext empty).symm
  refine ⟨closed.trans ?_, fun _ => rfl⟩
  unfold CSockLink.destroy
  rw [lists]
  exact { leaves.toWithin with tidy := { leaves.tidy with } }

theorem unwatch_same (link : CSockLink) (accepts : Change → Bool) :
    SameLists link (link.unwatch accepts) := ⟨rfl, rfl, rfl, rfl, rfl⟩

theorem errno_same (link : CSockLink) (errno : Int) : SameLists link { link with errno } :=
  ⟨rfl, rfl, rfl, rfl, rfl⟩

/-- A link that becomes writable changes its own handlers only. -/
theorem Tidy.outputNotify (tidy : link.Tidy) (answers : List WriteAnswer)
    (accepts : Change → Bool) (next : ProtoType) :
    Within link (link.outputNotify answers accepts next) := by
  have begun := tidy.established.toWithin
  have sent := begun.trans ((begun.tidy.sendCache none answers).drains.within begun.tidy)
  unfold CSockLink.outputNotify
  generalize link.established.sendCache none answers = result at sent
  obtain ⟨link₁, ret⟩ := result
  dsimp only at sent ⊢
  split_ifs
  · have failed := sent.trans ((link₁.errno_same (-2)).within sent.tidy)
    exact failed.trans (failed.tidy.destroy accepts next).1
  · exact sent.trans ((link₁.unwatch_same accepts).within sent.tidy)
  · exact sent

/-- Every event keeps lists and handlers in order. -/
theorem Steady.step (steady : link.Steady) (event : Event) : (link.step event).Steady := by
  obtain ⟨input, accepts⟩ := event
  unfold CSockLink.step
  split_ifs with enabled
  · cases input with
    | sendRecv h request sock answer =>
      exact steady.moves (steady.tidy.sendRecv request sock answer accepts)
    | waitSend h answers => exact steady.waitSend enabled.2 answers accepts
    | waitRecv h => exact steady.moves (steady.tidy.waitRecv h)
    | wakeup h => exact steady.moves (steady.wakeup h)
    | outputNotify answers next =>
      exact (steady.tidy.outputNotify answers accepts next).steady steady
    | respond h len => exact steady.moves (steady.respond h len)
    | destroy errno next =>
      have steady := steady.same (link.errno_same errno)
      exact (steady.tidy.destroy accepts next).1.steady steady
    | resetHandler h => exact steady.moves (steady.tidy.resetHandler h)
  · exact steady

theorem init_steady (protoType : ProtoType) (proxy : KqueueProxy) :
    (init protoType proxy).Steady :=
  ⟨⟨fun _ => nodup_nil, fun _ _ => iff_of_false not_mem_nil Bool.false_ne_true,
      by rintro _ _ _ ⟨⟩, by rintro _ _ ⟨⟩⟩,
    fun _ => (rests_of_alone rfl rfl).settled⟩

/-- A request for a socket that is connected at once. -/
def asked (h : Nat) (data : List UInt8) : Event :=
  ⟨.sendRecv h ⟨data, .pool, true, true, true, true⟩ ⟨some ⟨5, by decide⟩, true⟩ .ok, fun _ => true⟩

end Notify

end CSockLink

end FStack.Micro
