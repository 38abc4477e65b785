import FStack.Preload.Mailbox

/-!
# The cases of the monitor's switches

What the monitor does for a request is a list of steps. Of these lists only some facts
about their order matter for the protocol (`Ordered`): the arguments and the F-Stack call
come first, the flag of the request is cleared before the response is posted, the response
is posted before the slot is freed. They are checked for every loop and form at once.
-/

namespace FStack.Preload

open Function List

/-! ## The order of the steps of a case -/

/-- A response is posted before the slot is freed. -/
def postFirst : List Op → Bool
  | [] => false
  | .post :: _ => true
  | .free :: _ => false
  | _ :: rest => postFirst rest

/-- A step up to the F-Stack call. -/
def Op.early : Op → Bool
  | .arg _ | .const _ _ | .call | .callUntil | .callOrLeave => true
  | _ => false

/-- The F-Stack call has been made. -/
def called (ops : List Op) : Bool := ops.all fun op => !op.early

/-- All fields of the response but its value are written. -/
def filled (ops : List Op) : Bool :=
  ops.all fun
    | .out _ => false
    | _ => true

/-- What has to follow a step. -/
def Follows (loop : Loop) (form : Form) (rest : List Op) : Op → Prop
  | .arg _ | .const _ _ => called rest = false
  | .call => called rest = true ∧ .free ∈ rest ∧ .ret ∈ rest ∧ postFirst rest = true
  | .callUntil => form = .recv ∧ called rest = true ∧ .free ∈ rest ∧ postFirst rest = true
  | .callOrLeave =>
    loop = .accept ∧ form = .accept ∧ called rest = true ∧ .free ∈ rest ∧ .ret ∈ rest ∧
      postFirst rest = true
  | .succeed => form = .connect
  | .out _ => called rest = true ∧ .post ∈ rest
  | .ret => called rest = true ∧ .ret ∉ rest ∧ (.post ∈ rest ∨ form = .connect)
  | .post =>
    called rest = true ∧ filled rest = true ∧ (.ret ∈ rest → form = .connect) ∧
      (.post ∈ rest → form = .socket) ∧
      (.free ∈ rest → .clear ∉ rest ∧ postFirst rest = false)
  | .free => called rest = true ∧ .free ∉ rest ∧ (.post ∈ rest → form = .socket)
  | .register => loop = .accept ∧ .free ∉ rest ∧ .ret ∉ rest ∧ .post ∉ rest
  | _ => True

instance (loop : Loop) (form : Form) (rest : List Op) :
    ∀ op, Decidable (Follows loop form rest op)
  | .call | .callUntil | .callOrLeave | .out _ | .ret | .post | .free | .register =>
    inferInstanceAs (Decidable (_ ∧ _))
  | .arg _ | .const _ _ | .succeed => inferInstanceAs (Decidable (_ = _))
  | .own | .clear | .udpIfDgram | .epollIfDgram | .listening
  | .stopIfZero | .restart | .udpOff | .leave => inferInstanceAs (Decidable True)

/-- Every step is followed by what has to follow it. -/
def Ordered (loop : Loop) (form : Form) : List Op → Prop
  | [] => True
  | op :: rest => Follows loop form rest op ∧ Ordered loop form rest

instance Ordered.decidable (loop : Loop) (form : Form) :
    ∀ ops, Decidable (Ordered loop form ops)
  | [] => inferInstanceAs (Decidable True)
  | _ :: rest =>
    have := Ordered.decidable loop form rest
    inferInstanceAs (Decidable (_ ∧ _))

variable {rest ops : List Op} {form : Form} {loop : Loop} {op : Op}

theorem called_cons : called (op :: rest) = true ↔ op.early = false ∧ called rest = true := by
  simp [called]

theorem called_append (first rest : List Op) :
    called (first ++ rest) = (called first && called rest) :=
  all_append

theorem callOrLeave_not_mem (done : called ops = true) : .callOrLeave ∉ ops := by
  intro member
  exact absurd (all_eq_true.mp done _ member) (by decide)

theorem mem_of_postFirst (first : postFirst ops = true) : .post ∈ ops := by
  induction ops with
  | nil => cases first
  | cons op rest ih =>
    cases op with
    | post => exact mem_cons_self
    | free => cases first
    | _ => exact mem_cons_of_mem _ (ih first)

/-- Only `socket` posts after it has freed the slot. -/
theorem Ordered.postFirst (ordered : Ordered loop form ops) (other : form ≠ .socket)
    (posts : .post ∈ ops) : postFirst ops = true := by
  induction ops with
  | nil => cases posts
  | cons op rest ih =>
    have later (differs : Op.post ≠ op) : .post ∈ rest := mem_of_ne_of_mem differs posts
    cases op with
    | post => rfl
    | free => exact absurd (ordered.1.2.2 (later nofun)) other
    | _ => exact ih ordered.2 (later nofun)

/-- The slot is freed after the F-Stack call. -/
theorem Ordered.free_mem (ordered : Ordered loop form ops) (uncalled : called ops = false) :
    .free ∈ ops := by
  induction ops with
  | nil => cases uncalled
  | cons op rest ih =>
    have later (late : op.early = false) : called rest = false := by
      by_contra done
      rw [Bool.not_eq_false] at done
      exact nomatch uncalled.symm.trans (called_cons.mpr ⟨late, done⟩)
    apply mem_cons_of_mem
    cases op with
    | arg _ | const _ _ => exact ih ordered.2 ordered.1
    | call => exact ordered.1.2.1
    | callUntil => exact ordered.1.2.2.1
    | callOrLeave => exact ordered.1.2.2.2.1
    | _ => exact ih ordered.2 (later rfl)

theorem ordered_case (loop : Loop) (form : Form) :
    Ordered loop form (body loop form ++ closing loop form) := by
  cases loop <;> cases form <;> decide

theorem ordered_closing (loop : Loop) (form : Form) :
    Ordered loop form (closing loop form) := by
  cases loop <;> cases form <;> decide

theorem ordered_acceptRound : Ordered .accept .accept acceptRound := by decide

section

variable (loop : Loop) (form : Form)

theorem postFirst_case : postFirst (body loop form ++ closing loop form) = true := by
  cases loop <;> cases form <;> rfl

theorem free_mem_closing : .free ∈ closing loop form := by
  cases loop <;> cases form <;> decide

theorem clear_mem_body : .clear ∈ body loop form := by
  cases loop <;> cases form <;> decide

theorem postFirst_closing : postFirst (closing loop form) = false := by
  cases loop <;> cases form <;> rfl

theorem ret_mem_body : .ret ∈ body loop form := by
  cases loop <;> cases form <;> decide

end

/-- What a hook copies is filled in. -/
theorem out_mem_body (loop : Loop) {field : Field} (read : .out field ∈ response form) :
    .out field ∈ body loop form := by
  have filled : ((response form).all fun
      | .out field => .out field ∈ answer form
      | _ => true) = true := by
    cases form <;> rfl
  exact mem_append_right _ (of_decide_eq_true (all_eq_true.mp filled _ read))

theorem callOrLeave_not_mem_case (loop : Loop) (form : Form) :
    .callOrLeave ∉ body loop form ++ closing loop form := by
  cases loop <;> cases form <;> decide

/-- A step that does nothing to the flags. -/
def Op.neutral : Op → Bool
  | .clear | .post | .free | .callOrLeave => false
  | _ => true

/-- Two lists of steps that do the same to the flags. -/
structure Alike (ops rest : List Op) : Prop where
  free : .free ∈ ops ↔ .free ∈ rest
  post : .post ∈ ops ↔ .post ∈ rest
  clear : .clear ∈ ops ↔ .clear ∈ rest
  leave : .callOrLeave ∈ ops ↔ .callOrLeave ∈ rest
  postFirst : postFirst ops = postFirst rest

theorem Alike.cons (neutral : op.neutral = true) (rest : List Op) : Alike (op :: rest) rest := by
  have apart : ∀ other : Op, other.neutral = false → (other ∈ op :: rest ↔ other ∈ rest) := by
    intro other differs
    rw [mem_cons, or_iff_right]
    rintro rfl
    exact absurd neutral (by simp [differs])
  refine ⟨apart _ rfl, apart _ rfl, apart _ rfl, apart _ rfl, ?_⟩
  cases op <;> first | rfl | cases neutral

theorem Alike.append (first rest : List Op) (neutral : ∀ op ∈ first, op.neutral = true) :
    Alike (first ++ rest) rest := by
  induction first with
  | nil => constructor <;> rfl
  | cons op first ih =>
    have here := cons (neutral op mem_cons_self) (first ++ rest)
    have later := ih fun op member => neutral op (mem_cons_of_mem _ member)
    exact ⟨here.free.trans later.free, here.post.trans later.post,
      here.clear.trans later.clear, here.leave.trans later.leave,
      here.postFirst.trans later.postFirst⟩

theorem Alike.symm (alike : Alike ops rest) : Alike rest ops :=
  ⟨alike.free.symm, alike.post.symm, alike.clear.symm, alike.leave.symm, alike.postFirst.symm⟩

theorem neutral_parameters (form : Form) : ∀ op ∈ parameters form, op.neutral = true := by
  cases form <;> decide

/-- Parameters are read before the call. -/
theorem follows_parameters (member : op ∈ parameters form) (uncalled : called rest = false) :
    Follows loop form rest op := by
  have reads : ∀ form, ∀ op ∈ parameters form, op.early = true ∧
      op ∉ [.call, .callUntil, .callOrLeave] := by
    intro form
    cases form <;> decide
  obtain ⟨early, other⟩ := reads form op member
  cases op with
  | arg _ | const _ _ => exact uncalled
  | call | callUntil | callOrLeave => exact absurd (by decide) other
  | _ => cases early

/-- A case that reads its parameters first is in order. -/
theorem Ordered.parameters (ordered : Ordered loop form rest) (uncalled : called rest = false) :
    Ordered loop form (parameters form ++ rest) := by
  have plain : ∀ op ∈ Preload.parameters form, ∀ rest, called rest = false →
      Follows loop form rest op :=
    fun _ member _ => follows_parameters member
  generalize Preload.parameters form = first at plain ⊢
  induction first with
  | nil => exact ordered
  | cons op first ih =>
    obtain ⟨here, later⟩ := forall_mem_cons.mp plain
    have uncalled' : called (first ++ rest) = false := by
      rw [called_append, uncalled, Bool.and_false]
    exact ⟨here _ uncalled', ih later⟩

theorem flag_mem_request (form : Form) : .flag ∈ request form := by
  cases form <;> decide

theorem nodup_request (form : Form) : (request form).Nodup := by
  cases form <;> decide

theorem nodup_response (form : Form) : (response form).Nodup := by
  cases form <;> decide

/-! ## Flags -/

section Flags

variable {flags : Form → Bool} {form other : Form}

theorem of_update_false (raised : update flags form false other = true) :
    other ≠ form ∧ flags other = true := by
  rw [update_apply] at raised
  split at raised
  · cases raised
  case isFalse differs => exact ⟨differs, raised⟩

theorem of_update_true (raised : update flags form true other = true) :
    other = form ∨ other ≠ form ∧ flags other = true := by
  rw [update_apply] at raised
  split at raised
  case isTrue same => exact .inl same
  case isFalse differs => exact .inr ⟨differs, raised⟩

theorem update_true_of (raised : flags other = true) :
    update flags form true other = true := by
  rw [update_apply, raised, ite_self]

end Flags

/-! ## What a step of the monitor can do -/

/-- Not in the middle of a case. -/
def MonitorPc.away : MonitorPc → Bool
  | .guard _ _ | .run _ _ _ | .acceptFd => false
  | _ => true

theorem MonitorPc.ne_run_of_away {pc : MonitorPc} (away : pc.away = true) (loop : Loop)
    (form : Form) (ops : List Op) : pc ≠ .run loop form ops := by
  rintro rfl
  cases away

/-- The moves of the monitor. Outside of a case only its own variables change. -/
inductive Move (env : Env) (s : State) : State → Prop
  | stay : Move env s s
  | wander {monitor : Monitor} (away : monitor.pc.away = true)
      (done : ∀ loop form op rest, s.monitor.pc ≠ .run loop form (op :: rest)) :
      Move env s (s.setMonitor monitor)
  | see {loop : Loop} {form : Form} (pc : s.monitor.pc = .await loop form)
      (flagged : s.box.flag form = true) :
      Move env s (((s.setMonitor (s.monitor.setUsed [])).setHistory (s.history.see form)).goto
        (if guarded form then .guard loop form
          else .run loop form (body loop form ++ closing loop form)))
  | enter {loop : Loop} {form : Form} (pc : s.monitor.pc = .guard loop form)
      (positive : 0 < (s.box.arg form .fd).toInt) :
      Move env s (s.goto (.run loop form (body loop form ++ closing loop form)))
  | drop {loop : Loop} {form : Form} (pc : s.monitor.pc = .guard loop form)
      (bad : ¬0 < (s.box.arg form .fd).toInt) :
      Move env s (s.goto (.run loop form (closing loop form)))
  | exec {loop : Loop} {form : Form} {op : Op} {rest : List Op}
      (pc : s.monitor.pc = .run loop form (op :: rest)) :
      Move env s (op.exec env loop form rest s)
  | listen (pc : s.monitor.pc = .acceptFlag) (flagged : s.box.flag .accept = true) :
      Move env s
        (((s.setMonitor (s.monitor.setUsed [])).setHistory (s.history.see .accept)).goto .acceptFd)
  | round (pc : s.monitor.pc = .acceptFd) :
      Move env s (s.goto (.run .accept .accept acceptRound))

theorem Loop.next_away (loop : Loop) : loop.next.away = true := by
  cases loop <;> rfl

/-- Every step of the monitor is one of its moves. -/
theorem move (env : Env) (s : State) : Move env s (monitorStep env s) := by
  unfold monitorStep
  cases pc : s.monitor.pc with
  | entry =>
    refine .wander ?_ (by simp [pc])
    split
    · rfl
    · split <;> rfl
  | poll loop =>
    dsimp only
    split
    · exact .wander rfl (by simp [pc])
    · refine .wander ?_ (by simp [pc])
      split
      · rfl
      · exact loop.next_away
  | switch loop =>
    refine .wander ?_ (by simp [pc])
    split
    · rfl
    · exact loop.next_away
  | await loop form =>
    dsimp only
    split
    case isTrue flagged => exact .see pc flagged
    · exact .stay
  | guard loop form =>
    dsimp only
    split
    case isTrue positive => exact .enter pc positive
    case isFalse bad => exact .drop pc bad
  | run loop form ops =>
    cases ops with
    | nil => exact .wander loop.next_away (by simp [pc])
    | cons op rest => exact .exec pc
  | recheck => exact .wander rfl (by simp [pc])
  | pick =>
    dsimp only [State.pick]
    split
    · exact .wander rfl (by simp [pc])
    · split
      · split
        · exact .wander rfl (by simp [pc])
        · exact .stay
      · split
        · exact .wander rfl (by simp [pc])
        · split
          · exact .wander rfl (by simp [pc])
          · exact .stay
  | acceptFlag =>
    dsimp only
    split
    case isTrue flagged => exact .listen pc flagged
    · exact .stay
  | acceptFd =>
    dsimp only
    split
    · exact .round pc
    · exact .wander rfl (by simp [pc])

/-- The hook does not touch the monitor. -/
theorem clientStep_monitor (invocation : Invocation) (s : State) :
    (clientStep invocation s).monitor = s.monitor := by
  obtain ⟨box, client, monitor, history⟩ := s
  cases client with
  | idle | claiming _ => rfl
  | seeking call =>
    simp only [clientStep]
    split <;> rfl
  | asking call puts =>
    cases puts with
    | nil =>
      simp only [clientStep]
      split <;> rfl
    | cons put rest => cases put <;> rfl
  | collecting call gets =>
    cases gets with
    | nil => rfl
    | cons get rest => cases get <;> rfl

/-! ## What a case leaves alone -/

section Frame

variable {env : Env} {loop : Loop} {form other : Form} {op : Op} {rest : List Op} {s : State}

theorem exec_client : (op.exec env loop form rest s).client = s.client := by
  cases op with
  | callOrLeave =>
    simp only [Op.exec]
    split <;> rfl
  | _ => rfl

/-- After an access the monitor goes on in its case, or picks the next event. -/
theorem exec_pc : (op.exec env loop form rest s).monitor.pc = .pick ∨
    ∃ ops, (op.exec env loop form rest s).monitor.pc = .run loop form ops := by
  cases op with
  | callOrLeave =>
    simp only [Op.exec]
    split
    · exact .inl rfl
    · exact .inr ⟨rest, rfl⟩
  | register =>
    cases done : env.registered with
    | true => exact .inr ⟨rest, by simp only [Op.exec, done]; rfl⟩
    | false => exact .inl (by simp only [Op.exec, done]; rfl)
  | _ => exact .inr ⟨_, rfl⟩

theorem exec_respFlag (differs : other ≠ form) :
    (op.exec env loop form rest s).box.respFlag other = s.box.respFlag other := by
  cases op with
  | callOrLeave =>
    simp only [Op.exec]
    split <;> rfl
  | post => exact update_of_ne differs _ _
  | _ => rfl

theorem exec_ret (differs : other ≠ form) :
    (op.exec env loop form rest s).box.ret other = s.box.ret other := by
  cases op with
  | callOrLeave =>
    simp only [Op.exec]
    split <;> rfl
  | ret => exact update_of_ne differs _ _
  | _ => rfl

theorem exec_returned : (op.exec env loop form rest s).history.returned = s.history.returned := by
  cases op with
  | callOrLeave =>
    simp only [Op.exec]
    split <;> rfl
  | _ => rfl

/-- Only the case of `accept` accepts. -/
theorem exec_accepted (differs : form ≠ .accept) :
    (op.exec env loop form rest s).history.accepted = s.history.accepted := by
  cases op with
  | callOrLeave =>
    simp only [Op.exec]
    split
    · rfl
    · exact if_neg differs
  | call => exact if_neg differs
  | _ => rfl

end Frame

end FStack.Preload
