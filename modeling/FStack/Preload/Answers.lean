import FStack.Preload.Protocol

/-!
# No stale answers

What a call returns should have been written for that call. Three things in the monitor
break this. The case of `socket` sets the flag of the response a second time after it has
freed the slot; if the client has read the response by then, its next `socket` returns the
old descriptor (`not_fresh_twoSocketsEarly`). The case of `connect` sets the flag before the
value. And the loop of a TCP listener posts connections that no `accept` has asked for.
-/

namespace FStack.Preload

open ClientPc List Steps

/-- The monitor has yet to post a response of a form or to write its value. -/
def State.writing (s : State) (form : Form) : Bool :=
  match s.monitor.pc with
  | .run _ form' ops => form' = form && (.post ∈ ops || .ret ∈ ops)
  | _ => false

/-- The client takes a response only when the monitor has written all of it. -/
def State.patient (s : State) : Bool :=
  match s.client with
  | .asking call [] => !(s.box.respFlag call.form && s.writing call.form)
  | _ => true

/-- Responses are taken when they are complete, the loop of a listener takes requests up only while
an `accept` waits, and what is stored in buffers fits. -/
def Patient (s : State) (input : Step) : Prop :=
  Invited s input ∧ (input.monitors = false → s.patient = true) ∧ s.fits input = true

instance (s : State) (input : Step) : Decidable (Patient s input) :=
  inferInstanceAs (Decidable (_ ∧ _))

/-- What the client reads next was written for its call. -/
def State.readsOwn (s : State) : Bool :=
  match s.client with
  | .collecting call (.ret :: _) => s.history.retFor call.form = call.num
  | .collecting call (.out field :: _) => s.history.outFor call.form field = call.num
  | _ => true

/-- Every call reads what was written for it, and no answer is returned twice. -/
def Fresh (s : State) (_ : Step) : Prop :=
  s.readsOwn = true ∧ s.history.taken.Nodup

instance (s : State) (input : Step) : Decidable (Fresh s input) :=
  inferInstanceAs (Decidable (_ ∧ _))

/-- The part of the history that says which answer is for which call. -/
def History.tags (history : History) :
    Call × Bool × Nat × (Form → Nat) × (Form → Field → Nat) × List Nat :=
  (history.last, history.answered, history.answering, history.retFor, history.outFor,
    history.taken)

/-- The client has the value of its response to read. -/
def ClientPc.reads : ClientPc → Bool
  | .asking _ _ => true
  | .collecting _ gets => .ret ∈ gets
  | _ => false

/-- All of the response to the last call is written, or will be. -/
structure Filling (s : State) (form : Form) (ops : List Op) : Prop where
  ret : .ret ∈ ops ∨ s.history.retFor form = s.history.last.num
  out : ∀ field, .out field ∈ response form →
    .out field ∈ ops ∨ s.history.outFor form field = s.history.last.num

/-- What holds when no answer is stale. -/
structure Current (s : State) : Prop extends Sound s where
  asking : s.history.answered = false → s.client.asks = true
  own : ∀ form, s.box.respFlag form = true →
    form = s.history.last.form ∧ s.history.answered = true ∧ s.client.unread = true
  writing : ∀ loop form ops, s.monitor.pc = .run loop form ops → .post ∈ ops ∨ .ret ∈ ops →
    form = s.history.last.form ∧ s.client.asks = true ∧
      s.history.answering = s.history.last.num
  filling : ∀ loop form ops, s.monitor.pc = .run loop form ops → postFirst ops = true →
    s.history.answered = false → Filling s form ops
  filled : s.history.answered = true → s.client.served?.isSome = true →
    (s.history.retFor s.history.last.form = s.history.last.num ∨
      ∃ loop form ops, s.monitor.pc = .run loop form ops ∧ .ret ∈ ops) ∧
    ∀ field, .out field ∈ response s.history.last.form →
      s.history.outFor s.history.last.form field = s.history.last.num
  distinct : s.history.taken.Nodup
  earlier : ∀ num ∈ s.history.taken, num ≤ s.history.last.num ∧
    (num = s.history.last.num → s.client.reads = false)

theorem Filling.begin {s : State} (loop : Loop) (form : Form) :
    Filling s form (body loop form ++ closing loop form) where
  ret := .inl (mem_append_left _ (ret_mem_body loop form))
  out _ read := .inl (mem_append_left _ (out_mem_body loop read))

/-- At the start no answer is there. -/
theorem current_initial : Current initial :=
  { sound_initial with
    asking := nofun
    own := nofun
    writing := nofun
    filling := nofun
    filled := nofun
    distinct := nodup_nil
    earlier := nofun }

theorem ClientPc.unread_of_asks {pc : ClientPc} (asks : pc.asks = true) : pc.unread = true := by
  cases pc <;> first | rfl | cases asks

/-! ## Steps of the client -/

namespace Current

variable {s s' : State}

/-- A step of the client that leaves the responses alone. -/
theorem keep (current : Current s) (sound : Sound s') (monitor : s'.monitor = s.monitor)
    (respFlag : s'.box.respFlag = s.box.respFlag) (tags : s'.history.tags = s.history.tags)
    (asks : s'.client.asks = s.client.asks) (unread : s'.client.unread = s.client.unread)
    (served : s'.client.served?.isSome = true → s.client.served?.isSome = true)
    (reads : s.client.reads = false → s'.client.reads = false) : Current s' := by
  simp only [History.tags, Prod.mk.injEq] at tags
  obtain ⟨last, answered, answering, retFor, outFor, taken⟩ := tags
  exact { sound with
    asking := by rw [answered, asks]; exact current.asking
    own := by rw [respFlag, last, answered, unread]; exact current.own
    writing := by rw [monitor, last, asks, answering]; exact current.writing
    filling := by
      rw [monitor, answered]
      intro loop form ops pc first unanswered
      have := current.filling loop form ops pc first unanswered
      exact ⟨by rw [retFor, last]; exact this.ret, by rw [outFor, last]; exact this.out⟩
    filled := by
      rw [answered, monitor, last, retFor, outFor]
      exact fun answered isServed => current.filled answered (served isServed)
    distinct := by rw [taken]; exact current.distinct
    earlier := by
      rw [taken, last]
      exact fun num member => (current.earlier num member).imp_right fun done same =>
        reads (done same) }

variable {box : Mailbox} {monitor : Monitor} {history : History} {call : Call}

/-- The monitor has nothing to write when a call takes the slot. -/
theorem claim (current : Current ⟨box, .claiming call, monitor, history⟩) :
    Current ⟨box.setFormFlag true, .asking call (request call.form), monitor,
      history.claim call⟩ := by
  have sound := current.toSound.client ⟨.socket, fun _ => .int 0, fun _ => .int 0⟩
  have before : history.last.num < call.num := current.later call rfl
  have quiet {loop form ops} (pc : monitor.pc = .run loop form ops)
      (writes : .post ∈ ops ∨ .ret ∈ ops) : False :=
    nomatch (current.writing loop form ops pc writes).2.1
  exact { sound, current with
    asking := fun _ => rfl
    own := fun form posted => nomatch (current.own form posted).2.2
    writing := fun loop form ops pc writes => (quiet pc writes).elim
    filling := fun loop form ops pc first _ => (quiet pc (.inl (mem_of_postFirst first))).elim
    filled := nofun
    earlier := fun num member => by
      have := (current.earlier num member).1
      exact ⟨Nat.le_of_lt (Nat.lt_of_le_of_lt this before),
        fun same => absurd (Nat.lt_of_le_of_lt this before) (same ▸ Nat.lt_irrefl _)⟩ }

/-- A response that is there is the one for the request. -/
theorem takeResponse (current : Current ⟨box, .asking call [], monitor, history⟩)
    (sound : Sound ⟨box, .collecting call (response call.form), monitor, history⟩)
    (posted : box.respFlag call.form = true)
    (patient : State.patient ⟨box, .asking call [], monitor, history⟩ = true) :
    Current ⟨box, .collecting call (response call.form), monitor, history⟩ := by
  have last : call = history.last := current.current call rfl
  have answered : history.answered = true := (current.own call.form posted).2.1
  have quiet {loop form ops} (pc : monitor.pc = .run loop form ops)
      (writes : .post ∈ ops ∨ .ret ∈ ops) : False := by
    have form_eq : form = call.form := last ▸ (current.writing loop form ops pc writes).1
    simp [State.patient, State.writing, posted, pc, form_eq] at patient
    exact writes.elim patient.1 patient.2
  exact { sound, current with
    asking := fun unanswered => nomatch unanswered.symm.trans answered
    own := fun form posted => by
      obtain ⟨form_eq, answered, _⟩ := current.own form posted
      refine ⟨form_eq, answered, decide_eq_true ?_⟩
      cases call.form <;> decide
    writing := fun loop form ops pc writes => (quiet pc writes).elim
    filling := fun loop form ops pc first _ => (quiet pc (.inl (mem_of_postFirst first))).elim
    filled := fun answered _ => current.filled answered rfl
    earlier := fun num member => (current.earlier num member).imp_right fun done same =>
      nomatch done same }

variable {rest : List Get}

/-- Clearing the response flag changes no answer. -/
theorem clearResponse (current : Current ⟨box, .collecting call (.clear :: rest), monitor, history⟩)
    (sound : Sound ⟨box.setRespFlag call.form false, .collecting call rest, monitor, history⟩) :
    Current ⟨box.setRespFlag call.form false, .collecting call rest, monitor, history⟩ := by
  have last : call = history.last := current.current call rfl
  exact { sound, current with
    own := fun form posted => by
      obtain ⟨differs, posted⟩ := of_update_false posted
      have same := (current.own form posted).1
      exact absurd (same.trans (congrArg (fun call => call.form) last.symm)) differs
    filling := fun loop form ops pc first unanswered =>
      have := current.filling loop form ops pc first unanswered
      ⟨this.ret, this.out⟩
    earlier := fun num member => (current.earlier num member).imp_right fun done same => by
      simpa [reads] using done same }

/-- A call that has taken its response finds it complete. -/
theorem complete {gets : List Get}
    (current : Current ⟨box, .collecting call gets, monitor, history⟩) :
    history.retFor call.form = call.num ∧
      ∀ field, .out field ∈ response call.form → history.outFor call.form field = call.num := by
  have last : call = history.last := current.current call rfl
  have answered : history.answered = true := by
    by_contra unanswered
    exact nomatch current.asking (Bool.eq_false_iff.mpr unanswered)
  obtain ⟨ret | ⟨loop, form, ops, pc, writes⟩, out⟩ := current.filled answered rfl
  · exact last ▸ ⟨ret, out⟩
  · exact nomatch (current.writing loop form ops pc (.inr writes)).2.1

/-- The value that the caller takes is that of its own request. -/
theorem ret (current : Current ⟨box, .collecting call (.ret :: rest), monitor, history⟩)
    (sound : Sound ⟨box, .collecting call rest, monitor,
      history.take call.form (box.ret call.form)⟩) :
    Current ⟨box, .collecting call rest, monitor,
      history.take call.form (box.ret call.form)⟩ := by
  have last : call = history.last := current.current call rfl
  have own : history.retFor call.form = call.num := current.complete.1
  have once : .ret ∉ rest :=
    (nodup_cons.mp ((current.gets call _ rfl).sublist.nodup (nodup_response call.form))).1
  have new : call.num ∉ history.taken := by
    intro member
    have := (current.earlier call.num member).2 (congrArg _ last)
    simp [reads] at this
  exact { sound, current with
    own := fun form posted => by
      obtain ⟨form_eq, answered, unread⟩ := current.own form posted
      exact ⟨form_eq, answered, by simpa [ClientPc.unread] using unread⟩
    filling := fun loop form ops pc first unanswered =>
      have := current.filling loop form ops pc first unanswered
      ⟨this.ret, this.out⟩
    distinct := by
      change (history.taken ++ [history.retFor call.form]).Nodup
      rw [own]
      refine nodup_append.mpr ⟨current.distinct, nodup_cons.mpr ⟨not_mem_nil, .nil⟩, ?_⟩
      rintro num member _ same rfl
      exact new (mem_singleton.mp same ▸ member)
    earlier := by
      intro num member
      refine ⟨?_, fun _ => by simp [reads, once]⟩
      rcases mem_append.mp member with member | member
      · exact (current.earlier num member).1
      · rw [mem_singleton.mp member, own, last]
        exact Nat.le_refl _ }

/-- Every access of the hook keeps the answers current. -/
theorem client (current : Current s) (invocation : Invocation) (patient : s.patient = true) :
    Current (clientStep invocation s) := by
  have sound := current.toSound.client invocation
  obtain ⟨box, client, monitor, history⟩ := s
  cases client with
  | idle => exact current.keep sound rfl rfl rfl rfl rfl (by rintro ⟨⟩) (fun _ => rfl)
  | seeking call =>
    simp only [clientStep] at sound ⊢
    split
    · exact current
    case isFalse free =>
      rw [if_neg free] at sound
      exact current.keep sound rfl rfl rfl rfl rfl (by rintro ⟨⟩) (fun _ => rfl)
  | claiming call => exact current.claim
  | asking call puts =>
    cases puts with
    | nil =>
      simp only [clientStep] at sound ⊢
      split
      case isTrue posted =>
        rw [if_pos posted] at sound
        exact current.takeResponse sound posted patient
      · exact current
    | cons put rest =>
      cases put <;> exact current.keep sound rfl rfl rfl rfl rfl id id
  | collecting call gets =>
    cases gets with
    | nil => exact current.keep sound rfl rfl rfl rfl rfl (by rintro ⟨⟩) (fun _ => rfl)
    | cons get rest =>
      cases get with
      | clear => exact current.clearResponse sound
      | out field =>
        refine current.keep sound rfl rfl rfl rfl ?_ id fun done => ?_
        · change decide (Get.clear ∈ rest) = decide (Get.clear ∈ Get.out field :: rest)
          simp
        · change decide (Get.ret ∈ rest) = false
          simpa [reads] using done
      | ret => exact current.ret sound

/-! ## Steps of the monitor -/

end Current

/-- Two lists of steps that write the same responses. -/
structure Silent (ops rest : List Op) : Prop where
  post : .post ∈ ops ↔ .post ∈ rest
  ret : .ret ∈ ops ↔ .ret ∈ rest
  out : ∀ field, .out field ∈ ops ↔ .out field ∈ rest
  postFirst : postFirst ops = postFirst rest

/-- A step that has nothing to do with responses. -/
def Op.silent : Op → Bool
  | .post | .free | .ret | .out _ => false
  | _ => true

theorem Silent.cons {op : Op} (silent : op.silent = true) (rest : List Op) :
    Silent (op :: rest) rest := by
  have apart : ∀ other : Op, other.silent = false → (other ∈ op :: rest ↔ other ∈ rest) := by
    intro other differs
    rw [mem_cons, or_iff_right]
    rintro rfl
    exact absurd silent (by simp [differs])
  refine ⟨apart _ rfl, apart _ rfl, fun _ => apart _ rfl, ?_⟩
  cases op <;> first | rfl | cases silent

theorem Silent.append (first rest : List Op) (silent : ∀ op ∈ first, op.silent = true) :
    Silent (first ++ rest) rest := by
  induction first with
  | nil => exact ⟨.rfl, .rfl, fun _ => .rfl, rfl⟩
  | cons op first ih =>
    have here := cons (silent op mem_cons_self) (first ++ rest)
    have later := ih fun op member => silent op (mem_cons_of_mem _ member)
    exact ⟨here.post.trans later.post, here.ret.trans later.ret,
      fun field => (here.out field).trans (later.out field),
      here.postFirst.trans later.postFirst⟩

theorem Silent.symm {ops rest : List Op} (silent : Silent ops rest) : Silent rest ops :=
  ⟨silent.post.symm, silent.ret.symm, fun field => (silent.out field).symm,
    silent.postFirst.symm⟩

theorem silent_parameters (form : Form) : ∀ op ∈ parameters form, op.silent = true := by
  cases form <;> decide

namespace Current

variable {s s' : State} {loop : Loop} {form : Form} {op : Op} {ops ops' rest : List Op}
  (current : Current s)

include current

section

variable (sound : Sound s') (client : s'.client = s.client)
  (respFlag : s'.box.respFlag = s.box.respFlag) (last : s'.history.last = s.history.last)
  (answered : s'.history.answered = s.history.answered)
  (taken : s'.history.taken = s.history.taken)

include sound client respFlag last answered taken

/-- The monitor is not in a case and has nothing left to write. -/
theorem leave (away : ∀ loop form ops, s'.monitor.pc ≠ .run loop form ops)
    (done : ∀ loop form ops, s.monitor.pc = .run loop form ops → .ret ∈ ops →
      s.history.answered = false) (retFor : s'.history.retFor = s.history.retFor)
    (outFor : s'.history.outFor = s.history.outFor) : Current s' :=
  { sound with
    asking := by rw [answered, client]; exact current.asking
    own := by rw [respFlag, last, answered, client]; exact current.own
    writing := fun loop form ops pc => absurd pc (away loop form ops)
    filling := fun loop form ops pc => absurd pc (away loop form ops)
    filled := by
      rw [answered, client, last, retFor, outFor]
      intro answered served
      refine (current.filled answered served).imp_left fun written => ?_
      refine .inl (written.resolve_right ?_)
      rintro ⟨loop, form, ops, pc, writes⟩
      exact nomatch answered.symm.trans (done loop form ops pc writes)
    distinct := by rw [taken]; exact current.distinct
    earlier := by rw [taken, last, client]; exact current.earlier }

/-- A case begins, or what it does for a bad descriptor. -/
theorem start (pc : s'.monitor.pc = .run loop form ops)
    (unanswered : s.history.answered = false) (form_eq : form = s.history.last.form)
    (answering : s'.history.answering = s.history.last.num)
    (whole : postFirst ops = true → Filling s' form ops) : Current s' :=
  { sound with
    asking := by rw [answered, client]; exact current.asking
    own := by rw [respFlag, last, answered, client]; exact current.own
    writing := by
      rw [last, client]
      intro _ _ _ running _
      cases running.symm.trans pc
      exact ⟨form_eq, current.asking unanswered, answering⟩
    filling := by
      intro _ _ _ running first _
      cases running.symm.trans pc
      exact whole first
    filled := fun answered' => nomatch unanswered.symm.trans (answered.symm.trans answered')
    distinct := by rw [taken]; exact current.distinct
    earlier := by rw [taken, last, client]; exact current.earlier }

end

/-- The monitor goes on with a case and writes nothing. -/
theorem advance (sound : Sound s') (pc : s.monitor.pc = .run loop form ops)
    (pc' : s'.monitor.pc = .run loop form ops') (silent : Silent ops ops')
    (client : s'.client = s.client) (respFlag : s'.box.respFlag = s.box.respFlag)
    (tags : s'.history.tags = s.history.tags) : Current s' := by
  simp only [History.tags, Prod.mk.injEq] at tags
  obtain ⟨last, answered, answering, retFor, outFor, taken⟩ := tags
  exact { sound with
    asking := by rw [answered, client]; exact current.asking
    own := by rw [respFlag, last, answered, client]; exact current.own
    writing := by
      rw [last, client, answering]
      intro _ _ _ running writes
      cases running.symm.trans pc'
      exact current.writing loop form ops pc (writes.imp silent.post.mpr silent.ret.mpr)
    filling := by
      rw [answered]
      intro _ _ _ running first unanswered
      cases running.symm.trans pc'
      have := current.filling loop form ops pc (silent.postFirst.trans first) unanswered
      refine ⟨?_, fun field read => ?_⟩
      · rw [retFor, last]
        exact this.ret.imp_left silent.ret.mp
      · rw [outFor, last]
        exact (this.out field read).imp_left (silent.out field).mp
    filled := by
      rw [answered, client, last, retFor, outFor]
      intro answered served
      refine (current.filled answered served).imp_left fun written => ?_
      refine written.imp_right ?_
      rintro ⟨_, _, _, running, writes⟩
      cases running.symm.trans pc
      exact ⟨loop, form, ops', pc', silent.ret.mp writes⟩
    distinct := by rw [taken]; exact current.distinct
    earlier := by rw [taken, last, client]; exact current.earlier }

section

variable (env : Env)

/-- The monitor writes the value of the present request. -/
theorem writeRet (sound : Sound (Op.ret.exec env loop form rest s))
    (pc : s.monitor.pc = .run loop form (.ret :: rest)) :
    Current (Op.ret.exec env loop form rest s) := by
  obtain ⟨form_eq, asks, answering⟩ :=
    current.writing loop form _ pc (.inr mem_cons_self)
  have written : Function.update s.history.retFor form s.history.answering s.history.last.form =
      s.history.last.num := by
    rw [form_eq, Function.update_self, answering]
  exact { sound, current with
    writing := by
      rintro _ _ _ ⟨⟩ _
      exact ⟨form_eq, asks, answering⟩
    filling := by
      rintro _ _ _ ⟨⟩ first unanswered
      refine ⟨.inr (form_eq ▸ written), fun field read => ?_⟩
      have := (current.filling loop form _ pc first unanswered).out field read
      exact this.imp_left fun member => by simpa using member
    filled := fun answered served => ⟨.inl written, (current.filled answered served).2⟩ }

/-- The monitor writes the outputs of the present request. -/
theorem writeOut {field : Field} (sound : Sound ((Op.out field).exec env loop form rest s))
    (pc : s.monitor.pc = .run loop form (.out field :: rest)) :
    Current ((Op.out field).exec env loop form rest s) := by
  obtain ⟨form_eq, asks, answering⟩ := current.writing loop form _ pc
    (.inl (mem_cons_of_mem _ (current.running pc).ordered.1.2))
  have written (other : Field) : (s.history.wroteOut form field).outFor form other =
      if other = field then s.history.last.num else s.history.outFor form other := by
    simp only [History.wroteOut, Function.update_self, Function.update_apply, answering]
  exact { sound, current with
    writing := by
      rintro _ _ _ ⟨⟩ _
      exact ⟨form_eq, asks, answering⟩
    filling := by
      rintro _ _ _ ⟨⟩ first unanswered
      have := current.filling loop form _ pc first unanswered
      refine ⟨this.ret.imp_left fun member => by simpa using member, fun other read => ?_⟩
      change _ ∨ (s.history.wroteOut form field).outFor form other = s.history.last.num
      rw [written]
      split
      · exact .inr rfl
      case isFalse differs =>
        exact (this.out other read).imp_left fun member => by simpa [differs] using member
    filled := by
      intro answered served
      have := current.filled answered served
      refine ⟨this.1.imp_right ?_, fun other read => ?_⟩
      · rintro ⟨_, _, _, running, writes⟩
        cases running.symm.trans pc
        exact ⟨loop, form, rest, rfl, by simpa using writes⟩
      · change (s.history.wroteOut form field).outFor s.history.last.form other = _
        rw [← form_eq, written]
        split
        · rfl
        · rw [form_eq]
          exact this.2 other read }

/-- A response is posted when it is written in full. -/
theorem post (sound : Sound (Op.post.exec env loop form rest s))
    (pc : s.monitor.pc = .run loop form (.post :: rest)) :
    Current (Op.post.exec env loop form rest s) := by
  have whole : Preload.filled rest = true := (current.running pc).ordered.1.2.1
  obtain ⟨form_eq, asks, answering⟩ :=
    current.writing loop form _ pc (.inl mem_cons_self)
  have answered : s.history.post.answered = true := History.post_answered answering
  exact { sound, current with
    asking := fun unanswered => nomatch unanswered.symm.trans answered
    own := by
      intro other posted
      rcases of_update_true posted with same | ⟨_, posted⟩
      · exact ⟨same.trans form_eq, answered, unread_of_asks asks⟩
      · obtain ⟨same, _, unread⟩ := current.own other posted
        exact ⟨same, answered, unread⟩
    writing := by
      rintro _ _ _ ⟨⟩ _
      exact ⟨form_eq, asks, answering⟩
    filling := fun _ _ _ _ _ unanswered => nomatch unanswered.symm.trans answered
    filled := by
      intro _ served
      have next (writes : Op.ret ∈ Op.post :: rest) : ∃ loop' form' ops,
          (Op.post.exec env loop form rest s).monitor.pc = .run loop' form' ops ∧ .ret ∈ ops :=
        ⟨loop, form, rest, rfl, by simpa using writes⟩
      cases already : s.history.answered with
      | false =>
        have filling := current.filling loop form _ pc rfl already
        rw [form_eq] at filling
        refine ⟨filling.ret.symm.imp_right next, fun field read => ?_⟩
        refine (filling.out field read).resolve_left fun member => ?_
        cases all_eq_true.mp whole (.out field) (by simpa using member)
      | true =>
        refine (current.filled already served).imp_left (Or.imp_right ?_)
        rintro ⟨_, _, _, running, writes⟩
        cases running.symm.trans pc
        exact next writes }

/-- The slot is freed when the response is posted. -/
theorem free (sound : Sound (Op.free.exec env loop form rest s))
    (pc : s.monitor.pc = .run loop form (.free :: rest)) :
    Current (Op.free.exec env loop form rest s) := by
  have running := current.running pc
  obtain ⟨done, _, socket⟩ := running.ordered.1
  have serving := running.serving mem_cons_self (by simpa using callOrLeave_not_mem done)
  exact { sound, current with
    writing := by
      rintro _ _ _ ⟨⟩ writes
      exact current.writing loop form _ pc
        (writes.imp (mem_cons_of_mem _) (mem_cons_of_mem _))
    filling := by
      -- only `socket` posts again, and it is never dropped
      rintro _ _ _ ⟨⟩ first unanswered
      have checked := (serving.post unanswered).resolve_left nofun
      rw [socket (mem_of_postFirst first)] at checked
      cases checked
    filled := by
      intro answered served
      refine (current.filled answered served).imp_left (Or.imp_right ?_)
      rintro ⟨_, _, _, running, writes⟩
      cases running.symm.trans pc
      exact ⟨loop, form, rest, rfl, by simpa using writes⟩ }

/-- Every access of the monitor keeps the answers current. -/
theorem exec (sound : Sound (op.exec env loop form rest s))
    (pc : s.monitor.pc = .run loop form (op :: rest)) : Current (op.exec env loop form rest s) := by
  have ordered := (current.running pc).ordered
  cases op with
  | ret => exact current.writeRet env sound pc
  | out field => exact current.writeOut env sound pc
  | post => exact current.post env sound pc
  | free => exact current.free env sound pc
  | callUntil =>
    refine current.advance sound pc rfl ?_ rfl rfl rfl
    split
    · exact (Silent.append _ _ (silent_parameters form)).symm
    · exact .cons rfl rest
  | callOrLeave =>
    simp only [Op.exec] at sound ⊢
    split
    case isTrue refused =>
      rw [if_pos refused] at sound
      have accepts := current.accepting (by simp [pc, MonitorPc.accepting])
      exact current.leave sound rfl rfl rfl rfl rfl (by rintro _ _ _ ⟨⟩)
        (fun _ _ _ _ _ => (current.of_acceptWaits accepts.1).2.1) rfl rfl
    case isFalse granted =>
      rw [if_neg granted] at sound
      exact current.advance sound pc rfl (.cons rfl rest) rfl rfl rfl
  | register =>
    cases done : env.registered with
    | true =>
      exact current.advance sound pc (by simp only [Op.exec, done]; rfl)
        (.cons rfl rest) rfl rfl rfl
    | false =>
      refine current.leave sound rfl rfl rfl rfl rfl ?_ ?_ rfl rfl
      · simp only [Op.exec, done]
        rintro _ _ _ ⟨⟩
      · intro _ _ _ running writes
        cases running.symm.trans pc
        exact absurd (by simpa using writes) ordered.1.2.2.1
  | _ => exact current.advance sound pc rfl (.cons rfl rest) rfl rfl rfl

/-- Every step of the monitor keeps the answers current. -/
theorem monitorStep (invited : Invited s (.monitor env)) : Current (monitorStep env s) := by
  have sound := current.toSound.monitorStep env invited
  have holds := current.monitor
  have moved := move env s
  generalize Preload.monitorStep env s = s' at moved sound ⊢
  cases moved with
  | stay => exact current
  | wander away done =>
    refine current.leave sound rfl rfl rfl rfl rfl (MonitorPc.ne_run_of_away away) ?_ rfl rfl
    intro loop form ops pc writes
    cases ops with
    | nil => cases writes
    | cons op rest => exact absurd pc (done loop form op rest)
  | @see loop form pc =>
    rw [pc] at holds
    obtain ⟨⟨_, unanswered⟩, _⟩ := holds
    cases checked : guarded form with
    | true =>
      simp only [checked] at sound ⊢
      exact current.leave sound rfl rfl rfl rfl rfl nofun
        (fun _ _ _ running => nomatch running.symm.trans pc) rfl rfl
    | false =>
      simp only [checked] at sound ⊢
      have serving := (sound.running rfl).serving (mem_append_right _ (free_mem_closing loop form))
        (callOrLeave_not_mem_case loop form)
      exact current.start sound rfl rfl rfl rfl rfl rfl unanswered serving.form_eq serving.answering
        (fun _ => .begin loop form)
  | @enter loop form pc =>
    obtain ⟨taken, unanswered⟩ := current.taken pc
    exact current.start sound rfl rfl rfl rfl rfl rfl unanswered taken.form_eq taken.answering
      (fun _ => .begin loop form)
  | @drop loop form pc bad =>
    obtain ⟨taken, unanswered⟩ := current.taken pc
    exact current.start sound rfl rfl rfl rfl rfl rfl unanswered taken.form_eq taken.answering
      (fun first => nomatch (postFirst_closing loop form).symm.trans first)
  | exec pc => exact current.exec env sound pc
  | listen pc =>
    exact current.leave sound rfl rfl rfl rfl rfl nofun
      (fun _ _ _ running => nomatch running.symm.trans pc) rfl rfl
  | round pc =>
    obtain ⟨waits, answering⟩ := current.accepting (pc ▸ rfl)
    obtain ⟨form_eq, unanswered, _⟩ := current.of_acceptWaits waits
    exact current.start sound rfl rfl rfl rfl rfl rfl unanswered form_eq.symm answering
      (fun _ => ⟨.inl (by decide), nofun⟩)

end

theorem step {input : Step} (patient : Patient s input) : Current (step s input) := by
  cases input with
  | client invocation => exact current.client invocation (patient.2.1 rfl)
  | monitor env => exact current.monitorStep env patient.1

/-- Every call reads what was written for it, and no answer twice. -/
theorem fresh (input : Step) : Fresh s input := by
  refine ⟨?_, current.distinct⟩
  obtain ⟨box, client, monitor, history⟩ := s
  unfold State.readsOwn
  split
  case h_1 call rest client =>
    cases client
    exact decide_eq_true current.complete.1
  case h_2 call field rest client =>
    cases client
    have read : .out field ∈ response call.form :=
      (current.gets call _ rfl).sublist.subset mem_cons_self
    exact decide_eq_true (current.complete.2 field read)
  · rfl

end Current

/-- When responses are taken only when they are complete, the loop of a listener takes requests up
only while an `accept` waits and buffers are not overrun, no answer is stale. -/
theorem fresh_of_patient {inputs : List Step} (patient : Along step Patient initial inputs) :
    Along step Fresh initial inputs :=
  patient.imp Current
    (fun _ input current patient => ⟨current.fresh input, current.step patient⟩)
    current_initial

/-- A client opens two sockets. The monitor has finished with the first one before its
descriptor is read. -/
def twoSockets : List Step :=
  clientRun .socket 3 8 ++ monitorRun 3 none 20 ++ clientRun .socket 3 4 ++
    clientRun .socket 3 8 ++ monitorRun 4 none 20 ++ clientRun .socket 3 4

theorem fresh_twoSockets : Along step Fresh initial twoSockets :=
  fresh_of_patient (by decide +kernel)

/-- The descriptor is read before the flag of the response is set again. -/
def twoSocketsEarly : List Step :=
  clientRun .socket 3 8 ++ monitorRun 3 none 11 ++ clientRun .socket 3 4 ++
    monitorRun 3 none 5 ++ clientRun .socket 3 11

theorem not_fresh_twoSocketsEarly : ¬Along step Fresh initial twoSocketsEarly := by
  decide +kernel

end FStack.Preload
