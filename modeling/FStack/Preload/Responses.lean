import FStack.Preload.Protocol

/-!
# Every request gets a response

When the monitor frees the slot it should have posted one response and cleared the flag of
the request; otherwise the client polls for ever. For six forms this is done only if the
descriptor is positive, but the slot is freed in any case: a `listen` on descriptor 0 is
never answered (`not_responded_badDescriptor`). And the loop of a TCP listener frees the
slot with the flag of the request still set.
-/

namespace FStack.Preload

open Steps

/-- A descriptor that is looked at is positive, and the loop of a listener finds no
connection. -/
def State.answerable (s : State) (env : Env) : Bool :=
  match s.monitor.pc with
  | .guard _ form => 0 < (s.box.arg form .fd).toInt
  | .run _ _ (.callOrLeave :: _) => env.result < 0
  | _ => true

/-- That goes for the steps of the monitor, and what is stored in buffers fits. -/
def Answerable (s : State) (input : Step) : Prop :=
  (∀ env ∈ input.env?, s.answerable env = true) ∧ s.fits input = true

instance (s : State) (input : Step) : Decidable (Answerable s input) :=
  inferInstanceAs (Decidable (_ ∧ _))

/-- If the monitor frees the slot next, there is one response and the flag of the request
is cleared. -/
def State.readyToFree (s : State) : Bool :=
  match s.monitor.pc with
  | .run _ form (.free :: _) => s.history.posts = 1 && !s.box.flag form
  | _ => true

/-- The client waits for a response, the slot is free and there is no response. -/
def State.stranded (s : State) : Bool :=
  match s.client with
  | .asking call [] => !s.box.formFlag && !s.box.respFlag call.form
  | _ => false

/-- The slot is freed only after a response, and the client is not left alone. -/
def Responded (s : State) (_ : Step) : Prop :=
  s.readyToFree = true ∧ s.stranded = false

instance (s : State) (input : Step) : Decidable (Responded s input) :=
  inferInstanceAs (Decidable (_ ∧ _))

/-- A request is served up to its response. -/
structure Responding (s : State) (form : Form) (ops : List Op) : Prop where
  before : s.history.answered = false → postFirst ops = true ∧ s.history.posts = 0
  after : s.history.answered = true → s.history.posts = 1
  cleared : .clear ∉ ops → s.box.flag form = false

/-- The request in the mailbox, and whether it has been answered. -/
def State.request (s : State) : (Form → Bool) × Bool × Call × Bool :=
  (s.box.flag, s.box.formFlag, s.history.last, s.history.answered)

/-- What holds when every request gets a response. -/
structure Responsive (s : State) : Prop extends Core s where
  pending : ∀ form, s.box.flag form = true →
    form = s.history.last.form ∧ s.history.answered = false
  slot : s.history.answered = false → s.box.formFlag = true
  fresh : ∀ loop form, s.monitor.pc = .guard loop form → s.history.posts = 0
  serving : ∀ loop form ops, s.monitor.pc = .run loop form ops → .free ∈ ops →
    .callOrLeave ∉ ops → Responding s form ops

theorem Responding.begin {s : State} {loop : Loop} {form : Form}
    (unanswered : s.history.answered = false) (fresh : s.history.posts = 0) :
    Responding s form (body loop form ++ closing loop form) where
  before _ := ⟨postFirst_case loop form, fresh⟩
  after answered := nomatch unanswered.symm.trans answered
  cleared unclear := absurd (List.mem_append_left _ (clear_mem_body loop form)) unclear

theorem Responding.congr {s s' : State} {form : Form} {ops : List Op}
    (responding : Responding s form ops) (same : s'.request = s.request)
    (posts : s'.history.posts = s.history.posts) : Responding s' form ops := by
  simp only [State.request, Prod.mk.injEq] at same
  obtain ⟨flag, _, _, answered⟩ := same
  obtain ⟨before, after, cleared⟩ := responding
  rw [← answered, ← posts] at before after
  rw [← flag] at cleared
  exact ⟨before, after, cleared⟩

theorem responsive_initial : Responsive initial :=
  { core_initial with
    pending := nofun
    slot := nofun
    fresh := nofun
    serving := nofun }

namespace Responsive

variable {s s' : State} {loop : Loop} {form : Form} {op : Op} {ops ops' rest : List Op}

section

variable (responsive : Responsive s) (core : Core s') (same : s'.request = s.request)

include responsive core same

/-- The monitor goes where the request is not answered yet. -/
theorem goto
    (fresh : ∀ loop form, s'.monitor.pc = .guard loop form → s'.history.posts = 0)
    (serving : ∀ loop form ops, s'.monitor.pc = .run loop form ops → .free ∈ ops →
      .callOrLeave ∉ ops → Responding s' form ops) : Responsive s' := by
  simp only [State.request, Prod.mk.injEq] at same
  obtain ⟨flag, formFlag, last, answered⟩ := same
  exact { core with
    pending := by rw [flag, last, answered]; exact responsive.pending
    slot := by rw [answered, formFlag]; exact responsive.slot
    fresh := fresh
    serving := serving }

/-- A step of the client that leaves the flags of the requests alone. -/
theorem keep (monitor : s'.monitor = s.monitor) (posts : s'.history.posts = s.history.posts) :
    Responsive s' := by
  refine responsive.goto core same ?_ ?_
  · rw [monitor, posts]
    exact responsive.fresh
  · rw [monitor]
    intro loop form ops pc frees stays
    exact (responsive.serving loop form ops pc frees stays).congr same posts

theorem leave (away : s'.monitor.pc.away = true) : Responsive s' := by
  refine responsive.goto core same ?_ ?_
  · intro loop form pc
    rw [pc] at away
    cases away
  · intro loop form ops pc
    rw [pc] at away
    cases away

/-- The monitor goes on with a case and leaves the flags alone. -/
theorem advance (pc : s.monitor.pc = .run loop form ops)
    (pc' : s'.monitor.pc = .run loop form ops') (alike : Alike ops ops')
    (posts : s'.history.posts = s.history.posts) :
    Responsive s' := by
  refine responsive.goto core same ?_ ?_
  · intro _ _ guarding
    cases guarding.symm.trans pc'
  · intro _ _ _ running frees stays
    cases running.symm.trans pc'
    obtain ⟨before, after, cleared⟩ := (responsive.serving loop form ops pc
      (alike.free.mpr frees) (mt alike.leave.mp stays)).congr same posts
    rw [alike.postFirst] at before
    exact ⟨before, after, fun unclear => cleared (mt alike.clear.mp unclear)⟩

end

variable {box : Mailbox} {history : History} {monitor : Monitor}

/-- The monitor is not serving when a call takes the slot. -/
theorem claim {call : Call} (responsive : Responsive ⟨box, .claiming call, monitor, history⟩) :
    Responsive ⟨box.setFormFlag true, .asking call (request call.form), monitor,
      history.claim call⟩ := by
  have free : box.formFlag = false := responsive.claiming call rfl
  exact { responsive.toCore.claim with
    pending := fun form flagged =>
      nomatch free.symm.trans (responsive.slot (responsive.pending form flagged).2)
    slot := fun _ => rfl
    fresh := responsive.fresh
    serving := by
      intro loop form ops pc frees stays
      exact nomatch free.symm.trans ((responsive.running pc).serving frees stays).slot }

/-- A request whose flag is set is not answered yet. -/
theorem putFlag {call : Call} {rest : List Put}
    (responsive : Responsive ⟨box, .asking call (.flag :: rest), monitor, history⟩) :
    Responsive ⟨box.setFlag call.form true, .asking call rest, monitor,
      history.ask call.form call.num⟩ := by
  have unflagged : (ClientPc.asking call (.flag :: rest)).unflagged = true := by
    simp [ClientPc.unflagged]
  have last : call = history.last := responsive.current call rfl
  exact { responsive.toCore.putFlag with
    pending := by
      intro form flagged
      rcases of_update_true flagged with same | ⟨_, flagged⟩
      · exact ⟨last ▸ same, responsive.early unflagged⟩
      · exact responsive.pending form flagged
    slot := responsive.slot
    fresh := responsive.fresh
    serving := by
      intro loop form ops pc frees stays
      cases unflagged.symm.trans ((responsive.running pc).serving frees stays).flagged }

/-- The hook never loses a response. -/
theorem client (responsive : Responsive s) (invocation : Invocation) :
    Responsive (clientStep invocation s) := by
  have core := responsive.toCore.client invocation
  obtain ⟨box, client, monitor, history⟩ := s
  cases client with
  | idle => exact responsive.keep core rfl rfl rfl
  | seeking call =>
    simp only [clientStep] at core ⊢
    split <;> exact responsive.keep (by simpa [*] using core) rfl rfl rfl
  | claiming call => exact responsive.claim
  | asking call puts =>
    cases puts with
    | nil =>
      simp only [clientStep] at core ⊢
      split <;> exact responsive.keep (by simpa [*] using core) rfl rfl rfl
    | cons put rest =>
      cases put with
      | flag => exact responsive.putFlag
      | _ => exact responsive.keep core rfl rfl rfl
  | collecting call gets =>
    cases gets with
    | nil => exact responsive.keep core rfl rfl rfl
    | cons get rest =>
      cases get <;> exact responsive.keep core rfl rfl rfl

variable (responsive : Responsive s)

include responsive

section

variable (env : Env)

/-- Clearing the flag of a request answers nothing. -/
theorem clear (core : Core (Op.clear.exec env loop form rest s))
    (pc : s.monitor.pc = .run loop form (.clear :: rest)) :
    Responsive (Op.clear.exec env loop form rest s) where
  toCore := core
  pending other flagged := responsive.pending other (of_update_false flagged).2
  slot := responsive.slot
  fresh := nofun
  serving := by
    rintro _ _ _ ⟨⟩ frees stays
    obtain ⟨before, after, _⟩ := responsive.serving loop form _ pc
      (List.mem_cons_of_mem _ frees) (by simpa using stays)
    refine ⟨before, after, fun _ => ?_⟩
    change Function.update s.box.flag form false form = false
    rw [Function.update_self]

/-- The response is posted in the case of its request. -/
theorem post (core : Core (Op.post.exec env loop form rest s))
    (pc : s.monitor.pc = .run loop form (.post :: rest)) :
    Responsive (Op.post.exec env loop form rest s) := by
  have running := responsive.running pc
  obtain ⟨done, _, _, _, follows⟩ := running.ordered.1
  have stays : .callOrLeave ∉ Op.post :: rest := by simpa using callOrLeave_not_mem done
  by_cases frees : .free ∈ rest
  · have serving := running.serving (List.mem_cons_of_mem _ frees) stays
    have unanswered : s.history.answered = false := serving.unanswered rfl
    have answered : s.history.post.answered = true := History.post_answered serving.answering
    obtain ⟨before, _, cleared⟩ :=
      responsive.serving loop form _ pc (List.mem_cons_of_mem _ frees) stays
    have cleared := cleared (by simpa using (follows frees).1)
    exact {
      toCore := core
      pending := fun other flagged => by
        obtain rfl : other = form :=
          (responsive.pending other flagged).1.trans serving.form_eq.symm
        exact nomatch cleared.symm.trans flagged
      slot := fun unanswered => nomatch unanswered.symm.trans answered
      fresh := nofun
      serving := by
        rintro _ _ _ ⟨⟩ _ _
        exact ⟨fun unanswered => (nomatch unanswered.symm.trans answered),
          fun _ => congrArg (· + 1) (before unanswered).2, fun _ => cleared⟩ }
  · have again := running.again (by simpa using frees) List.mem_cons_self
    have answered : s.history.post.answered = s.history.answered := History.post_again again.2
    exact {
      toCore := core
      pending := fun other flagged =>
        (responsive.pending other flagged).imp_right answered.trans
      slot := fun unanswered => responsive.slot (answered.symm.trans unanswered)
      fresh := nofun
      serving := by
        rintro _ _ _ ⟨⟩ frees'
        exact absurd frees' frees }

/-- The slot is freed after a response. -/
theorem free (core : Core (Op.free.exec env loop form rest s))
    (pc : s.monitor.pc = .run loop form (.free :: rest)) :
    Responsive (Op.free.exec env loop form rest s) := by
  obtain ⟨done, freed, _⟩ := (responsive.running pc).ordered.1
  have stays : .callOrLeave ∉ Op.free :: rest := by simpa using callOrLeave_not_mem done
  obtain ⟨before, _, _⟩ := responsive.serving loop form _ pc List.mem_cons_self stays
  exact {
    toCore := core
    pending := responsive.pending
    slot := fun unanswered => nomatch (before unanswered).1
    fresh := nofun
    serving := by
      rintro _ _ _ ⟨⟩ frees
      exact absurd frees freed }

/-- Every access of the monitor leads on to the response. -/
theorem exec (core : Core (op.exec env loop form rest s))
    (pc : s.monitor.pc = .run loop form (op :: rest)) (refused : op = .callOrLeave → env.result < 0) :
    Responsive (op.exec env loop form rest s) := by
  cases op with
  | clear => exact responsive.clear env core pc
  | post => exact responsive.post env core pc
  | free => exact responsive.free env core pc
  | callUntil =>
    refine responsive.advance core rfl pc rfl ?_ rfl
    split
    · exact (Alike.append _ _ (neutral_parameters form)).symm
    · exact .cons rfl rest
  | callOrLeave =>
    simp only [Op.exec, refused rfl] at core ⊢
    exact responsive.leave core rfl rfl
  | register =>
    cases done : env.registered with
    | true =>
      exact responsive.advance core rfl pc (by simp only [Op.exec, done]; rfl)
        (.cons rfl rest) rfl
    | false =>
      refine responsive.leave core rfl ?_
      simp only [Op.exec, done]
      rfl
  | _ => exact responsive.advance core rfl pc rfl (.cons rfl rest) rfl

/-- Every answerable step of the monitor leads on to the response. -/
theorem monitorStep (answerable : s.answerable env = true) : Responsive (monitorStep env s) := by
  have refused {loop form rest} (pc : s.monitor.pc = .run loop form (.callOrLeave :: rest)) :
      env.result < 0 := by
    simpa [State.answerable, pc] using answerable
  have core := responsive.toCore.monitorStep env fun loop form rest pc positive =>
    absurd positive (Int.not_le.mpr (refused pc))
  have moved := move env s
  generalize Preload.monitorStep env s = s' at moved core ⊢
  cases moved with
  | stay => exact responsive
  | wander away => exact responsive.leave core rfl away
  | @see loop form pc =>
    have holds := responsive.monitor
    rw [pc] at holds
    obtain ⟨⟨_, unanswered⟩, _⟩ := holds
    refine responsive.goto core rfl (fun _ _ _ => rfl) ?_
    intro _ _ ops pc' frees stays
    split at pc'
    · cases pc'
    · cases pc'
      exact .begin unanswered rfl
  | @enter loop form pc =>
    obtain ⟨_, unanswered⟩ := responsive.taken pc
    refine responsive.goto core rfl nofun ?_
    rintro _ _ _ ⟨⟩ _ _
    exact .begin unanswered (responsive.fresh loop form pc)
  | @drop loop form pc bad => exact absurd (by simpa [State.answerable, pc] using answerable) bad
  | exec pc => exact responsive.exec env core pc fun same => refused (same ▸ pc)
  | listen pc => exact responsive.goto core rfl nofun nofun
  | round pc =>
    refine responsive.goto core rfl nofun ?_
    rintro _ _ _ ⟨⟩ _ stays
    exact absurd (by decide) stays

end

theorem step {input : Step} (answerable : Answerable s input) : Responsive (step s input) := by
  cases input with
  | client invocation => exact responsive.client invocation
  | monitor env => exact responsive.monitorStep env (answerable.1 env rfl)

/-- The slot is freed only after a response, and no client is left alone. -/
theorem responded (input : Step) : Responded s input := by
  constructor
  · unfold State.readyToFree
    split
    case h_1 loop form rest pc =>
      have stays : .callOrLeave ∉ Op.free :: rest := by
        simpa using callOrLeave_not_mem (responsive.running pc).ordered.1.1
      obtain ⟨before, after, _⟩ := responsive.serving loop form _ pc List.mem_cons_self stays
      have answered : s.history.answered = true := by
        by_contra unanswered
        exact nomatch (before (Bool.eq_false_iff.mpr unanswered)).1
      have cleared : s.box.flag form = false := by
        by_contra flagged
        have := responsive.pending form (Bool.not_eq_false _ ▸ flagged)
        exact nomatch answered.symm.trans this.2
      simp [after answered, cleared]
    · rfl
  · unfold State.stranded
    split
    case h_1 call client =>
      cases slot : s.box.formFlag with
      | true => rfl
      | false =>
        have answered : s.history.answered = true := by
          by_contra unanswered
          exact nomatch slot.symm.trans (responsive.slot (Bool.eq_false_iff.mpr unanswered))
        have last := responsive.current call (congrArg ClientPc.served? client)
        have posted := responsive.delivered (congrArg ClientPc.asks client) answered
        rw [last, posted]
        rfl
    · rfl

end Responsive

/-- When every descriptor that is looked at is positive, the loop of a listener finds no connection
and buffers are not overrun, every request gets a response before the slot is freed. -/
theorem responded_of_answerable {inputs : List Step}
    (answerable : Along step Answerable initial inputs) :
    Along step Responded initial inputs :=
  answerable.imp Responsive
    (fun _ input responsive answerable =>
      ⟨responsive.responded input, responsive.step answerable⟩)
    responsive_initial

/-- A socket is opened and put to listen. -/
def goodDescriptor : List Step :=
  clientRun .socket 3 8 ++ monitorRun 3 none 20 ++ clientRun .socket 3 4 ++
    clientRun .listen 3 7 ++ monitorRun 0 none 21 ++ clientRun .listen 3 4

theorem responded_goodDescriptor : Along step Responded initial goodDescriptor :=
  responded_of_answerable (by decide +kernel)

/-- A client listens on descriptor 0. -/
def badDescriptor : List Step :=
  clientRun .listen 0 7 ++ monitorRun 0 none 8

theorem not_responded_badDescriptor : ¬Along step Responded initial badDescriptor := by
  decide +kernel

end FStack.Preload
