import FStack.Preload.Cases

/-!
# What holds between client and monitor

The slot passes from the client to the monitor and back through `ds_form.flag`, a request
through the flag of its form and a response through the flag of its form in the other
mailbox. `Core` says what holds of the three in every run.

Two things break this pattern and are part of the invariant. The flag of the response to
`socket` is set a second time, so it may be set at any time. And the loop of a TCP
listener leaves the flag of an `accept` request set, so in that phase it says nothing;
`Core` needs that a connection is accepted there only when an `accept` waits.
-/

namespace FStack.Preload

open Function (update update_apply update_self)
open ClientPc List

namespace ClientPc

/-- The client has taken the slot and has not seen a response. -/
def asks : ClientPc → Bool
  | .asking _ _ => true
  | _ => false

/-- The client has taken the slot and has not cleared the flag of the response. -/
def unread : ClientPc → Bool
  | .asking _ _ => true
  | .collecting _ gets => .clear ∈ gets
  | _ => false

/-- The client has taken the slot and has not set the flag of its form. -/
def unflagged : ClientPc → Bool
  | .asking _ puts => .flag ∈ puts
  | _ => false

/-- The call that has the slot or had it last. -/
def served? : ClientPc → Option Call
  | .asking call _ | .collecting call _ => some call
  | _ => none

/-- The call that wants the slot. -/
def seeks? : ClientPc → Option Call
  | .seeking call | .claiming call => some call
  | _ => none

end ClientPc

/-! ## The monitor's view -/

/-- What the monitor's steps depend on. -/
structure View where
  formFlag : Bool
  flag : Form → Bool
  unflagged : Bool
  epStatus : Bool
  last : Call
  answered : Bool
  answering : Nat

def State.view (s : State) : View where
  formFlag := s.box.formFlag
  flag := s.box.flag
  unflagged := s.client.unflagged
  epStatus := s.monitor.epStatus
  last := s.history.last
  answered := s.history.answered
  answering := s.history.answering

/-- Loops of `service_epoll`. -/
def Loop.epoll : Loop → Bool
  | .udp | .tcp | .accept => true
  | .prepare | .service => false

namespace View

/-- A request that the monitor has not seen is not answered. -/
def Unserved (view : View) : Prop := view.formFlag = true → view.answered = false

/-- Where the monitor is about to look at requests. -/
structure Looking (view : View) (loop : Loop) : Prop where
  epoll : loop.epoll = true → view.epStatus = true
  service : loop = .service → view.epStatus = false

/-- The monitor has seen the flag of the request. -/
structure Taken (view : View) (form : Form) : Prop where
  slot : view.formFlag = true
  form_eq : form = view.last.form
  answering : view.answering = view.last.num
  flagged : view.unflagged = false

/-- The monitor serves the request. -/
structure Serving (view : View) (form : Form) (ops : List Op) : Prop
    extends Taken view form where
  post : view.answered = false → postFirst ops = true ∨ guarded form = true
  posted : view.answered = true → postFirst ops = false
  cleared : view.answered = false → .clear ∉ ops → postFirst ops = true →
    view.flag form = true → form = .accept ∧ view.epStatus = true

/-- In the middle of a case. The loop of a listener serves a request once `ff_accept` has
returned a connection. -/
structure Running (view : View) (loop : Loop) (form : Form) (ops : List Op) : Prop where
  ordered : Ordered loop form ops
  serving : .free ∈ ops → .callOrLeave ∉ ops → view.Serving form ops
  unserved : .free ∉ ops ∨ .callOrLeave ∈ ops → view.Unserved
  again : .free ∉ ops → .post ∈ ops →
    form = .socket ∧ (view.answered = true ∨ view.answering < view.last.num)

/-- What holds where the monitor is. -/
def At (view : View) : MonitorPc → Prop
  | .poll loop => view.Unserved ∧ view.Looking loop
  | .switch loop => (view.formFlag = true ∧ view.answered = false) ∧ view.Looking loop
  | .await loop form =>
    (view.formFlag = true ∧ view.answered = false) ∧ view.Looking loop ∧
      handles loop form = true
  | .guard loop form =>
    view.Taken form ∧ view.answered = false ∧ guarded form = true ∧
      (loop.epoll = true → view.epStatus = true)
  | .run loop form ops =>
    view.Running loop form ops ∧ (loop.epoll = true → view.epStatus = true)
  | .pick | .acceptFlag | .acceptFd => view.Unserved ∧ view.epStatus = true
  | .entry | .recheck => view.Unserved

end View

/-- What holds between client and monitor. -/
structure Core (s : State) : Prop where
  current : ∀ call, s.client.served? = some call → call = s.history.last
  later : ∀ call, s.client.seeks? = some call → s.history.last.num < call.num
  counted : s.history.last.num ≤ s.history.calls
  newest : ∀ call, s.client.seeks? = some call → call.num ≤ s.history.calls
  claiming : ∀ call, s.client = .claiming call → s.box.formFlag = false
  asker_le : ∀ form, s.history.asker form ≤ s.history.last.num
  answering_le : s.history.answering ≤ s.history.last.num
  puts : ∀ call puts, s.client = .asking call puts → puts <:+ request call.form
  gets : ∀ call gets, s.client = .collecting call gets → gets <:+ response call.form
  asked : s.client.unflagged = false → s.history.asker s.history.last.form = s.history.last.num
  early : s.client.unflagged = true → s.history.answered = false
  unanswered : s.history.answered = false →
    s.client.asks = true ∨ s.history.last.form = .socket
  kept : s.history.answered = false → s.history.last.form = .socket → s.box.formFlag = true
  delivered : s.client.asks = true → s.history.answered = true →
    s.box.respFlag s.history.last.form = true
  posted : ∀ form, s.box.respFlag form = true →
    form = .socket ∨
      (form = s.history.last.form ∧ s.history.answered = true ∧ s.client.unread = true)
  flags : ∀ form, s.box.flag form = true →
    (form = s.history.last.form ∧ s.history.answered = false ∧
      s.client.unflagged = false) ∨
    (form = .accept ∧ s.monitor.epStatus = true)
  monitor : s.view.At s.monitor.pc

variable {form : Form} {loop : Loop} {s : State} {ops : List Op} {history : History}

theorem Core.running (core : Core s) (pc : s.monitor.pc = .run loop form ops) :
    s.view.Running loop form ops := by
  have holds := core.monitor
  rw [pc] at holds
  exact holds.1

theorem Core.taken (core : Core s) (pc : s.monitor.pc = .guard loop form) :
    s.view.Taken form ∧ s.history.answered = false := by
  have holds := core.monitor
  rw [pc] at holds
  exact ⟨holds.1, holds.2.1⟩

/-- At the start the slot is free. -/
theorem core_initial : Core initial where
  current := nofun
  later := nofun
  counted := Nat.le_refl _
  newest := nofun
  claiming := nofun
  asker_le _ := Nat.le_refl _
  answering_le := Nat.le_refl _
  puts := nofun
  gets := nofun
  asked _ := rfl
  early := nofun
  unanswered := nofun
  kept := nofun
  delivered := nofun
  posted := nofun
  flags := nofun
  monitor := nofun

/-! ## Steps of the client -/

namespace View

variable {view : View} {pc : MonitorPc}

/-- A call takes the slot. The monitor is not serving then. -/
theorem At.claim (holds : view.At pc) (free : view.formFlag = false) (call : Call)
    (unflagged : Bool) (later : view.answering < call.num) :
    View.At { view with
      formFlag := true, unflagged := unflagged, last := call, answered := false } pc := by
  have busy : view.formFlag ≠ true := Bool.eq_false_iff.mp free
  cases pc with
  | entry | recheck => exact fun _ => rfl
  | pick | acceptFlag | acceptFd => exact ⟨fun _ => rfl, holds.2⟩
  | poll loop => exact ⟨fun _ => rfl, ⟨holds.2.epoll, holds.2.service⟩⟩
  | switch loop | await loop form => exact absurd holds.1.1 busy
  | guard loop form => exact absurd holds.1.slot busy
  | run loop form ops =>
    obtain ⟨running, epoll⟩ := holds
    refine ⟨⟨running.ordered, ?_, fun _ _ => rfl, ?_⟩, epoll⟩
    · intro frees stays
      exact absurd (running.serving frees stays).slot busy
    · intro freed posts
      exact ⟨(running.again freed posts).1, .inr later⟩

/-- The client sets the flag of its form. The monitor has not seen it before. -/
theorem At.flag (holds : view.At pc) (unflagged : view.unflagged = true)
    (flag : Form → Bool) (value : Bool) :
    View.At { view with flag := flag, unflagged := value } pc := by
  have unseen : view.unflagged ≠ false := by simp [unflagged]
  cases pc with
  | entry | recheck | pick | acceptFlag | acceptFd => exact holds
  | poll | switch => exact ⟨holds.1, ⟨holds.2.epoll, holds.2.service⟩⟩
  | await loop form => exact ⟨holds.1, ⟨holds.2.1.epoll, holds.2.1.service⟩, holds.2.2⟩
  | guard loop form => exact absurd holds.1.flagged unseen
  | run loop form ops =>
    obtain ⟨running, epoll⟩ := holds
    refine ⟨⟨running.ordered, ?_, running.unserved, running.again⟩, epoll⟩
    intro frees stays
    exact absurd (running.serving frees stays).flagged unseen

end View

namespace Core

variable {box : Mailbox} {monitor : Monitor} {history : History} {call : Call}

/-- A new call waits for the slot. -/
theorem invoke (core : Core ⟨box, .idle, monitor, history⟩) (invocation : Invocation) :
    Core ⟨box, .seeking { invocation with num := history.calls + 1 }, monitor,
      history.invoke⟩ :=
  { core with
    current := nofun
    later := by
      rintro _ ⟨⟩
      exact Nat.lt_succ_of_le core.counted
    counted := Nat.le_succ_of_le core.counted
    newest := by
      rintro _ ⟨⟩
      exact Nat.le_refl _
    claiming := nofun
    puts := nofun
    gets := nofun
    monitor := core.monitor }

theorem seek (core : Core ⟨box, .seeking call, monitor, history⟩)
    (free : box.formFlag = false) : Core ⟨box, .claiming call, monitor, history⟩ :=
  { core with
    claiming := fun _ _ => free
    puts := nofun
    gets := nofun
    monitor := core.monitor }

/-- The slot is taken by one call. -/
theorem claim (core : Core ⟨box, .claiming call, monitor, history⟩) :
    Core ⟨box.setFormFlag true, .asking call (request call.form), monitor,
      history.claim call⟩ := by
  have free : box.formFlag = false := core.claiming call rfl
  have before : history.last.num < call.num := core.later call rfl
  have settled : history.answered ≠ false := by
    intro unanswered
    rcases core.unanswered unanswered with asks | socket
    · cases asks
    · cases free.symm.trans (core.kept unanswered socket)
  exact {
    current := by
      rintro _ ⟨⟩
      rfl
    later := nofun
    counted := core.newest call rfl
    newest := nofun
    claiming := nofun
    asker_le := fun form => Nat.le_trans (core.asker_le form) (Nat.le_of_lt before)
    answering_le := Nat.le_trans core.answering_le (Nat.le_of_lt before)
    puts := by
      rintro _ _ ⟨⟩
      exact suffix_rfl
    gets := nofun
    asked := fun flagged => by
      have unflagged : (asking call (request call.form)).unflagged = true :=
        decide_eq_true (flag_mem_request call.form)
      exact nomatch unflagged.symm.trans flagged
    early := fun _ => rfl
    unanswered := fun _ => .inl rfl
    kept := fun _ _ => rfl
    delivered := nofun
    posted := by
      intro form posted
      rcases core.posted form posted with socket | ⟨_, _, unread⟩
      · exact .inl socket
      · cases unread
    flags := by
      intro form flagged
      rcases core.flags form flagged with ⟨_, unanswered, _⟩ | accept
      · exact absurd unanswered settled
      · exact .inr accept
    monitor := core.monitor.claim free call _ (Nat.lt_of_le_of_lt core.answering_le before) }

variable {rest : List Put}

/-- A write of the client that leaves the flags alone. -/
theorem put {put : Put} {box' : Mailbox}
    (core : Core ⟨box, .asking call (put :: rest), monitor, history⟩) (other : put ≠ .flag)
    (formFlag : box'.formFlag = box.formFlag) (flag : box'.flag = box.flag)
    (respFlag : box'.respFlag = box.respFlag) :
    Core ⟨box', .asking call rest, monitor, history⟩ := by
  have unflagged : (asking call (put :: rest)).unflagged =
      (asking call rest).unflagged := by
    simp [unflagged, symm other]
  obtain ⟨_, _, _, _, _, _, _⟩ := box'
  cases formFlag
  cases flag
  cases respFlag
  exact { core with
    claiming := nofun
    puts := by
      rintro _ _ ⟨⟩
      exact (suffix_cons put rest).trans (core.puts _ _ rfl)
    gets := nofun
    asked := fun flagged => core.asked (unflagged.trans flagged)
    early := fun unflagged' => core.early (unflagged.trans unflagged')
    flags := fun form flagged => by
      have := core.flags form flagged
      rwa [unflagged] at this
    monitor := by
      have := core.monitor
      simp only [State.view, unflagged] at this
      exact this }

/-- The request flag is set when the arguments are written. -/
theorem putFlag (core : Core ⟨box, .asking call (.flag :: rest), monitor, history⟩) :
    Core ⟨box.setFlag call.form true, .asking call rest, monitor,
      history.ask call.form call.num⟩ := by
  have unflagged : (asking call (.flag :: rest)).unflagged = true := by
    simp [unflagged]
  have once : .flag ∉ rest :=
    (nodup_cons.mp ((core.puts _ _ rfl).sublist.nodup (nodup_request call.form))).1
  have flagged' : (asking call rest).unflagged = false := by
    simp [ClientPc.unflagged, once]
  have last : call = history.last := core.current call rfl
  exact { core with
    claiming := nofun
    asker_le := by
      intro form
      change update history.asker call.form call.num form ≤ history.last.num
      rw [update_apply]
      split
      · exact last ▸ Nat.le_refl _
      · exact core.asker_le form
    puts := by
      rintro _ _ ⟨⟩
      exact (suffix_cons _ rest).trans (core.puts _ _ rfl)
    gets := nofun
    asked := fun _ => by
      change update history.asker call.form call.num history.last.form = history.last.num
      rw [← last, update_self]
    early := fun unflagged' => nomatch flagged'.symm.trans unflagged'
    flags := by
      intro form flagged
      rcases of_update_true flagged with same | ⟨differs, flagged⟩
      · exact .inl ⟨last ▸ same, core.early unflagged, flagged'⟩
      · rcases core.flags form flagged with ⟨same, _⟩ | accept
        · exact absurd (same.trans (congrArg (fun call => call.form) last.symm)) differs
        · exact .inr accept
    monitor := core.monitor.flag unflagged _ _ }

/-- A response flag that is set is for the call that waits. -/
theorem takeResponse (core : Core ⟨box, .asking call [], monitor, history⟩)
    (posted : box.respFlag call.form = true) :
    Core ⟨box, .collecting call (response call.form), monitor, history⟩ := by
  have last : call = history.last := core.current call rfl
  exact { core with
    claiming := nofun
    puts := nofun
    gets := by
      rintro _ _ ⟨⟩
      exact suffix_rfl
    unanswered := by
      intro unanswered
      rcases core.posted call.form posted with socket | ⟨_, answered, _⟩
      · exact .inr (last ▸ socket)
      · cases unanswered.symm.trans answered
    delivered := nofun
    posted := by
      intro form posted
      rcases core.posted form posted with socket | ⟨same, answered, _⟩
      · exact .inl socket
      · refine .inr ⟨same, answered, ?_⟩
        cases call.form <;> rfl
    monitor := core.monitor }

/-- Clearing the response flag ends the exchange. -/
theorem clearResponse {rest : List Get}
    (core : Core ⟨box, .collecting call (.clear :: rest), monitor, history⟩) :
    Core ⟨box.setRespFlag call.form false, .collecting call rest, monitor, history⟩ := by
  have last : call = history.last := core.current call rfl
  exact { core with
    claiming := nofun
    puts := nofun
    gets := by
      rintro _ _ ⟨⟩
      exact (suffix_cons _ rest).trans (core.gets _ _ rfl)
    delivered := nofun
    posted := by
      intro form posted
      obtain ⟨differs, posted⟩ := of_update_false posted
      rcases core.posted form posted with socket | ⟨same, _⟩
      · exact .inl socket
      · exact absurd (same.trans (congrArg (fun call => call.form) last.symm)) differs
    monitor := core.monitor }

/-- An access of the client that leaves the flags alone. -/
theorem get {get : Get} {rest : List Get} {history' : History}
    (core : Core ⟨box, .collecting call (get :: rest), monitor, history⟩) (other : get ≠ .clear)
    (calls : history'.calls = history.calls) (last : history'.last = history.last)
    (answered : history'.answered = history.answered) (asker : history'.asker = history.asker)
    (answering : history'.answering = history.answering) :
    Core ⟨box, .collecting call rest, monitor, history'⟩ := by
  have unread : (collecting call (get :: rest)).unread =
      (collecting call rest).unread := by
    simp [unread, symm other]
  obtain ⟨_, _, _, _, _, _, _, _, _, _, _⟩ := history'
  cases calls
  cases last
  cases answered
  cases asker
  cases answering
  exact { core with
    claiming := nofun
    puts := nofun
    gets := by
      rintro _ _ ⟨⟩
      exact (suffix_cons _ rest).trans (core.gets _ _ rfl)
    posted := fun form posted => by
      have := core.posted form posted
      rwa [unread] at this
    monitor := core.monitor }

theorem finish (core : Core ⟨box, .collecting call [], monitor, history⟩) :
    Core ⟨box, .idle, monitor, history⟩ :=
  { core with
    current := nofun
    claiming := nofun
    puts := nofun
    gets := nofun
    monitor := core.monitor }

/-- Every access of the hook keeps the protocol. -/
theorem client {s : State} (core : Core s) (invocation : Invocation) :
    Core (clientStep invocation s) := by
  obtain ⟨box, client, monitor, history⟩ := s
  cases client with
  | idle => exact core.invoke invocation
  | seeking call =>
    simp only [clientStep]
    split
    · exact core
    case isFalse free => exact core.seek (Bool.eq_false_iff.mpr free)
  | claiming call => exact core.claim
  | asking call puts =>
    cases puts with
    | nil =>
      simp only [clientStep]
      split
      case isTrue posted => exact core.takeResponse posted
      · exact core
    | cons put rest =>
      cases put with
      | flag => exact core.putFlag
      | _ => exact core.put (by rintro ⟨⟩) rfl rfl rfl
  | collecting call gets =>
    cases gets with
    | nil => exact core.finish
    | cons get rest =>
      cases get with
      | clear => exact core.clearResponse
      | out _ | ret => exact core.get (by rintro ⟨⟩) rfl rfl rfl rfl rfl

end Core

/-! ## Steps of the monitor -/

namespace View

variable {view : View} {loop : Loop} {form : Form} {op : Op} {ops rest : List Op}

/-- Cases with the same accesses ahead can stand for each other. -/
theorem Running.alike (running : view.Running loop form ops) (alike : Alike ops rest)
    (ordered : Ordered loop form rest) : view.Running loop form rest where
  ordered := ordered
  serving frees stays := by
    have serving := running.serving (alike.free.mpr frees) (mt alike.leave.mp stays)
    exact { serving with
      post := alike.postFirst ▸ serving.post
      posted := alike.postFirst ▸ serving.posted
      cleared := fun unanswered unclear first =>
        serving.cleared unanswered (mt alike.clear.mp unclear) (alike.postFirst.trans first) }
  unserved off := running.unserved (off.imp (mt alike.free.mp) alike.leave.mpr)
  again freed posts := running.again (mt alike.free.mp freed) (alike.post.mpr posts)

theorem Running.tail (running : view.Running loop form (op :: rest)) (neutral : op.neutral = true) :
    view.Running loop form rest :=
  running.alike (.cons neutral rest) running.ordered.2

/-- After a case the request is dealt with. -/
theorem Running.done (running : view.Running loop form []) : view.Unserved :=
  running.unserved (.inl not_mem_nil)

theorem At.next (holds : view.Unserved) (epoll : loop.epoll = true → view.epStatus = true) :
    view.At loop.next := by
  cases loop with
  | prepare | service => exact holds
  | udp | tcp => exact ⟨holds, ⟨epoll, nofun⟩⟩
  | accept => exact ⟨holds, epoll rfl⟩

/-- A request that is taken is served from the start of its case. -/
theorem Taken.begin (taken : view.Taken form) (unanswered : view.answered = false) :
    view.Running loop form (body loop form ++ closing loop form) where
  ordered := ordered_case loop form
  serving _ _ :=
    { taken with
      post := fun _ => .inl (postFirst_case loop form)
      posted := fun answered => nomatch unanswered.symm.trans answered
      cleared := fun _ unclear =>
        absurd (mem_append_left _ (clear_mem_body loop form)) unclear }
  unserved off := off.elim
    (absurd (mem_append_right _ (free_mem_closing loop form)))
    (absurd · (callOrLeave_not_mem_case loop form))
  again freed := absurd (mem_append_right _ (free_mem_closing loop form)) freed

/-- A request with a bad descriptor is closed without being served. -/
theorem Taken.drop (taken : view.Taken form) (checked : guarded form = true) : view.Running loop form (closing loop form) where
  ordered := ordered_closing loop form
  serving _ _ :=
    { taken with
      post := fun _ => .inr checked
      posted := fun _ => postFirst_closing loop form
      cleared := fun _ _ first => nomatch (postFirst_closing loop form).symm.trans first }
  unserved off := off.elim (absurd (free_mem_closing loop form))
    fun leaves => absurd (mem_append_right _ leaves) (callOrLeave_not_mem_case loop form)
  again freed := absurd (free_mem_closing loop form) freed

/-- The loop of a listener serves nothing before it has a connection. -/
theorem Running.acceptRound (unserved : view.Unserved) :
    view.Running .accept .accept acceptRound where
  ordered := ordered_acceptRound
  serving _ stays := absurd (by decide) stays
  unserved _ := unserved
  again freed := absurd (by decide) freed

end View

namespace Core

variable {s : State} {loop : Loop} {form : Form} {op : Op} {rest : List Op}

theorem goto (core : Core s) {pc : MonitorPc} (holds : s.view.At pc) : Core (s.goto pc) :=
  { core with monitor := holds }

/-- The monitor clears the flag of the request it serves. -/
theorem clear (core : Core s) (running : s.view.Running loop form (.clear :: rest))
    (epoll : loop.epoll = true → s.monitor.epStatus = true) :
    Core ((s.setBox (s.box.setFlag form false)).goto (.run loop form rest)) :=
  { core with
    flags := fun other flagged => core.flags other (of_update_false flagged).2
    monitor := by
      refine ⟨⟨running.ordered.2, ?_, ?_, ?_⟩, epoll⟩
      · intro frees stays
        have serving := running.serving (mem_cons_of_mem _ frees) (by simpa using stays)
        exact { serving with
          cleared := fun _ _ _ flagged => absurd rfl (of_update_false flagged).1 }
      · intro off
        exact running.unserved (by simpa using off)
      · intro freed posts
        exact running.again (by simpa using freed) (mem_cons_of_mem _ posts) }

end Core

theorem History.post_answered (current : history.answering = history.last.num) :
    history.post.answered = true := by
  simp [post, current]

/-- A second response changes nothing. -/
theorem History.post_again
    (settled : history.answered = true ∨ history.answering < history.last.num) :
    history.post.answered = history.answered := by
  rcases settled with answered | earlier
  · simp [post, answered]
  · simp [post, Nat.ne_of_lt earlier]

theorem View.Serving.unanswered {view : View} (serving : view.Serving form ops)
    (first : postFirst ops = true) : view.answered = false := by
  by_contra answered
  exact nomatch first.symm.trans (serving.posted (Bool.not_eq_false _ ▸ answered))

namespace Core

variable {s : State} {loop : Loop} {form : Form} {op : Op} {rest : List Op}

variable (core : Core s) (epoll : loop.epoll = true → s.monitor.epStatus = true)

include core epoll

section

variable (running : s.view.Running loop form (.post :: rest))

include running

/-- The response of the request that is served. -/
theorem postServing (frees : .free ∈ rest) :
    Core (((s.setBox (s.box.setRespFlag form true)).setHistory s.history.post).goto
      (.run loop form rest)) := by
  obtain ⟨done, _, _, _, follows⟩ := running.ordered.1
  have stays := callOrLeave_not_mem done
  obtain ⟨unclear, freesFirst⟩ := follows frees
  have serving := running.serving (mem_cons_of_mem _ frees) (by simpa using stays)
  have form_eq : form = s.history.last.form := serving.form_eq
  have unanswered : s.history.answered = false := serving.unanswered rfl
  have answered : s.history.post.answered = true := History.post_answered serving.answering
  exact { core with
    early := fun unflagged => nomatch serving.flagged.symm.trans unflagged
    unanswered := fun unanswered => nomatch unanswered.symm.trans answered
    kept := fun unanswered => nomatch unanswered.symm.trans answered
    delivered := fun _ _ => by
      change update s.box.respFlag form true s.history.last.form = true
      rw [form_eq, update_self]
    posted := by
      intro other posted
      rcases of_update_true posted with rfl | ⟨_, posted⟩
      · rcases core.unanswered unanswered with asks | socket
        · refine .inr ⟨form_eq, answered, ?_⟩
          cases client : s.client with
          | asking call puts => exact congrArg unread client
          | _ => cases client ▸ asks
        · exact .inl (form_eq.trans socket)
      · rcases core.posted other posted with socket | ⟨_, already, _⟩
        · exact .inl socket
        · cases unanswered.symm.trans already
    flags := by
      intro other flagged
      rcases core.flags other flagged with ⟨same, _⟩ | accept
      · obtain rfl := same.trans form_eq.symm
        exact .inr (serving.cleared unanswered (by simpa using unclear) rfl flagged)
      · exact .inr accept
    monitor := by
      refine ⟨⟨running.ordered.2, ?_, ?_, absurd frees⟩, epoll⟩
      · intro _ _
        exact { serving with
          post := fun unanswered => nomatch unanswered.symm.trans answered
          posted := fun _ => freesFirst
          cleared := fun unanswered => nomatch unanswered.symm.trans answered }
      · rintro (freed | leaves)
        · exact absurd frees freed
        · exact absurd leaves stays }

/-- The second response to `socket`. -/
theorem postAgain (freed : .free ∉ rest) :
    Core (((s.setBox (s.box.setRespFlag form true)).setHistory s.history.post).goto
      (.run loop form rest)) := by
  obtain ⟨rfl, settled⟩ := running.again (by simpa using freed) mem_cons_self
  have history : s.history.post = { s.history with posts := s.history.posts + 1 } :=
    congrArg (fun answered => { s.history with answered, posts := s.history.posts + 1 })
      (History.post_again settled)
  rw [history]
  exact { core with
    delivered := fun asks answered => update_true_of (core.delivered asks answered)
    posted := by
      intro other posted
      rcases of_update_true posted with same | ⟨_, posted⟩
      · exact .inl same
      · exact core.posted other posted
    monitor := by
      refine ⟨⟨running.ordered.2, fun frees => absurd frees freed, ?_, ?_⟩, epoll⟩
      · exact fun _ => running.unserved (.inl (by simpa using freed))
      · exact fun _ _ => ⟨rfl, settled⟩ }

end

/-- The monitor frees the slot of the request it serves. -/
theorem free (running : s.view.Running loop form (.free :: rest)) :
    Core ((s.setBox (s.box.setFormFlag false)).goto (.run loop form rest)) := by
  obtain ⟨done, freed, again⟩ := running.ordered.1
  have serving := running.serving mem_cons_self (by simpa using callOrLeave_not_mem done)
  have checked (unanswered : s.history.answered = false) : guarded form = true :=
    (serving.post unanswered).resolve_left nofun
  have answered (socket : form = .socket) : s.history.answered = true := by
    by_contra unanswered
    have := checked (Bool.eq_false_iff.mpr unanswered)
    rw [socket] at this
    cases this
  exact { core with
    claiming := fun _ _ => rfl
    kept := fun unanswered socket =>
      nomatch unanswered.symm.trans (answered (serving.form_eq.trans socket))
    monitor := by
      refine ⟨⟨running.ordered.2, fun frees => absurd frees freed, fun _ => nofun, ?_⟩, epoll⟩
      exact fun _ posts => ⟨again posts, .inl (answered (again posts))⟩ }

/-- Starting the event loop keeps the protocol. -/
theorem startEpoll (running : s.view.Running loop form rest) (value start : Bool) :
    Core ((s.setMonitor ((s.monitor.setRunning value).setEpStatus
      (start || s.monitor.epStatus))).goto (.run loop form rest)) := by
  have still (on : s.monitor.epStatus = true) : (start || s.monitor.epStatus) = true := by
    rw [on, Bool.or_true]
  exact { core with
    flags := fun other flagged =>
      (core.flags other flagged).imp_right fun accept => ⟨accept.1, still accept.2⟩
    monitor := by
      refine ⟨⟨running.ordered, ?_, running.unserved, running.again⟩, fun on => still (epoll on)⟩
      intro frees stays
      have serving := running.serving frees stays
      exact { serving with
        cleared := fun unanswered unclear first flagged =>
          have accept := serving.cleared unanswered unclear first flagged
          ⟨accept.1, still accept.2⟩ } }

end Core

/-- An `accept` waits: its request is in the slot and there is no response. -/
def State.acceptWaits (s : State) : Bool :=
  match s.client with
  | .asking call [] => call.form = .accept && s.box.formFlag && !s.box.respFlag .accept
  | _ => false

/-- The monitor has a connection for the `accept` that waits. -/
def Accepts (s : State) : Prop :=
  s.acceptWaits = true ∧ s.history.answering = s.history.last.num

theorem State.acceptWaits_iff :
    s.acceptWaits = true ↔ ∃ call, s.client = .asking call [] ∧ call.form = .accept ∧
      s.box.formFlag = true ∧ s.box.respFlag .accept = false := by
  unfold acceptWaits
  split
  case h_1 call client => simp [client, and_assoc]
  case h_2 other =>
    simp only [Bool.false_eq_true, false_iff]
    rintro ⟨call, client, _⟩
    exact other call client

namespace Core

variable {s : State} {loop : Loop} {form : Form} {op : Op} {rest : List Op}

section

variable (core : Core s)

include core

/-- An `accept` that waits is the last call and has no answer. -/
theorem of_acceptWaits (waits : s.acceptWaits = true) :
    s.history.last.form = .accept ∧ s.history.answered = false ∧ s.box.formFlag = true ∧
      s.client.asks = true ∧ s.client.unflagged = false := by
  obtain ⟨call, client, form_eq, slot, silent⟩ := State.acceptWaits_iff.mp waits
  have last : call = s.history.last := core.current call (congrArg served? client)
  have form : s.history.last.form = .accept := last ▸ form_eq
  refine ⟨form, ?_, slot, congrArg asks client, congrArg unflagged client⟩
  by_contra answered
  have posted := core.delivered (congrArg asks client) (Bool.not_eq_false _ ▸ answered)
  rw [form] at posted
  exact nomatch silent.symm.trans posted

/-- A connection is accepted for the `accept` that waits. -/
theorem accepted (env : Env) (running : s.view.Running loop form (.callOrLeave :: rest))
    (epoll : loop.epoll = true → s.monitor.epStatus = true) (accepts : Accepts s) :
    Core (((s.perform form env).setHistory (s.history.performed form env.result)).goto
      (.run loop form rest)) := by
  obtain ⟨rfl, rfl, _, frees, _, first⟩ := running.ordered.1
  obtain ⟨waits, answering⟩ := accepts
  obtain ⟨form_eq, unanswered, slot, _, flagged⟩ := core.of_acceptWaits waits
  exact { core with
    monitor := by
      refine ⟨⟨running.ordered.2, fun _ _ => ?_, fun _ _ => unanswered, ?_⟩, epoll⟩
      · exact {
          slot := slot
          form_eq := form_eq.symm
          answering := answering
          flagged := flagged
          post := fun _ => .inl first
          posted := fun answered => nomatch unanswered.symm.trans answered
          cleared := fun _ _ _ _ => ⟨rfl, epoll rfl⟩ }
      · exact fun freed => absurd frees freed }

/-- Every access of the monitor keeps the protocol. -/
theorem exec (env : Env) (running : s.view.Running loop form (op :: rest))
    (epoll : loop.epoll = true → s.monitor.epStatus = true)
    (accepts : op = .callOrLeave → 0 ≤ env.result → Accepts s) :
    Core (op.exec env loop form rest s) := by
  cases op with
  | callUntil =>
    refine { core with monitor := ⟨?_, epoll⟩ }
    split
    · exact running.alike (Alike.append _ _ (neutral_parameters form)).symm
        (running.ordered.parameters rfl)
    · exact running.tail rfl
  | callOrLeave =>
    simp only [Op.exec]
    split
    · obtain ⟨rfl, _⟩ := running.ordered.1
      exact { core with
        monitor := ⟨running.unserved (.inr mem_cons_self), epoll rfl⟩ }
    case isFalse positive =>
      exact core.accepted env running epoll (accepts rfl (Int.not_lt.mp positive))
  | clear => exact core.clear running epoll
  | post =>
    by_cases frees : .free ∈ rest
    · exact core.postServing epoll running frees
    · exact core.postAgain epoll running frees
  | free => exact core.free epoll running
  | epollIfDgram => exact core.startEpoll epoll (running.tail rfl) _ _
  | listening => exact core.startEpoll epoll (running.tail rfl) s.monitor.running true
  | register =>
    obtain ⟨rfl, freed, _⟩ := running.ordered.1
    simp only [Op.exec]
    split
    · exact core.goto ⟨running.tail rfl, epoll⟩
    · exact core.goto ⟨running.unserved (.inl (by simpa using freed)), epoll rfl⟩
  | _ => exact { core with monitor := ⟨running.tail rfl, epoll⟩ }

/-- The next event can be picked when no request is served. -/
theorem pick (unserved : s.view.Unserved) (epoll : s.monitor.epStatus = true)
    (event : Option (Int × Bool × Bool)) : Core (s.pick event) := by
  cases event with
  | none => exact core.goto unserved
  | some event =>
    simp only [State.pick]
    split
    · split
      · exact { core with monitor := ⟨unserved, ⟨fun _ => epoll, nofun⟩⟩ }
      · exact core
    · split
      · exact core.goto ⟨unserved, epoll⟩
      · split
        · exact { core with monitor := ⟨unserved, ⟨fun _ => epoll, nofun⟩⟩ }
        · exact core

/-- A request that is seen is taken. -/
theorem see (looking : s.view.Looking loop) (slot : s.box.formFlag = true)
    (handled : handles loop form = true) (flagged : s.box.flag form = true) :
    Core (((s.setMonitor (s.monitor.setUsed [])).setHistory (s.history.see form)).goto
      (if guarded form then .guard loop form
        else .run loop form (body loop form ++ closing loop form))) := by
  have request : form = s.history.last.form ∧ s.history.answered = false ∧
      s.client.unflagged = false := by
    rcases core.flags form flagged with request | ⟨rfl, epoll⟩
    · exact request
    · cases loop with
      | service => cases epoll.symm.trans (looking.service rfl)
      | _ => cases handled
  obtain ⟨form_eq, unanswered, unflagged⟩ := request
  have taken : View.Taken
      ((s.setMonitor (s.monitor.setUsed [])).setHistory (s.history.see form)).view form :=
    ⟨slot, form_eq, form_eq ▸ core.asked unflagged, unflagged⟩
  refine { core with answering_le := core.asker_le form, monitor := ?_ }
  split
  case isTrue checked => exact ⟨taken, unanswered, checked, looking.epoll⟩
  · exact ⟨taken.begin unanswered, looking.epoll⟩

/-- Every step of the monitor keeps the protocol. -/
theorem monitorStep (env : Env)
    (accepts : ∀ loop form rest, s.monitor.pc = .run loop form (.callOrLeave :: rest) →
      0 ≤ env.result → Accepts s) : Core (monitorStep env s) := by
  have holds := core.monitor
  unfold Preload.monitorStep
  revert holds
  cases pc : s.monitor.pc with
  | entry =>
    intro holds
    apply core.goto
    split
    · exact ⟨holds, ⟨by rintro ⟨⟩, by rintro ⟨⟩⟩⟩
    split
    case isTrue epoll => exact ⟨holds, epoll⟩
    case isFalse off => exact ⟨holds, ⟨by rintro ⟨⟩, fun _ => Bool.eq_false_iff.mpr off⟩⟩
  | poll loop =>
    rintro ⟨unserved, looking⟩
    dsimp only
    split
    case isTrue left =>
      refine core.goto ⟨unserved, looking.epoll ?_⟩
      obtain ⟨member, _⟩ := left
      revert member
      cases loop <;> decide
    · apply core.goto
      split
      case isTrue slot => exact ⟨⟨slot, unserved slot⟩, looking⟩
      · exact View.At.next unserved looking.epoll
  | switch loop =>
    rintro ⟨⟨slot, unanswered⟩, looking⟩
    refine { core with monitor := ?_ }
    dsimp only
    split
    case isTrue handled => exact ⟨⟨slot, unanswered⟩, looking, handled⟩
    · exact View.At.next (fun _ => unanswered) looking.epoll
  | await loop form =>
    rintro ⟨⟨slot, _⟩, looking, handled⟩
    dsimp only
    split
    case isTrue flagged => exact core.see looking slot handled flagged
    · exact core
  | guard loop form =>
    rintro ⟨taken, unanswered, checked, epoll⟩
    apply core.goto
    split
    · exact ⟨taken.begin unanswered, epoll⟩
    · exact ⟨taken.drop checked, epoll⟩
  | run loop form ops =>
    rintro ⟨running, epoll⟩
    cases ops with
    | nil => exact core.goto (View.At.next running.done epoll)
    | cons op rest =>
      exact core.exec env running epoll fun same => accepts loop form rest (same ▸ pc)
  | recheck => exact fun holds => { core with monitor := holds }
  | pick => exact fun ⟨unserved, epoll⟩ => core.pick unserved epoll env.event
  | acceptFlag =>
    intro holds
    dsimp only
    split
    · exact { core with answering_le := core.asker_le .accept, monitor := holds }
    · exact core
  | acceptFd =>
    rintro ⟨unserved, epoll⟩
    apply core.goto
    split
    · exact ⟨.acceptRound unserved, fun _ => epoll⟩
    · exact ⟨unserved, epoll⟩

end

end Core

/-! ## The loop of a listener -/

/-- In the loop of a listener, between the test and `ff_accept`. -/
def MonitorPc.accepting : MonitorPc → Bool
  | .acceptFd => true
  | .run _ _ ops => .callOrLeave ∈ ops
  | _ => false

/-- The loop of a listener takes a request up only while an `accept` waits. -/
def Invited (s : State) : Step → Prop
  | .client _ => True
  | .monitor _ =>
    s.monitor.pc = .acceptFlag → s.box.flag .accept = true → s.acceptWaits = true

instance (s : State) : ∀ input, Decidable (Invited s input)
  | .client _ => inferInstanceAs (Decidable True)
  | .monitor _ => inferInstanceAs (Decidable (_ → _))

/-- What holds between client and monitor when the loop of a listener is invited. -/
structure Sound (s : State) : Prop extends Core s where
  accepting : s.monitor.pc.accepting = true → Accepts s

theorem sound_initial : Sound initial := { core_initial with accepting := nofun }

/-- A client whose `accept` waits does nothing. -/
theorem clientStep_of_acceptWaits (waits : s.acceptWaits = true) (invocation : Invocation) :
    clientStep invocation s = s := by
  obtain ⟨call, client, form_eq, _, silent⟩ := State.acceptWaits_iff.mp waits
  simp only [clientStep, client, form_eq, silent, Bool.false_eq_true, if_false]

/-- Up to `ff_accept` the round of a listener writes nothing. -/
theorem Accepts.exec {op : Op} {rest : List Op} {env : Env}
    (ordered : Ordered loop form (op :: rest)) (accepts : .callOrLeave ∈ op :: rest → Accepts s)
    (after : (op.exec env loop form rest s).monitor.pc.accepting = true) :
    Accepts (op.exec env loop form rest s) := by
  have before (member : decide (.callOrLeave ∈ rest) = true) : Accepts s :=
    accepts (mem_cons_of_mem _ (of_decide_eq_true member))
  have never (done : called rest = true) {goal : Prop}
      (member : decide (.callOrLeave ∈ rest) = true) : goal :=
    absurd (of_decide_eq_true member) (callOrLeave_not_mem done)
  cases op with
  | call | out _ | ret | post | free => exact never ordered.1.1 after
  | callUntil =>
    obtain ⟨rfl, done, _⟩ := ordered.1
    change decide (Op.callOrLeave ∈ if _ then _ else _) = true at after
    split at after
    · exact never done (by simpa [parameters] using after)
    · exact never done after
  | callOrLeave =>
    simp only [Op.exec] at after ⊢
    split at after
    · cases after
    · exact never ordered.1.2.2.1 after
  | register =>
    simp only [Op.exec] at after ⊢
    split at after
    · exact before after
    · cases after
  | _ => exact before after

theorem not_accepting_of_away {pc : MonitorPc} (away : pc.away = true) :
    pc.accepting = false := by
  cases pc <;> first | rfl | cases away

namespace Sound

variable {s : State} (sound : Sound s)

include sound

theorem client (invocation : Invocation) : Sound (clientStep invocation s) := by
  refine { sound.toCore.client invocation with accepting := fun accepting => ?_ }
  rw [clientStep_monitor] at accepting
  have accepts := sound.accepting accepting
  rwa [clientStep_of_acceptWaits accepts.1]

/-- The loop of a listener takes up the request of the `accept` that waits. -/
theorem listen (waits : s.acceptWaits = true) :
    Accepts (((s.setMonitor (s.monitor.setUsed [])).setHistory (s.history.see .accept)).goto
      .acceptFd) := by
  refine ⟨waits, ?_⟩
  obtain ⟨form_eq, _, _, _, flagged⟩ := sound.toCore.of_acceptWaits waits
  have asked := sound.asked flagged
  rwa [form_eq] at asked

/-- Every step of the monitor that an `accept` asks for keeps the state sound. -/
theorem monitorStep (env : Env) (invited : Invited s (.monitor env)) :
    Sound (monitorStep env s) := by
  have core : Core (Preload.monitorStep env s) := by
    apply sound.toCore.monitorStep
    intro loop form rest pc _
    exact sound.accepting (by simp [pc, MonitorPc.accepting])
  refine { core with accepting := ?_ }
  have holds := sound.monitor
  have moved := move env s
  generalize Preload.monitorStep env s = s' at moved
  cases moved with
  | stay => exact sound.accepting
  | wander away => exact fun accepting => by cases (not_accepting_of_away away).symm.trans accepting
  | @see loop form pc =>
    intro accepting
    split at accepting
    · cases accepting
    · exact absurd (of_decide_eq_true accepting) (callOrLeave_not_mem_case loop form)
  | @enter loop form pc =>
    exact fun accepting =>
      absurd (of_decide_eq_true accepting) (callOrLeave_not_mem_case loop form)
  | @drop loop form pc =>
    exact fun accepting => absurd (mem_append_right _ (of_decide_eq_true accepting))
      (callOrLeave_not_mem_case loop form)
  | exec pc =>
    rw [pc] at holds
    exact Accepts.exec holds.1.ordered fun member =>
      sound.accepting (pc ▸ decide_eq_true member)
  | listen pc flagged => exact fun _ => sound.listen (invited pc flagged)
  | round pc => exact fun _ => sound.accepting (pc ▸ rfl)

end Sound

/-- But for `accept` and `socket`, the mailboxes hold the request of the last call or its answer,
never both. A case that has yet to free the slot is that of the last call, and no client takes the
slot meanwhile. -/
structure Exclusive (s : State) : Prop where
  request : ∀ form ≠ .accept, s.box.flag form = true →
    form = s.history.last.form ∧ ∀ other ≠ .socket, s.box.respFlag other = false
  answer : ∀ form ≠ .socket, s.box.respFlag form = true → form = s.history.last.form
  slot : ∀ loop form ops, s.monitor.pc = .run loop form ops → .free ∈ ops → .callOrLeave ∉ ops →
    form = s.history.last.form ∧ ∀ call, s.client ≠ .claiming call

/-- In a sound state, request and answer are never there together. -/
theorem Sound.exclusive (sound : Sound s) : Exclusive s where
  request form listens flag := by
    obtain ⟨same, unanswered, -⟩ := (sound.flags form flag).resolve_right fun both => listens both.1
    refine ⟨same, fun other twice => Bool.eq_false_iff.mpr fun posted => ?_⟩
    have answered := ((sound.posted other posted).resolve_left twice).2.1
    cases unanswered.symm.trans answered
  answer form twice posted := ((sound.posted form posted).resolve_left twice).1
  slot loop form ops pc frees calls := by
    have holds := sound.monitor
    rw [pc] at holds
    have serving := holds.1.serving frees calls
    refine ⟨serving.form_eq, fun call claims => ?_⟩
    cases (sound.claiming call claims).symm.trans serving.slot

/-- This goes for every order of the accesses in which the loop of a listener is invited, and what
is stored in buffers fits. -/
theorem exclusive_of_invited {inputs : List Step}
    (invited : Steps.Along step (fun s input => Invited s input ∧ s.fits input = true)
      initial inputs) : Exclusive (inputs.foldl step initial) := by
  refine (invited.last Sound (fun s input sound here => ?_) sound_initial).exclusive
  cases input with
  | client invocation => exact sound.client invocation
  | monitor env => exact sound.monitorStep env here.1

theorem exclusive_opening :
    Exclusive ((clientRun .socket 3 8 ++ monitorRun 3 none 9).foldl step initial) :=
  exclusive_of_invited (by decide +kernel)

end FStack.Preload
