import FStack.Preload.Protocol

/-!
# Accepted connections

The loop of a TCP listener calls `ff_accept` as long as the flag of an `accept` request is
set, and it never clears that flag. So after the first connection it goes on accepting for
a request that is answered: `not_acceptedOnce_twoConnections` has the second descriptor
written over the first one before the client has read it.
-/

namespace FStack.Preload

open MonitorPc State Steps

/-- `ff_accept` has returned, and the descriptor is in the monitor's variable. -/
def MonitorPc.carries : MonitorPc → Bool
  | .run _ .accept ops => .ret ∈ ops && .post ∈ ops && called ops
  | _ => false

/-- The descriptor is in the mailbox, and the flag of the response is not set. -/
def MonitorPc.stores : MonitorPc → Bool
  | .run _ .accept ops => .post ∈ ops && called ops
  | _ => false

/-- The next step is a call of `ff_accept`. -/
def MonitorPc.accepts : MonitorPc → Bool
  | .run _ .accept (.call :: _) | .run _ .accept (.callOrLeave :: _) => true
  | _ => false

/-- The next step writes the descriptor into the mailbox. -/
def MonitorPc.writes : MonitorPc → Bool
  | .run _ .accept (.ret :: _) => true
  | _ => false

/-- An `accept` is about to read the descriptor. -/
def ClientPc.returns : ClientPc → Bool
  | .collecting call gets => call.form = .accept && .ret ∈ gets
  | _ => false

namespace State

variable (s : State)

/-- There is a descriptor in the mailbox that no `accept` has read. -/
def unread : Bool := s.box.respFlag .accept || s.client.returns

/-- The descriptors on their way from `ff_accept` to `accept`. -/
def inTransit : List Int :=
  if s.monitor.pc.carries then [s.monitor.ret]
  else if s.monitor.pc.stores || s.unread then [s.box.ret .accept]
  else []

end State

/-- `ff_accept` is called for an `accept` that waits, no descriptor is overwritten that
has not been read, and every descriptor has been returned by one `accept` or is on its
way. -/
def AcceptedOnce (s : State) (input : Step) : Prop :=
  (input.monitors = true → s.monitor.pc.accepts = true → s.acceptWaits = true) ∧
  (input.monitors = true → s.monitor.pc.writes = true → s.unread = false) ∧
  s.history.accepted = s.history.returned ++ s.inTransit

instance (s : State) (input : Step) : Decidable (AcceptedOnce s input) :=
  inferInstanceAs (Decidable (_ ∧ _ ∧ _))

namespace Sound

variable {s : State} {loop : Loop} {ops : List Op}

/-- While a case for `accept` has its response to post, the `accept` waits. -/
theorem acceptWaits (sound : Sound s) (pc : s.monitor.pc = .run loop .accept ops)
    (posts : .post ∈ ops) (stays : .callOrLeave ∉ ops) : s.acceptWaits = true := by
  have running := sound.running pc
  have first := running.ordered.postFirst nofun posts
  have frees : .free ∈ ops := by
    by_contra freed
    exact nomatch (running.again freed posts).1
  have serving := running.serving frees stays
  have unanswered : s.history.answered = false := serving.unanswered first
  have form_eq : Form.accept = s.history.last.form := serving.form_eq
  have asks : s.client.asks = true :=
    (sound.unanswered unanswered).resolve_right (by simp [← form_eq])
  cases client : s.client with
  | asking call puts =>
    have last : call = s.history.last := sound.current call (congrArg ClientPc.served? client)
    have form : call.form = .accept := last ▸ form_eq.symm
    have suffix := sound.puts call puts client
    have flagged : (ClientPc.asking call puts).unflagged = false := client ▸ serving.flagged
    have done : puts = [] := by
      have flagLast : request .accept = (request .accept).dropLast ++ [.flag] := rfl
      rw [form, flagLast] at suffix
      rcases List.suffix_concat_iff.mp suffix with nil | ⟨init, rfl, _⟩
      · exact nil
      · simp [ClientPc.unflagged] at flagged
    rw [acceptWaits_iff]
    refine ⟨call, done ▸ client, form, serving.slot, ?_⟩
    by_contra posted
    rcases sound.posted .accept (Bool.not_eq_false _ ▸ posted) with socket | ⟨_, answered, _⟩
    · cases socket
    · cases unanswered.symm.trans answered
  | _ => cases client ▸ asks

/-- With no `accept` waiting, no descriptor is on its way. -/
theorem not_carries (sound : Sound s) (idle : s.acceptWaits = false) :
    s.monitor.pc.carries = false ∧ s.monitor.pc.stores = false := by
  cases pc : s.monitor.pc with
  | run loop form ops =>
    cases form with
    | accept =>
      have empty : (.post ∈ ops && called ops) = false := by
        by_contra carried
        rw [Bool.not_eq_false, Bool.and_eq_true] at carried
        have waits := sound.acceptWaits pc (of_decide_eq_true carried.1)
          (callOrLeave_not_mem carried.2)
        exact nomatch idle.symm.trans waits
      refine ⟨?_, empty⟩
      rw [MonitorPc.carries, Bool.and_assoc, empty, Bool.and_false]
    | _ => exact ⟨rfl, rfl⟩
  | _ => exact ⟨rfl, rfl⟩

end Sound

/-- The descriptors that have been returned and the one on its way are all there are. -/
structure Handed (s : State) : Prop extends Sound s where
  all : s.history.accepted = s.history.returned ++ s.inTransit

theorem handed_initial : Handed initial := { sound_initial with all := rfl }

/-- A step that does not touch what is on its way. -/
theorem State.inTransit_congr {s s' : State} (carries : s'.monitor.pc.carries = s.monitor.pc.carries)
    (stores : s'.monitor.pc.stores = s.monitor.pc.stores)
    (held : s.monitor.pc.carries = true → s'.monitor.ret = s.monitor.ret)
    (unread : s'.unread = s.unread) (ret : s'.box.ret .accept = s.box.ret .accept) :
    s.inTransit = s'.inTransit := by
  unfold inTransit
  rw [carries, stores, unread, ret]
  split
  case isTrue carried => rw [held carried]
  · rfl

/-! ## Where nothing is on its way -/

variable {pc : MonitorPc}

theorem empty_of_away (away : pc.away = true) : pc.carries = false ∧ pc.stores = false := by
  cases pc <;> first | exact ⟨rfl, rfl⟩ | cases away

theorem empty_of_done (done : ∀ loop form op rest, pc ≠ .run loop form (op :: rest)) :
    pc.carries = false ∧ pc.stores = false := by
  cases pc with
  | run loop form ops =>
    cases ops with
    | nil => cases form <;> exact ⟨rfl, rfl⟩
    | cons op rest => exact absurd rfl (done loop form op rest)
  | _ => exact ⟨rfl, rfl⟩

theorem empty_case (loop : Loop) (form : Form) :
    (run loop form (body loop form ++ closing loop form)).carries = false ∧
      (run loop form (body loop form ++ closing loop form)).stores = false := by
  cases loop <;> cases form <;> exact ⟨rfl, rfl⟩

theorem empty_closing (loop : Loop) (form : Form) :
    (run loop form (closing loop form)).carries = false ∧
      (run loop form (closing loop form)).stores = false := by
  cases loop <;> cases form <;> exact ⟨rfl, rfl⟩

theorem empty_of_uncalled (loop : Loop) {ops : List Op} (uncalled : called ops = false) :
    (run loop .accept ops).carries = false ∧
      (run loop .accept ops).stores = false := by
  simp [MonitorPc.carries, stores, uncalled]

/-- A step after `ff_accept` that neither writes nor posts the descriptor. -/
theorem carries_tail {s : State} {loop : Loop} {op : Op} {rest : List Op}
    (pc : s.monitor.pc = .run loop .accept (op :: rest)) (late : op.early = false)
    (notRet : Op.ret ≠ op) (notPost : Op.post ≠ op) :
    (run loop .accept rest).carries = s.monitor.pc.carries ∧
      (run loop .accept rest).stores = s.monitor.pc.stores := by
  simp [pc, MonitorPc.carries, stores, called, late, notRet, notPost]

/-! ## Steps of the client -/

section Collecting

variable {box : Mailbox} {monitor : Monitor} {history : History} {call : Call}
  {rest : List Get}

theorem inTransit_takeResponse (posted : box.respFlag call.form = true) :
    inTransit ⟨box, .asking call [], monitor, history⟩ =
      inTransit ⟨box, .collecting call (response call.form), monitor, history⟩ := by
  refine inTransit_congr rfl rfl (fun _ => rfl) ?_ rfl
  by_cases form : call.form = .accept
  · simp only [State.unread, ← form, posted, Bool.true_or]
  · simp [State.unread, ClientPc.returns, form]

/-- Clearing the flag loses no descriptor. -/
theorem inTransit_clear (gets : .clear :: rest <:+ response call.form) :
    State.inTransit ⟨box, .collecting call (.clear :: rest), monitor, history⟩ =
      State.inTransit ⟨box.setRespFlag call.form false, .collecting call rest, monitor,
        history⟩ := by
  refine State.inTransit_congr rfl rfl (fun _ => rfl) ?_ rfl
  by_cases form : call.form = .accept
  · -- the value is read after the flag is cleared
    have read : .ret ∈ rest := by
      rw [form] at gets
      rcases List.suffix_cons_iff.mp gets with same | short
      · obtain ⟨_, rfl⟩ := List.cons.inj same
        exact List.mem_singleton_self _
      · simp [List.suffix_cons_iff] at short
    simp [State.unread, ClientPc.returns, form, read]
  · simp [State.unread, ClientPc.returns, Mailbox.setRespFlag, Function.update_of_ne (symm form)]

theorem inTransit_out {field : Field} :
    inTransit ⟨box, .collecting call (.out field :: rest), monitor, history⟩ =
      inTransit ⟨box, .collecting call rest, monitor, history⟩ :=
  State.inTransit_congr rfl rfl (fun _ => rfl) (by simp [State.unread, ClientPc.returns]) rfl

theorem inTransit_finish :
    inTransit ⟨box, .collecting call [], monitor, history⟩ =
      inTransit ⟨box, .idle, monitor, history⟩ :=
  State.inTransit_congr rfl rfl (fun _ => rfl) (by simp [State.unread, ClientPc.returns]) rfl

/-- An `accept` returns the descriptor that was on its way. -/
theorem inTransit_ret (sound : Sound ⟨box, .collecting call (.ret :: rest), monitor, history⟩) :
    history.returned ++ State.inTransit ⟨box, .collecting call (.ret :: rest), monitor, history⟩ =
      (history.take call.form (box.ret call.form)).returned ++
        State.inTransit ⟨box, .collecting call rest, monitor,
          history.take call.form (box.ret call.form)⟩ := by
  by_cases form : call.form = .accept
  · obtain ⟨carries, stores⟩ := sound.not_carries rfl
    have gets := sound.gets call _ rfl
    have last : rest = [] := by
      rw [form] at gets
      simpa [response, List.suffix_cons_iff] using gets
    have cleared : box.respFlag .accept = false := by
      by_contra posted
      rcases sound.posted .accept (Bool.not_eq_false _ ▸ posted) with socket | ⟨_, _, unread⟩
      · cases socket
      · simp [ClientPc.unread, last] at unread
    simp [State.inTransit, State.unread, ClientPc.returns, History.take, form, carries, stores,
      last, cleared]
  · have returned : (history.take call.form (box.ret call.form)).returned = history.returned :=
      if_neg form
    rw [returned]
    congr 1
    exact State.inTransit_congr rfl rfl (fun _ => rfl)
      (by simp [State.unread, ClientPc.returns, form]) rfl

end Collecting

namespace Handed

variable {s : State}

/-- The hook hands on what the monitor has stored. -/
theorem client (handed : Handed s) (invocation : Invocation) :
    Handed (clientStep invocation s) := by
  refine { handed.toSound.client invocation with all := ?_ }
  obtain ⟨box, client, monitor, history⟩ := s
  have all := handed.all
  cases client with
  | idle | claiming _ => exact all
  | seeking call =>
    simp only [clientStep]
    split <;> exact all
  | asking call puts =>
    cases puts with
    | nil =>
      simp only [clientStep]
      split
      case isTrue posted => exact all.trans (congrArg _ (inTransit_takeResponse posted))
      · exact all
    | cons put rest => cases put <;> exact all
  | collecting call gets =>
    cases gets with
    | nil => exact all.trans (congrArg _ inTransit_finish)
    | cons get rest =>
      cases get with
      | clear => exact all.trans (congrArg _ (inTransit_clear (handed.gets call _ rfl)))
      | out field => exact all.trans (congrArg _ inTransit_out)
      | ret => exact all.trans (inTransit_ret handed.toSound)

/-- A step that leaves the response to `accept` and the client alone. -/
theorem keep {s' : State} (handed : Handed s)
    (carries : s'.monitor.pc.carries = s.monitor.pc.carries)
    (stores : s'.monitor.pc.stores = s.monitor.pc.stores)
    (held : s.monitor.pc.carries = true → s'.monitor.ret = s.monitor.ret)
    (client : s'.client = s.client)
    (respFlag : s'.box.respFlag .accept = s.box.respFlag .accept)
    (ret : s'.box.ret .accept = s.box.ret .accept)
    (accepted : s'.history.accepted = s.history.accepted)
    (returned : s'.history.returned = s.history.returned) :
    s'.history.accepted = s'.history.returned ++ s'.inTransit := by
  have unread : s'.unread = s.unread := by rw [State.unread, State.unread, client, respFlag]
  rw [accepted, returned, handed.all]
  exact congrArg _ (inTransit_congr carries stores held unread ret)

variable {loop : Loop} {form : Form} {op : Op} {rest : List Op} (handed : Handed s)

include handed

section

variable (env : Env)

/-- Cases for other forms do not concern `accept`. -/
theorem execOther (pc : s.monitor.pc = .run loop form (op :: rest)) (differs : form ≠ .accept) :
    (op.exec env loop form rest s).history.accepted =
      (op.exec env loop form rest s).history.returned ++
        (op.exec env loop form rest s).inTransit := by
  have empty (ops : List Op) : (run loop form ops).carries = false ∧
      (run loop form ops).stores = false := by
    cases form <;> first | exact ⟨rfl, rfl⟩ | exact absurd rfl differs
  have carries : s.monitor.pc.carries = false := pc ▸ (empty _).1
  have stores : s.monitor.pc.stores = false := pc ▸ (empty _).2
  have after : (op.exec env loop form rest s).monitor.pc.carries = false ∧
      (op.exec env loop form rest s).monitor.pc.stores = false := by
    rcases exec_pc with left | ⟨ops, pc'⟩
    · rw [left]
      exact ⟨rfl, rfl⟩
    · rw [pc']
      exact empty ops
  exact handed.keep (after.1.trans carries.symm) (after.2.trans stores.symm)
    (fun carried => nomatch carries.symm.trans carried) exec_client (exec_respFlag differs.symm)
    (exec_ret differs.symm) (exec_accepted differs) exec_returned

/-- A descriptor that was accepted is carried next. -/
theorem perform (waits : s.acceptWaits = true)
    (fresh : s.monitor.pc.carries = false ∧ s.monitor.pc.stores = false)
    (next : (MonitorPc.run loop .accept rest).carries = true) :
    (s.history.performed .accept env.result).accepted =
      s.history.returned ++ State.inTransit
        (((s.perform .accept env).setHistory (s.history.performed .accept env.result)).goto
          (.run loop .accept rest)) := by
  obtain ⟨call, client, _, _, silent⟩ := State.acceptWaits_iff.mp waits
  have before : s.inTransit = [] := by
    simp [State.inTransit, fresh, State.unread, silent, client, ClientPc.returns]
  have after : State.inTransit
      (((s.perform .accept env).setHistory (s.history.performed .accept env.result)).goto
        (.run loop .accept rest)) = [env.result] := if_pos next
  rw [after]
  change s.history.accepted ++ [env.result] = _
  rw [handed.all, before, List.append_nil]

/-- The descriptor goes from the monitor's variable into the mailbox. -/
theorem writeRet (pc : s.monitor.pc = .run loop .accept (.ret :: rest)) :
    s.history.accepted =
      s.history.returned ++ (Op.ret.exec env loop .accept rest s).inTransit := by
  obtain ⟨done, written, posts | connect⟩ := (handed.running pc).ordered.1
  · have before : s.inTransit = [s.monitor.ret] :=
      if_pos (by simp [pc, MonitorPc.carries, called_cons, done, posts, Op.early])
    refine handed.all.trans (congrArg _ (before.trans ?_))
    simp [Op.exec, inTransit, goto, setMonitor, Monitor.goto, setHistory,
      setBox, Mailbox.setRet, stores, done, posts]
  · cases connect

/-- Posting puts the descriptor on its way. -/
theorem post (pc : s.monitor.pc = .run loop .accept (.post :: rest)) :
    s.history.accepted =
      s.history.returned ++ (Op.post.exec env loop .accept rest s).inTransit := by
  obtain ⟨done, _, writes, again, _⟩ := (handed.running pc).ordered.1
  have written : .ret ∉ rest := fun member => nomatch writes member
  have once : .post ∉ rest := fun member => nomatch again member
  have before : s.inTransit = [s.box.ret .accept] := by
    simp [State.inTransit, pc, MonitorPc.carries, MonitorPc.stores, called_cons, done, written,
      Op.early]
  refine handed.all.trans (congrArg _ (before.trans ?_))
  simp [Op.exec, State.inTransit, State.goto, State.setMonitor, Monitor.goto, State.setHistory,
    State.setBox, Mailbox.setRespFlag, MonitorPc.carries, State.unread, once]

/-- No access of the monitor loses a descriptor. -/
theorem execAccept (pc : s.monitor.pc = .run loop .accept (op :: rest)) :
    (op.exec env loop .accept rest s).history.accepted =
      (op.exec env loop .accept rest s).history.returned ++
        (op.exec env loop .accept rest s).inTransit := by
  have ordered := (handed.running pc).ordered
  have early (early : op.early = true) :
      s.monitor.pc.carries = false ∧ s.monitor.pc.stores = false := by
    rw [pc]
    exact empty_of_uncalled loop (by simp [called, early])
  cases op with
  | arg _ | const _ _ =>
    have after := empty_of_uncalled loop ordered.1
    exact handed.keep (after.1.trans (early rfl).1.symm) (after.2.trans (early rfl).2.symm)
      (fun _ => rfl) rfl rfl rfl rfl rfl
  | call =>
    obtain ⟨done, _, writes, first⟩ := ordered.1
    have posts := mem_of_postFirst first
    have waits := handed.acceptWaits pc (List.mem_cons_of_mem _ posts)
      (by simpa using callOrLeave_not_mem done)
    exact handed.perform env waits (early rfl) (by simp [MonitorPc.carries, done, writes, posts])
  | callOrLeave =>
    obtain ⟨_, _, done, _, writes, first⟩ := ordered.1
    simp only [Op.exec]
    split
    · exact handed.keep (early rfl).1.symm (early rfl).2.symm
        (fun carried => absurd ((early rfl).1.symm.trans carried) Bool.false_ne_true) rfl rfl rfl rfl rfl
    · have accepts := handed.accepting (by simp [pc, accepting])
      exact handed.perform env accepts.1 (early rfl)
        (by simp [MonitorPc.carries, done, writes, mem_of_postFirst first])
  | ret => exact handed.writeRet env pc
  | post => exact handed.post env pc
  | register =>
    obtain ⟨_, _, _, once⟩ := ordered.1
    have same : ∀ next : MonitorPc, next = .pick ∨ next = .run loop .accept rest →
        next.carries = s.monitor.pc.carries ∧ next.stores = s.monitor.pc.stores := by
      rw [pc]
      rintro _ (rfl | rfl) <;> simp [MonitorPc.carries, stores, once]
    have same := same (if env.registered then .run loop .accept rest else .pick)
      (by split <;> simp)
    exact handed.keep same.1 same.2 (fun _ => rfl) rfl rfl rfl rfl rfl
  | callUntil => cases ordered.1.1
  | succeed => cases ordered.1
  | _ =>
    have same := carries_tail pc rfl (by rintro ⟨⟩) (by rintro ⟨⟩)
    exact handed.keep same.1 same.2 (fun _ => rfl) rfl rfl rfl rfl rfl

/-- No step of the monitor loses a descriptor. -/
theorem monitorStep (invited : Invited s (.monitor env)) : Handed (monitorStep env s) := by
  refine { handed.toSound.monitorStep env invited with all := ?_ }
  have moved := move env s
  generalize Preload.monitorStep env s = s' at moved
  cases moved with
  | stay => exact handed.all
  | @wander monitor away done =>
    have before := empty_of_done done
    have after := empty_of_away away
    exact handed.keep (after.1.trans before.1.symm) (after.2.trans before.2.symm)
      (fun carried => nomatch before.1.symm.trans carried) rfl rfl rfl rfl rfl
  | @see loop form pc =>
    have after : ∀ next : MonitorPc,
        next = .guard loop form ∨ next = .run loop form (body loop form ++ closing loop form) →
          next.carries = false ∧ next.stores = false := by
      rintro _ (rfl | rfl)
      · exact ⟨rfl, rfl⟩
      · exact empty_case loop form
    have after := after (if guarded form then .guard loop form
      else .run loop form (body loop form ++ closing loop form)) (by split <;> simp)
    exact handed.keep (after.1.trans (pc ▸ rfl)) (after.2.trans (pc ▸ rfl)) (fun _ => rfl) rfl
      rfl rfl rfl rfl
  | @enter loop form pc =>
    exact handed.keep ((empty_case loop form).1.trans (pc ▸ rfl))
      ((empty_case loop form).2.trans (pc ▸ rfl)) (fun _ => rfl) rfl rfl rfl rfl rfl
  | @drop loop form pc =>
    exact handed.keep ((empty_closing loop form).1.trans (pc ▸ rfl))
      ((empty_closing loop form).2.trans (pc ▸ rfl)) (fun _ => rfl) rfl rfl rfl rfl rfl
  | @exec loop form op rest pc =>
    by_cases accept : form = .accept
    · subst accept
      exact handed.execAccept env pc
    · exact handed.execOther env pc accept
  | listen pc | round pc =>
    exact handed.keep (pc ▸ rfl) (pc ▸ rfl) (fun _ => rfl) rfl rfl rfl rfl rfl

end

theorem step {input : Step} (invited : Invited s input) : Handed (step s input) := by
  cases input with
  | client invocation => exact handed.client invocation
  | monitor env => exact handed.monitorStep env invited

/-- No accepted descriptor is lost, overwritten or returned twice. -/
theorem acceptedOnce (input : Step) : AcceptedOnce s input := by
  refine ⟨fun _ accepts => ?_, fun _ writes => ?_, handed.all⟩
  · unfold MonitorPc.accepts at accepts
    split at accepts
    case h_1 loop rest pc =>
      obtain ⟨done, _, _, first⟩ := (handed.running pc).ordered.1
      exact handed.acceptWaits pc (List.mem_cons_of_mem _ (mem_of_postFirst first))
        (by simpa using callOrLeave_not_mem done)
    case h_2 loop rest pc => exact (handed.accepting (by simp [pc, accepting])).1
    · cases accepts
  · unfold MonitorPc.writes at writes
    split at writes
    case h_1 loop rest pc =>
      obtain ⟨done, _, posts | connect⟩ := (handed.running pc).ordered.1
      · have waits := handed.acceptWaits pc (List.mem_cons_of_mem _ posts)
          (by simpa using callOrLeave_not_mem done)
        obtain ⟨call, client, _, _, silent⟩ := acceptWaits_iff.mp waits
        simp [State.unread, silent, client, ClientPc.returns]
      · cases connect
    · cases writes

end Handed

/-- When the loop of a listener takes requests up only while an `accept` waits, every
connection goes to one `accept`. -/
theorem acceptedOnce_of_invited {inputs : List Step}
    (invited : Along step Invited initial inputs) :
    Along step AcceptedOnce initial inputs :=
  invited.imp Handed
    (fun _ input handed invited => ⟨handed.acceptedOnce input, handed.step invited⟩)
    handed_initial

/-- A client opens a socket and listens on it. -/
def listening : List Step :=
  clientRun .socket 3 8 ++ monitorRun 3 none 20 ++ clientRun .socket 3 4 ++
    clientRun .listen 3 7 ++ monitorRun 0 none 21 ++ clientRun .listen 3 4

/-- It accepts a connection. -/
def oneConnection : List Step :=
  listening ++ clientRun .accept 3 10 ++ monitorRun 9 (some (3, true, false)) 13 ++
    clientRun .accept 3 4

theorem acceptedOnce_oneConnection : Along step AcceptedOnce initial oneConnection :=
  acceptedOnce_of_invited (by decide +kernel)

/-- Two connections are pending, and the client is slow. -/
def twoConnections : List Step :=
  listening ++ clientRun .accept 3 10 ++ monitorRun 9 (some (3, true, false)) 13 ++
    monitorRun 10 none 10

theorem not_acceptedOnce_twoConnections : ¬Along step AcceptedOnce initial twoConnections := by
  decide +kernel

end FStack.Preload
