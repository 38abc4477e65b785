import FStack.Preload.Protocol

/-!
# The call that the client made

An F-Stack call should be the one that the client made, with its arguments. Five hooks set
the flag of their form before they write the arguments, so the monitor may find those of
an earlier call (`not_integral_earlyFlag`). Some arguments never arrive: lengths of
addresses and options are replaced by the size of the field, buffers are copied up to the
first zero byte, and `select` passes what it finds at the address of a pointer on its stack.
-/

namespace FStack.Preload

open List MonitorPc Steps

namespace Invocation

variable (invocation : Invocation)

/-- The length that goes with the buffer. -/
def length : Nat := (invocation.args .len).toInt.toNat

/-- The buffer up to its length is part of a C string that fits into the field. -/
def textCopied : Bool :=
  invocation.length ≤ (invocation.args .text).cString.length &&
    (invocation.args .text).cString.length ≤ maxBuff &&
    (invocation.args .text).toBytes.take invocation.length =
      (invocation.args .text).cString.take invocation.length

/-- Calls whose arguments survive the mailbox. -/
def plain : Bool :=
  match invocation.form with
  | .connect | .bind | .accept | .recvfrom => invocation.args .addrlen = .int sizeofSockaddrIn
  | .getsockopt => invocation.args .len = .int maxBuff
  | .select =>
    [Field.readfds, .writefds, .exceptfds].all fun field =>
      invocation.frame field = invocation.args field
  | .write | .send | .sendto | .setsockopt => invocation.textCopied
  | .socket | .close | .listen | .read | .recv => true

/-- The value of an argument is that of the call. Of a buffer, the part counts that the
length covers. -/
def agrees (field : Field) (value : Value) : Bool :=
  if field = .text then
    value.toBytes.take invocation.length =
      (invocation.args .text).toBytes.take invocation.length
  else value = invocation.args field

end Invocation

/-- The arguments of a call that F-Stack reads. -/
def inputs : Form → List Field
  | .socket => [.domain, .type, .protocol]
  | .close => [.fd]
  | .connect | .bind => [.fd, .sinAddr, .sinFamily, .sinPort, .addrlen]
  | .listen => [.fd, .backlog]
  | .read => [.fd, .len]
  | .write => [.fd, .text, .len]
  | .sendto => [.fd, .text, .len, .flags, .sinAddr, .sinFamily, .sinPort, .addrlen]
  | .recvfrom => [.fd, .len, .flags, .addrlen]
  | .recv => [.fd, .len, .flags]
  | .send => [.fd, .text, .len, .flags]
  | .setsockopt => [.fd, .level, .optionName, .text, .len]
  | .getsockopt => [.fd, .level, .optionName, .len]
  | .accept => [.fd, .addrlen]
  | .select => [.nfds, .readfds, .writefds, .exceptfds, .sec, .usec]

namespace ClientPc

/-- The writes of the request that are still to come. -/
def puts : ClientPc → List Put
  | .asking _ puts => puts
  | _ => []

def isIdle : ClientPc → Bool
  | .idle => true
  | _ => false

end ClientPc

/-- The monitor sees the flag of a request only after the request is written. -/
def State.awaitsWritten (s : State) : Bool :=
  match s.monitor.pc with
  | .await _ form => !s.box.flag form || s.client.puts = []
  | _ => true

/-- Calls are plain, requests are looked at when they are written, the loop of a listener takes
requests up only while an `accept` waits, and what is stored in buffers fits. -/
def Orderly (s : State) : Step → Prop
  | .client invocation =>
    (s.client.isIdle = true → invocation.plain = true) ∧ s.fits (.client invocation) = true
  | .monitor env =>
    Invited s (.monitor env) ∧ s.awaitsWritten = true ∧ s.fits (.monitor env) = true

instance (s : State) : ∀ input, Decidable (Orderly s input)
  | .client _ | .monitor _ => inferInstanceAs (Decidable (_ ∧ _))

/-- The form whose F-Stack call is the next step. -/
def MonitorPc.performs? : MonitorPc → Option Form
  | .run _ form (.call :: _) | .run _ form (.callUntil :: _) | .run _ form (.callOrLeave :: _) =>
    some form
  | _ => none

/-- The F-Stack call that is the next step is the last call of the client, which is not
answered yet, and has its arguments. -/
def Integral (s : State) (input : Step) : Prop :=
  input.monitors = true → ∀ form ∈ s.monitor.pc.performs?,
    form = s.history.last.form ∧ s.history.answered = false ∧
      (∀ field ∈ inputs form, field ∈ s.monitor.used.map Prod.fst) ∧
      ∀ entry ∈ s.monitor.used, entry.1 ∈ inputs form →
        s.history.last.agrees entry.1 entry.2 = true

instance (s : State) (input : Step) : Decidable (Integral s input) := by
  unfold Integral
  infer_instance

/-! ## What is in the mailbox -/

/-- The field that a write of a hook is about. -/
def Put.field? : Put → Option Field
  | .form | .flag => none
  | .text => some .text
  | .arg field | .const field _ | .frame field => some field

/-- The field that a parameter is about. -/
def Op.field? : Op → Option Field
  | .arg field | .const field _ => some field
  | _ => none

/-- A write of a request has been made. A buffer that F-Stack writes to is not looked
at. -/
def Wrote (box : Mailbox) (call : Call) : Put → Prop
  | .form | .flag => True
  | .arg field => box.arg call.form field = call.args field
  | .text =>
    .text ∈ results call.form ∨
      ∃ dst, box.arg call.form .text = strcpy dst (call.args .text)
  | .const field value => box.arg call.form field = .int value
  | .frame field => box.arg call.form field = call.frame field

/-- A value that has been read as an argument. -/
def ReadFrom (box : Mailbox) (form : Form) (entry : Field × Value) : Prop :=
  (.arg entry.1 ∈ parameters form ∧ entry.2 = box.arg form entry.1) ∨
    ∃ value, .const entry.1 value ∈ parameters form ∧ entry.2 = .int value

theorem field?_request_injective (form : Form) : ∀ put ∈ request form, ∀ other ∈ request form,
    put.field? ≠ none → put.field? = other.field? → put = other := by
  cases form <;> decide

theorem exists_put (form : Form) : ∀ field ∈ inputs form, .arg field ∈ parameters form →
    ∃ put ∈ request form, put.field? = some field := by
  cases form <;> decide

theorem exists_parameter (form : Form) : ∀ field ∈ inputs form,
    ∃ op ∈ parameters form, op.field? = some field := by
  cases form <;> decide

theorem parameter_of_mem (loop : Loop) (form : Form) :
    ∀ op ∈ body loop form ++ closing loop form, op.field? ≠ none → op ∈ parameters form := by
  cases loop <;> cases form <;> decide

/-! ## Arguments of a plain call -/

namespace Invocation

variable {invocation : Invocation} {field : Field} {value : Int}

theorem agrees_self (field : Field) : invocation.agrees field (invocation.args field) = true := by
  unfold agrees
  split
  case isTrue text => simp [text]
  · simp

section

variable (plain : invocation.plain = true)

include plain

theorem const_of_plain (written : .const field value ∈ request invocation.form ∨
      .const field value ∈ parameters invocation.form) : invocation.args field = .int value := by
  obtain ⟨form, args, frame⟩ := invocation
  cases form <;> simp_all [Invocation.plain, request, parameters]

theorem frame_of_plain (written : .frame field ∈ request invocation.form) :
    invocation.frame field = invocation.args field := by
  obtain ⟨form, args, frame⟩ := invocation
  cases form <;> simp [request] at written
  simp only [Invocation.plain, all_eq_true, decide_eq_true_eq] at plain
  exact plain field (by simpa using written)

theorem textCopied_of_plain (read : .text ∈ inputs invocation.form) :
    invocation.textCopied = true ∧ .text ∉ results invocation.form := by
  have copies : ∀ form, .text ∈ inputs form →
      form = .write ∨ form = .send ∨ form = .sendto ∨ form = .setsockopt := by
    intro form
    cases form <;> decide
  unfold Invocation.plain at plain
  rcases copies _ read with form | form | form | form <;> rw [form] at plain ⊢ <;>
    exact ⟨plain, by decide⟩

end

theorem agrees_strcpy (copied : invocation.textCopied = true) (dst : Value) :
    invocation.agrees .text (strcpy dst (invocation.args .text)) = true := by
  simp only [textCopied, Bool.and_eq_true, decide_eq_true_eq] at copied
  obtain ⟨⟨covered, _⟩, same⟩ := copied
  simp only [agrees, if_true, decide_eq_true_eq]
  rw [same, strcpy, Value.toBytes, take_append_of_le_length covered]

end Invocation

section Writes

variable {call : Call} {field : Field} {put : Put}

/-- What a plain call has written is its argument. -/
theorem agrees_of_wrote {box : Mailbox} (plain : call.plain = true)
    (member : put ∈ request call.form) (about : put.field? = some field)
    (read : field ∈ inputs call.form) (wrote : Wrote box call put) :
    call.agrees field (box.arg call.form field) = true := by
  cases put with
  | form | flag => cases about
  | arg field =>
    cases about
    rw [show box.arg call.form field = call.args field from wrote]
    exact call.agrees_self field
  | text =>
    cases about
    obtain ⟨copied, unchanged⟩ := call.textCopied_of_plain plain read
    obtain ⟨dst, eq⟩ := wrote.resolve_left unchanged
    rw [eq]
    exact call.agrees_strcpy copied dst
  | const field value =>
    cases about
    rw [show box.arg call.form field = .int value from wrote,
      ← call.const_of_plain plain (.inl member)]
    exact call.agrees_self field
  | frame field =>
    cases about
    rw [show box.arg call.form field = call.frame field from wrote,
      call.frame_of_plain plain member]
    exact call.agrees_self field

/-! ## Writing a request -/

theorem Wrote.congr {box box' : Mailbox}
    (same : ∀ field, put.field? = some field → box'.arg call.form field = box.arg call.form field)
    (wrote : Wrote box call put) : Wrote box' call put := by
  cases put with
  | form | flag => trivial
  | text =>
    refine wrote.imp_right ?_
    rintro ⟨dst, eq⟩
    exact ⟨dst, (same _ rfl).trans eq⟩
  | arg _ | const _ _ | frame _ => exact (same _ rfl).trans wrote

/-- What the hook puts is in the mailbox. -/
theorem wrote_exec (put : Put) (call : Call) (s : State) :
    Wrote (put.exec call s).box call put := by
  have written (field : Field) (value : Value) :
      (s.box.setArg call.form field value).arg call.form field = value := by
    simp [Mailbox.setArg]
  cases put with
  | form | flag => trivial
  | text => exact .inr ⟨_, written _ _⟩
  | arg _ | const _ _ | frame _ => exact written _ _

theorem exec_arg_of_ne (other : put.field? ≠ some field) (call : Call) (s : State) :
    (put.exec call s).box.arg call.form field = s.box.arg call.form field := by
  have kept {written : Field} (differs : written ≠ field) (value : Value) :
      (s.box.setArg call.form written value).arg call.form field = s.box.arg call.form field := by
    simp [Mailbox.setArg, Function.update_of_ne differs.symm]
  cases put with
  | form | flag => rfl
  | text | arg _ | const _ _ | frame _ => exact kept (fun same => other (congrArg some same)) _

theorem exec_frame (put : Put) (call : Call) (s : State) :
    (put.exec call s).history.last = s.history.last ∧
      (put.exec call s).history.answered = s.history.answered ∧
      (put.exec call s).box.formFlag = s.box.formFlag ∧
      (put.exec call s).monitor = s.monitor := by
  cases put <;> exact ⟨rfl, rfl, rfl, rfl⟩

/-- One write of a request leaves the others alone. -/
theorem Wrote.exec {s : State} {other : Put} (member : put ∈ request call.form)
    (member' : other ∈ request call.form) (differs : other ≠ put) (wrote : Wrote s.box call other) :
    Wrote (put.exec call s).box call other := by
  refine wrote.congr fun field about => exec_arg_of_ne (fun same => differs ?_) call s
  exact field?_request_injective call.form other member' put member
    (by simp [about]) (about.trans same.symm)

/-! ## The invariant -/

/-- The monitor serves a request and has not made the F-Stack call. -/
def MonitorPc.preparing : MonitorPc → Bool
  | .guard _ _ => true
  | .run _ _ ops => !called ops
  | _ => false

/-- The monitor serves a request and has made the F-Stack call. -/
def MonitorPc.performed : MonitorPc → Bool
  | .run _ _ ops => called ops && .free ∈ ops
  | _ => false

/-- Arguments that are still to be read, and those that have been. -/
structure Reading (box : Mailbox) (form : Form) (ops : List Op) (used : List (Field × Value)) :
    Prop where
  parameter : ∀ op ∈ ops, op.field? ≠ none → op ∈ parameters form
  read : ∀ entry ∈ used, ReadFrom box form entry
  all : ∀ op ∈ parameters form, ∀ field ∈ op.field?, op ∈ ops ∨ field ∈ used.map Prod.fst

/-- What holds when the arguments arrive. -/
structure Honest (s : State) : Prop extends Sound s where
  plain : s.history.last.plain = true
  next : ∀ call, s.client.seeks? = some call → call.plain = true
  wrote : s.box.formFlag = true → s.history.answered = false →
    s.monitor.pc.performed = false →
    ∀ put ∈ request s.history.last.form, put ∈ s.client.puts ∨ Wrote s.box s.history.last put
  written : s.monitor.pc.preparing = true → s.client.puts = []
  reading : ∀ loop form ops, s.monitor.pc = .run loop form ops → called ops = false →
    Reading s.box form ops s.monitor.used
  cleared : ∀ loop form, s.monitor.pc = .guard loop form → s.monitor.used = []
  fresh : s.monitor.pc = .acceptFd → s.monitor.used = []

/-- At the start nothing has been asked. -/
theorem honest_initial : Honest initial :=
  { sound_initial with
    plain := rfl
    next := nofun
    wrote := nofun
    written := nofun
    reading := nofun
    cleared := nofun
    fresh := nofun }

/-- A `recv` that is tried again finds its request as it was. -/
theorem Wrote.retry {s : State} (form_eq : call.form = .recv) (member : put ∈ request call.form)
    (env : Env) (wrote : Wrote s.box call put) : Wrote (s.perform .recv env).box call put := by
  have apart : ∀ put ∈ request .recv, put = .text ∨ put.field? ≠ some .text := by decide
  rcases apart put (form_eq ▸ member) with rfl | other
  · exact .inl (by rw [form_eq]; decide)
  · refine wrote.congr fun field about => ?_
    have differs : field ∉ results .recv := by
      intro member
      rw [about, mem_singleton.mp member] at other
      exact other rfl
    rw [form_eq]
    simp [State.perform, State.setBox, State.setMonitor, Mailbox.setArgs, differs]

theorem parameters_subset_case (loop : Loop) (form : Form) :
    ∀ op ∈ parameters form, op ∈ body loop form ++ closing loop form := by
  intro op member
  simp [body, member]

theorem called_closing (loop : Loop) (form : Form) : called (closing loop form) = true := by
  cases loop <;> cases form <;> rfl

theorem early_of_field? {op : Op} (about : op.field? = some field) : op.early = true := by
  cases op <;> first | rfl | cases about

end Writes

namespace Honest

variable {s s' : State}

/-- While the monitor prepares a call, no call takes the slot. -/
theorem not_preparing_of_claiming (honest : Honest s) {call : Call}
    (client : s.client = .claiming call) : s.monitor.pc.preparing = false := by
  have free := honest.claiming call client
  cases pc : s.monitor.pc with
  | guard loop form => cases free.symm.trans (honest.taken pc).1.slot
  | run loop form ops =>
    have running := honest.running pc
    by_contra uncalled
    have uncalled : called ops = false := by simpa [preparing] using uncalled
    have frees := running.ordered.free_mem uncalled
    by_cases stays : .callOrLeave ∈ ops
    · have accepts := honest.accepting (by simp [pc, accepting, stays])
      obtain ⟨_, waiting, _⟩ := State.acceptWaits_iff.mp accepts.1
      cases client.symm.trans waiting
    · cases free.symm.trans (running.serving frees stays).slot
  | _ => rfl

/-- Accesses beside the arguments keep them. -/
theorem keep (honest : Honest s) (sound : Sound s') (arg : s'.box.arg = s.box.arg)
    (formFlag : s'.box.formFlag = s.box.formFlag) (monitor : s'.monitor = s.monitor)
    (last : s'.history.last = s.history.last)
    (answered : s'.history.answered = s.history.answered)
    (puts : s'.client.puts = s.client.puts)
    (next : ∀ call, s'.client.seeks? = some call → call.plain = true) : Honest s' :=
  { sound with
    plain := last ▸ honest.plain
    next := next
    wrote := by
      rw [formFlag, answered, monitor, last, puts]
      intro slot unanswered before put member
      refine (honest.wrote slot unanswered before put member).imp_right (Wrote.congr ?_)
      exact fun field _ => by rw [arg]
    written := by rw [monitor, puts]; exact honest.written
    reading := by
      rw [monitor]
      intro loop form ops pc uncalled
      obtain ⟨parameter, read, all⟩ := honest.reading loop form ops pc uncalled
      exact ⟨parameter, fun entry member => by rw [ReadFrom, arg]; exact read entry member, all⟩
    cleared := by rw [monitor]; exact honest.cleared
    fresh := by rw [monitor]; exact honest.fresh }

variable {box : Mailbox} {monitor : Monitor} {history : History} {call : Call}

/-- The hook that has the slot is the only one to write. -/
theorem claim (honest : Honest ⟨box, .claiming call, monitor, history⟩)
    (sound : Sound ⟨box.setFormFlag true, .asking call (request call.form), monitor,
      history.claim call⟩) :
    Honest ⟨box.setFormFlag true, .asking call (request call.form), monitor,
      history.claim call⟩ := by
  have idle : monitor.pc.preparing = false := honest.not_preparing_of_claiming rfl
  exact { sound with
    plain := honest.next call rfl
    next := nofun
    wrote := fun _ _ _ put member => .inl member
    written := fun preparing => nomatch idle.symm.trans preparing
    reading := fun loop form ops pc uncalled => by
      rw [show monitor.pc = _ from pc, preparing, uncalled] at idle
      cases idle
    cleared := honest.cleared
    fresh := honest.fresh }

/-- The client writes a part of its request. The monitor is not preparing a call. -/
theorem put {put : Put} {rest : List Put} (honest : Honest s)
    (client : s.client = .asking call (put :: rest))
    (sound : Sound ((put.exec call s).setClient (.asking call rest))) :
    Honest ((put.exec call s).setClient (.asking call rest)) := by
  have call_eq : call = s.history.last :=
    honest.current call (congrArg ClientPc.served? client)
  have member : put ∈ request call.form :=
    (honest.puts call _ client).sublist.subset mem_cons_self
  have idle : s.monitor.pc.preparing = false := by
    by_contra preparing
    have puts := honest.written (Bool.not_eq_false _ ▸ preparing)
    rw [client] at puts
    cases puts
  obtain ⟨last, answered, formFlag, monitor⟩ := exec_frame put call s
  refine { sound with
    plain := ?_
    next := nofun
    wrote := ?_
    written := ?_
    reading := ?_
    cleared := ?_
    fresh := ?_ } <;> simp only [State.setClient, last, answered, formFlag, monitor]
  · exact honest.plain
  · intro slot unanswered before other other_mem
    rw [← call_eq] at other_mem ⊢
    have earlier := honest.wrote slot unanswered before other (call_eq ▸ other_mem)
    rw [client, ← call_eq] at earlier
    by_cases same : other = put
    · exact .inr (same ▸ wrote_exec put call s)
    · exact earlier.imp (fun member => (mem_cons.mp member).resolve_left same)
        (Wrote.exec member other_mem same)
  · exact fun preparing => nomatch idle.symm.trans preparing
  · intro loop form ops pc uncalled
    rw [pc, preparing, uncalled] at idle
    cases idle
  · exact honest.cleared
  · exact honest.fresh

/-- Every access of the hook keeps the arguments its own. -/
theorem client (honest : Honest s) (invocation : Invocation)
    (plain : s.client.isIdle = true → invocation.plain = true) :
    Honest (clientStep invocation s) := by
  have sound := honest.toSound.client invocation
  obtain ⟨box, client, monitor, history⟩ := s
  cases client with
  | idle =>
    refine honest.keep sound rfl rfl rfl rfl rfl rfl ?_
    rintro _ ⟨⟩
    exact plain rfl
  | seeking call =>
    simp only [clientStep] at sound ⊢
    split
    · exact honest
    case isFalse free =>
      rw [if_neg free] at sound
      exact honest.keep sound rfl rfl rfl rfl rfl rfl honest.next
  | claiming call => exact honest.claim sound
  | asking call puts =>
    cases puts with
    | nil =>
      simp only [clientStep] at sound ⊢
      split
      case isTrue posted =>
        rw [if_pos posted] at sound
        exact honest.keep sound rfl rfl rfl rfl rfl rfl (by rintro _ ⟨⟩)
      · exact honest
    | cons put rest => exact honest.put rfl sound
  | collecting call gets =>
    cases gets with
    | nil => exact honest.keep sound rfl rfl rfl rfl rfl rfl (by rintro _ ⟨⟩)
    | cons get rest =>
      cases get <;> exact honest.keep sound rfl rfl rfl rfl rfl rfl (by rintro _ ⟨⟩)

/-! ## Steps of the monitor -/

variable {loop : Loop} {form : Form} {op : Op} {ops rest : List Op} (honest : Honest s)

include honest

section

variable (sound : Sound s') (before : s.monitor.pc.performed = false)
  (client : s'.client = s.client) (last : s'.history.last = s.history.last)
  (answered : s'.history.answered = s.history.answered)

include sound before client last answered

/-- The monitor goes where it serves nothing. -/
theorem leave (away : s'.monitor.pc.away = true) (box : s'.box = s.box) : Honest s' := by
  have idle : s'.monitor.pc.preparing = false := by
    revert away
    cases s'.monitor.pc <;> first | exact fun _ => rfl | nofun
  exact { sound with
    plain := last ▸ honest.plain
    next := by rw [client]; exact honest.next
    wrote := by
      rw [box, answered, last, client]
      exact fun slot unanswered _ => honest.wrote slot unanswered before
    written := fun preparing => nomatch idle.symm.trans preparing
    reading := fun loop form ops pc => absurd pc (ne_run_of_away away loop form ops)
    cleared := fun loop form pc => by rw [pc] at away; cases away
    fresh := fun pc => by rw [pc] at away; cases away }

/-- A case begins, or begins again, and none of its arguments has been read. -/
theorem start (pc' : s'.monitor.pc = .run loop form ops) (used : s'.monitor.used = [])
    (puts : s.client.puts = []) (whole : ∀ op ∈ parameters form, op ∈ ops)
    (only : ∀ op ∈ ops, op.field? ≠ none → op ∈ parameters form)
    (wrote : ∀ put ∈ request s.history.last.form, Wrote s.box s.history.last put →
      Wrote s'.box s.history.last put) (formFlag : s'.box.formFlag = s.box.formFlag) :
    Honest s' :=
  { sound with
    plain := last ▸ honest.plain
    next := by rw [client]; exact honest.next
    wrote := by
      rw [formFlag, answered, last, client]
      exact fun slot unanswered _ put member =>
        (honest.wrote slot unanswered before put member).imp_right (wrote put member)
    written := fun _ => client ▸ puts
    reading := by
      intro _ _ _ running _
      cases running.symm.trans pc'
      rw [used]
      exact ⟨only, nofun, fun op member _ _ => .inl (whole op member)⟩
    cleared := fun _ _ guarding => nomatch guarding.symm.trans pc'
    fresh := fun listening => nomatch listening.symm.trans pc' }

/-- The descriptor of a request is about to be looked at, or that of an `accept` in the loop
of a listener. -/
theorem check (pc' : (∃ loop form, s'.monitor.pc = .guard loop form) ∧ s.client.puts = [] ∨
      s'.monitor.pc = .acceptFd) (used : s'.monitor.used = []) (box : s'.box = s.box) :
    Honest s' :=
  { sound with
    plain := last ▸ honest.plain
    next := by rw [client]; exact honest.next
    wrote := by
      rw [box, answered, last, client]
      exact fun slot unanswered _ => honest.wrote slot unanswered before
    written := fun preparing => by
      rcases pc' with ⟨_, puts⟩ | listening
      · exact client ▸ puts
      · rw [listening] at preparing
        cases preparing
    reading := by
      intro _ _ _ running
      rcases pc' with ⟨⟨_, _, guarding⟩, _⟩ | listening
      · cases running.symm.trans guarding
      · cases running.symm.trans listening
    cleared := fun _ _ _ => used
    fresh := fun _ => used }

end

/-- A step of a case that has nothing to do with arguments. -/
theorem advance (sound : Sound s') (pc : s.monitor.pc = .run loop form (op :: rest))
    (pc' : s'.monitor.pc = .run loop form rest) (late : op.early = false)
    (arg : s'.box.arg = s.box.arg) (used : s'.monitor.used = s.monitor.used)
    (client : s'.client = s.client) (last : s'.history.last = s.history.last)
    (earlier : s'.box.formFlag = true → s'.history.answered = false →
      op ≠ .free ∧ s.box.formFlag = true ∧ s.history.answered = false) : Honest s' := by
  have same : called (op :: rest) = called rest := by simp [called, late]
  exact { sound with
    plain := last ▸ honest.plain
    next := by rw [client]; exact honest.next
    wrote := by
      intro slot unanswered before
      obtain ⟨keeps, slot, unanswered⟩ := earlier slot unanswered
      have before : s.monitor.pc.performed = false := by
        rw [pc'] at before
        rw [pc]
        simpa [performed, same, keeps.symm] using before
      rw [last, client]
      intro put member
      refine (honest.wrote slot unanswered before put member).imp_right (Wrote.congr ?_)
      exact fun field _ => by rw [arg]
    written := by
      rw [pc', client, preparing, ← same]
      exact fun preparing => honest.written (by rw [pc]; exact preparing)
    reading := by
      intro _ _ _ running uncalled
      cases running.symm.trans pc'
      obtain ⟨parameter, read, all⟩ := honest.reading loop form _ pc (same.trans uncalled)
      refine ⟨fun op member => parameter op (mem_cons_of_mem _ member), ?_, ?_⟩
      · rw [used]
        exact fun entry member => by rw [ReadFrom, arg]; exact read entry member
      · rw [used]
        intro other member field about
        refine (all other member field about).imp_left fun member => ?_
        refine (mem_cons.mp member).resolve_left ?_
        rintro rfl
        cases late.symm.trans (early_of_field? about)
    cleared := fun _ _ guarding => by cases guarding.symm.trans pc'
    fresh := fun listening => by cases listening.symm.trans pc' }

/-- After the call the arguments are not read again. -/
theorem perform (sound : Sound s') (pc' : s'.monitor.pc = .run loop form rest)
    (done : called rest = true) (frees : .free ∈ rest) (client : s'.client = s.client)
    (last : s'.history.last = s.history.last) : Honest s' := by
  have performed : s'.monitor.pc.performed = true := by
    simp [pc', performed, done, frees]
  exact { sound with
    plain := last ▸ honest.plain
    next := by rw [client]; exact honest.next
    wrote := fun _ _ before => nomatch before.symm.trans performed
    written := fun preparing => by simp [pc', MonitorPc.preparing, done] at preparing
    reading := by
      intro _ _ _ running uncalled
      cases running.symm.trans pc'
      cases done.symm.trans uncalled
    cleared := fun _ _ guarding => nomatch guarding.symm.trans pc'
    fresh := fun listening => nomatch listening.symm.trans pc' }

/-- A parameter that is read is the one that was written. -/
theorem parameter {field : Field} {value : Value} (pc : s.monitor.pc = .run loop form (op :: rest))
    (about : op.field? = some field)
    (read : op ∈ parameters form → ReadFrom s.box form (field, value))
    (sound : Sound ((s.setMonitor (s.monitor.setUsed (s.monitor.used ++ [(field, value)]))).goto
      (.run loop form rest))) :
    Honest ((s.setMonitor (s.monitor.setUsed (s.monitor.used ++ [(field, value)]))).goto
      (.run loop form rest)) := by
  have before : called (op :: rest) = false := by simp [called, early_of_field? about]
  have reading := honest.reading loop form _ pc before
  exact { sound with
    plain := honest.plain
    next := honest.next
    wrote := fun slot unanswered _ =>
      honest.wrote slot unanswered (by simp [pc, performed, before])
    written := fun _ => honest.written (by simp [pc, preparing, before])
    reading := by
      rintro _ _ _ ⟨⟩ _
      refine ⟨fun op member => reading.parameter op (mem_cons_of_mem _ member), ?_, ?_⟩
      · intro entry member
        rcases mem_append.mp member with member | member
        · exact reading.read entry member
        · rw [mem_singleton.mp member]
          exact read (reading.parameter op mem_cons_self (by simp [about]))
      · intro other member field' about'
        change other ∈ rest ∨ field' ∈ (s.monitor.used ++ [(field, value)]).map Prod.fst
        rw [map_append, mem_append]
        rcases reading.all other member field' about' with member | done
        · rcases mem_cons.mp member with rfl | member
          · obtain rfl : field' = field := Option.some.inj (about'.symm.trans about)
            exact .inr (.inr (mem_singleton_self _))
          · exact .inl member
        · exact .inr (.inl done)
    cleared := by rintro _ _ ⟨⟩
    fresh := by rintro ⟨⟩ }

/-- The loop of `accept` calls with the same arguments. -/
theorem callUntil (env : Env) (sound : Sound (Op.callUntil.exec env loop form rest s))
    (pc : s.monitor.pc = .run loop form (.callUntil :: rest)) :
    Honest (Op.callUntil.exec env loop form rest s) := by
  have running := honest.running pc
  obtain ⟨rfl, done, frees, _⟩ := running.ordered.1
  by_cases retry : env.result ≤ 0
  · have serving := running.serving (mem_cons_of_mem _ frees)
      (by simpa using callOrLeave_not_mem done)
    have reading := honest.reading _ _ _ pc rfl
    refine honest.start sound (by rw [pc]; rfl) rfl rfl rfl (by simp only [Op.exec, retry]; rfl) rfl
      (honest.written (by rw [pc]; rfl)) (fun op member => mem_append_left _ member) ?_
      (fun put member => Wrote.retry serving.form_eq.symm member env) rfl
    intro op member about
    exact (mem_append.mp member).elim id fun member => reading.parameter op member about
  · exact honest.perform sound (by simp only [Op.exec, retry]; rfl) done frees rfl rfl

theorem post (env : Env) (sound : Sound (Op.post.exec env loop form rest s))
    (pc : s.monitor.pc = .run loop form (.post :: rest)) :
    Honest (Op.post.exec env loop form rest s) := by
  refine honest.advance sound pc rfl rfl rfl rfl rfl rfl ?_
  intro slot unanswered
  refine ⟨nofun, slot, ?_⟩
  by_contra answered
  have answered : s.history.answered = true := Bool.not_eq_false _ ▸ answered
  have still : s.history.post.answered = true := (History.post_again (.inl answered)).trans answered
  exact nomatch unanswered.symm.trans still

/-- Every access of the monitor keeps the arguments honest. -/
theorem exec (env : Env) (sound : Sound (op.exec env loop form rest s))
    (pc : s.monitor.pc = .run loop form (op :: rest)) : Honest (op.exec env loop form rest s) := by
  have ordered := (honest.running pc).ordered.1
  cases op with
  | arg field => exact honest.parameter pc rfl (fun member => .inl ⟨member, rfl⟩) sound
  | const field value => exact honest.parameter pc rfl (fun member => .inr ⟨value, member, rfl⟩) sound
  | call => exact honest.perform sound rfl ordered.1 ordered.2.1 rfl rfl
  | callUntil => exact honest.callUntil env sound pc
  | callOrLeave =>
    simp only [Op.exec] at sound ⊢
    split
    case isTrue refused =>
      rw [if_pos refused] at sound
      exact honest.leave sound (by rw [pc]; rfl) rfl rfl rfl rfl rfl
    case isFalse granted =>
      rw [if_neg granted] at sound
      exact honest.perform sound rfl ordered.2.2.1 ordered.2.2.2.1 rfl rfl
  | post => exact honest.post env sound pc
  | free => exact honest.advance sound pc rfl rfl rfl rfl rfl rfl (by rintro ⟨⟩)
  | register =>
    cases done : env.registered with
    | true =>
      exact honest.advance sound pc (by simp only [Op.exec, done]; rfl) rfl rfl rfl
        rfl rfl fun slot unanswered => ⟨by rintro ⟨⟩, slot, unanswered⟩
    | false =>
      refine honest.leave sound ?_ rfl rfl rfl (by simp only [Op.exec, done]; rfl) rfl
      simp [pc, performed, ordered.2.1]
  | _ =>
    exact honest.advance sound pc rfl rfl rfl rfl rfl rfl
      fun slot unanswered => ⟨by rintro ⟨⟩, slot, unanswered⟩

/-- Every step of the monitor keeps the arguments honest. -/
theorem monitorStep (env : Env) (invited : Invited s (.monitor env))
    (awaits : s.awaitsWritten = true) : Honest (monitorStep env s) := by
  have sound := honest.toSound.monitorStep env invited
  have moved := move env s
  generalize Preload.monitorStep env s = s' at moved sound ⊢
  cases moved with
  | stay => exact honest
  | wander away done =>
    refine honest.leave sound ?_ rfl rfl rfl away rfl
    cases pc : s.monitor.pc with
    | run loop form ops =>
      cases ops with
      | nil => rfl
      | cons op rest => exact absurd pc (done loop form op rest)
    | _ => rfl
  | @see loop form pc flagged =>
    have puts : s.client.puts = [] := by
      simpa [State.awaitsWritten, pc, flagged] using awaits
    have before : s.monitor.pc.performed = false := by rw [pc]; rfl
    cases checked : guarded form with
    | true =>
      simp only [checked] at sound ⊢
      exact honest.check sound before rfl rfl rfl (.inl ⟨⟨loop, form, rfl⟩, puts⟩) rfl rfl
    | false =>
      simp only [checked] at sound ⊢
      exact honest.start sound before rfl rfl rfl rfl rfl puts (parameters_subset_case loop form)
        (parameter_of_mem loop form) (fun _ _ => id) rfl
  | @enter loop form pc =>
    exact honest.start sound (by rw [pc]; rfl) rfl rfl rfl rfl (honest.cleared loop form pc)
      (honest.written (by rw [pc]; rfl)) (parameters_subset_case loop form)
      (parameter_of_mem loop form) (fun _ _ => id) rfl
  | @drop loop form pc =>
    exact honest.perform sound rfl (called_closing loop form) (free_mem_closing loop form)
      rfl rfl
  | exec pc => exact honest.exec env sound pc
  | listen pc =>
    exact honest.check sound (by rw [pc]; rfl) rfl rfl rfl (.inr rfl) rfl rfl
  | round pc =>
    obtain ⟨_, client, _⟩ := State.acceptWaits_iff.mp (honest.accepting (by rw [pc]; rfl)).1
    exact honest.start sound (by rw [pc]; rfl) rfl rfl rfl rfl (honest.fresh pc)
      (congrArg ClientPc.puts client) (by decide) (by decide) (fun _ _ => id) rfl

theorem step {input : Step} (orderly : Orderly s input) : Honest (step s input) := by
  cases input with
  | client invocation => exact honest.client invocation orderly.1
  | monitor env => exact honest.monitorStep env orderly.1 orderly.2.1

/-- What has been read when the F-Stack call is made. -/
theorem agrees (pc : s.monitor.pc = .run loop form ops) (uncalled : called ops = false)
    (form_eq : form = s.history.last.form) (slot : s.box.formFlag = true)
    (unanswered : s.history.answered = false) {entry : Field × Value}
    (member : entry ∈ s.monitor.used) (read : entry.1 ∈ inputs form) :
    s.history.last.agrees entry.1 entry.2 = true := by
  have puts : s.client.puts = [] := honest.written (by simp [pc, preparing, uncalled])
  have wrote := honest.wrote slot unanswered (by simp [pc, performed, uncalled])
  subst form_eq
  rcases (honest.reading loop _ ops pc uncalled).read entry member with
    ⟨parameter, eq⟩ | ⟨value, parameter, eq⟩
  · obtain ⟨put, asked, about⟩ := exists_put _ entry.1 read parameter
    have written := (wrote put asked).resolve_left (by simp [puts])
    rw [eq]
    exact agrees_of_wrote honest.plain asked about read written
  · rw [eq, ← Invocation.const_of_plain honest.plain (.inr parameter)]
    exact s.history.last.agrees_self entry.1

section

variable (pc : s.monitor.pc = .run loop form (op :: rest)) (early : op.early = true)
  (about : op.field? = none) (done : called rest = true)

include pc early about done

/-- All arguments have been read when the F-Stack call is made. -/
theorem covers {field : Field} (read : field ∈ inputs form) :
    field ∈ s.monitor.used.map Prod.fst := by
  have uncalled : called (op :: rest) = false := by simp [called, early]
  obtain ⟨parameter, member, eq⟩ := exists_parameter form field read
  refine ((honest.reading loop form _ pc uncalled).all parameter member field eq).resolve_left ?_
  intro later
  rcases mem_cons.mp later with rfl | later
  · cases about.symm.trans eq
  · have := all_eq_true.mp done parameter later
    rw [early_of_field? eq] at this
    cases this

theorem performs (form_eq : form = s.history.last.form) (slot : s.box.formFlag = true)
    (unanswered : s.history.answered = false) :
    form = s.history.last.form ∧ s.history.answered = false ∧
      (∀ field ∈ inputs form, field ∈ s.monitor.used.map Prod.fst) ∧
      ∀ entry ∈ s.monitor.used, entry.1 ∈ inputs form →
        s.history.last.agrees entry.1 entry.2 = true := by
  have uncalled : called (op :: rest) = false := by simp [called, early]
  exact ⟨form_eq, unanswered, fun _ read => honest.covers pc early about done read,
    fun _ member read => honest.agrees pc uncalled form_eq slot unanswered member read⟩

end

/-- The next F-Stack call is the client's last one, with its arguments. -/
theorem integral (input : Step) : Integral s input := by
  intro _ form performs
  -- a request that is served has no answer before the call
  have serve {loop form op rest} (pc : s.monitor.pc = .run loop form (op :: rest))
      (done : called rest = true) (frees : .free ∈ rest) (other : op ≠ .callOrLeave)
      (first : postFirst (op :: rest) = true) :
      form = s.history.last.form ∧ s.box.formFlag = true ∧ s.history.answered = false := by
    have serving := (honest.running pc).serving (mem_cons_of_mem _ frees)
      (by simpa [other.symm] using callOrLeave_not_mem done)
    exact ⟨serving.form_eq, serving.slot, serving.unanswered first⟩
  unfold performs? at performs
  split at performs <;> cases performs
  case h_1 loop rest pc =>
    obtain ⟨done, frees, _, first⟩ := (honest.running pc).ordered.1
    obtain ⟨form_eq, slot, unanswered⟩ := serve pc done frees nofun first
    exact honest.performs pc rfl rfl done form_eq slot unanswered
  case h_2 loop rest pc =>
    obtain ⟨_, done, frees, first⟩ := (honest.running pc).ordered.1
    obtain ⟨form_eq, slot, unanswered⟩ := serve pc done frees nofun first
    exact honest.performs pc rfl rfl done form_eq slot unanswered
  case h_3 loop rest pc =>
    obtain ⟨_, rfl, done, _⟩ := (honest.running pc).ordered.1
    have accepts := honest.accepting (by simp [pc, accepting])
    obtain ⟨form_eq, unanswered, slot, _⟩ := honest.of_acceptWaits accepts.1
    exact honest.performs pc rfl rfl done form_eq.symm slot unanswered

end Honest

/-- A client opens a socket and closes it. The monitor looks at a request when it is
written. -/
def openClose : List Step :=
  clientRun .socket 3 8 ++ monitorRun 3 none 20 ++ clientRun .socket 3 4 ++
    clientRun .close 3 6 ++ monitorRun 0 none 12

/-- A client closes descriptor 5. The monitor looks at the request when its flag is set,
which is before the descriptor is written. -/
def earlyFlag : List Step :=
  clientRun .close 5 5 ++ monitorRun 0 none 6

end FStack.Preload
