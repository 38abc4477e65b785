import Mathlib.Data.List.TakeWhile
import Mathlib.Logic.Function.Iterate
import FStack.Preload.Integrity

/-!
# Buffers

Buffers go through the mailboxes with `strcpy`: once on the way to the monitor, twice on the way
back. A string ends at its first zero byte, and what is behind it in the field is from before.
-/

namespace FStack.Preload

open Function List

section Copies

variable {count : Nat} {content : List UInt8}

/-- A buffer is its string, or begins with it. -/
theorem content_cases (content : List UInt8) :
    content.takeWhile (· ≠ 0) = content ∨
      ∃ rest, content = content.takeWhile (· ≠ 0) ++ 0 :: rest := by
  have parts := takeWhile_append_dropWhile (p := (· ≠ (0 : UInt8))) (l := content)
  rcases behind : content.dropWhile (· ≠ 0) with _ | ⟨byte, rest⟩
  · rw [behind, append_nil] at parts
    exact .inl parts
  · have zero : byte = 0 := by
      have first := head?_dropWhile_not (· ≠ (0 : UInt8)) content
      rw [behind] at first
      simpa using first
    rw [behind, zero] at parts
    exact .inr ⟨rest, parts.symm⟩

/-- What is behind the terminator of a copy is not copied again. -/
theorem strcpy_strcpy (dst dst' src : Value) : strcpy dst' (strcpy dst src) = strcpy dst' src := by
  have same : (strcpy dst src).cString = src.cString := by
    have text : ∀ byte ∈ src.toBytes.takeWhile (· ≠ 0), decide (byte ≠ 0) = true :=
      fun _ => mem_takeWhile_imp
    change takeWhile _ (src.cString ++ _) ++ [0] = _
    rw [Value.cString, append_assoc, takeWhile_append_of_pos text, singleton_append,
      takeWhile_cons_of_neg (by decide), append_nil]
  unfold strcpy at same ⊢
  rw [same]

/-- A copy has the first bytes, whatever was there before, exactly if no zero byte is among them
but for the last one. -/
theorem strcpy_take_iff (covered : count ≤ content.length) :
    (∀ dst, (strcpy dst (.bytes content)).toBytes.take count = content.take count) ↔
      0 ∉ content.take (count - 1) := by
  unfold strcpy Value.cString
  dsimp only [Value.toBytes]
  have nonzero : 0 ∉ content.takeWhile (· ≠ 0) := fun zero => by simpa using mem_takeWhile_imp zero
  rcases content_cases content with whole | ⟨rest, split⟩
  · rw [whole] at nonzero ⊢
    refine iff_of_true (fun dst => ?_) fun zero => nonzero (mem_of_mem_take zero)
    rw [append_assoc, take_append_of_le_length covered]
  · generalize content.takeWhile (· ≠ 0) = text at split nonzero
    subst split
    rw [length_append, length_cons] at covered
    by_cases bound : count ≤ text.length + 1
    · refine iff_of_true (fun dst => ?_) fun zero => nonzero ?_
      · have longer : count ≤ (text ++ [0]).length := by
          rw [length_append]
          exact bound
        rw [take_append_of_le_length longer, append_cons text 0 rest,
          take_append_of_le_length longer]
      · rw [take_append_of_le_length (by omega)] at zero
        exact mem_of_mem_take zero
    · -- the byte behind the zero is from before
      obtain ⟨byte, more, rfl⟩ := exists_cons_of_length_pos (l := rest) (by omega)
      refine iff_of_false (fun all => ?_) fun nonzero => nonzero ?_
      · have here := congrArg (·[text.length + 1]?)
          (all (.bytes ((text ++ 0 :: byte :: more).map (· + 1))))
        simp [show text.length + 1 < count by omega, getElem?_append_right] at here
      · rw [take_append, mem_append]
        right
        obtain ⟨rest, same⟩ : ∃ rest, count - 1 - text.length = rest + 1 :=
          ⟨count - 1 - text.length - 1, by omega⟩
        rw [same]
        exact mem_cons_self

end Copies

section Sending

/-- When the hook has written its request, and the monitor has seen its flag and has read the
arguments for the F-Stack call. -/
def handed (env : Env) (call : Call) (s : State) : State :=
  (monitorStep env)^[1 + (if guarded call.form then 1 else 0) + (parameters call.form).length]
    ((clientStep call.toInvocation)^[(request call.form).length] s)

/-- The bytes that F-Stack is given. -/
def passed (used : List (Field × Value)) : List UInt8 :=
  ((used.lookup .text).getD (.int 0)).toBytes.take
    ((used.lookup .len).getD (.int 0)).toInt.toNat

variable {call : Call} {s : State} {loop : Loop} {form : Form}

theorem foldl_exec_setClient (puts : List Put) (s : State) (client : ClientPc) :
    puts.foldl (fun s put => put.exec call s) (s.setClient client) =
      (puts.foldl (fun s put => put.exec call s) s).setClient client := by
  induction puts generalizing s with
  | nil => rfl
  | cons put rest ih =>
    have one : put.exec call (s.setClient client) = (put.exec call s).setClient client := by
      cases put <;> rfl
    rw [foldl_cons, foldl_cons, one, ih]

/-- The hook makes its accesses one after the other. -/
theorem clientStep_puts {puts : List Put} (client : s.client = .asking call puts)
    (invocation : Invocation) :
    (clientStep invocation)^[puts.length] s =
      (puts.foldl (fun s put => put.exec call s) s).setClient (.asking call []) := by
  induction puts generalizing s with
  | nil =>
    rw [← client]
    rfl
  | cons put rest ih =>
    have one : clientStep invocation s = (put.exec call s).setClient (.asking call rest) := by
      unfold clientStep
      rw [client]
    rw [length_cons, iterate_succ_apply, one, ih rfl, foldl_exec_setClient]
    rfl

/-- The monitor reads its parameters one after the other. -/
theorem monitorStep_args {fields : List Field} {rest : List Op}
    (pc : s.monitor.pc = .run loop form (fields.map .arg ++ rest)) (env : Env) :
    ((monitorStep env)^[fields.length] s).monitor.used =
      s.monitor.used ++ fields.map fun field => (field, s.box.arg form field) := by
  induction fields generalizing s with
  | nil => exact (append_nil _).symm
  | cons field fields ih =>
    have one : monitorStep env s =
        (s.setMonitor (s.monitor.setUsed
          (s.monitor.used ++ [(field, s.box.arg form field)]))).goto
            (.run loop form (fields.map .arg ++ rest)) := by
      unfold monitorStep
      rw [pc]
      rfl
    rw [length_cons, iterate_succ_apply, one, ih rfl]
    exact append_assoc ..

/-- What the hook leaves in the mailbox for a form with a buffer. -/
structure Requested (call : Call) (before after : Mailbox) : Prop where
  flag : after.flag call.form = true
  fd : after.arg call.form .fd = call.args .fd
  text : after.arg call.form .text = strcpy (before.arg call.form .text) (call.args .text)
  len : after.arg call.form .len = call.args .len

theorem requested (buffer : call.form ∈ [.send, .write, .sendto])
    (client : s.client = .asking call (request call.form)) (invocation : Invocation) :
    Requested call s.box ((clientStep invocation)^[(request call.form).length] s).box ∧
    ((clientStep invocation)^[(request call.form).length] s).monitor = s.monitor := by
  rw [clientStep_puts client]
  obtain ⟨⟨form, args, frame⟩, num⟩ := call
  simp only [mem_cons, not_mem_nil, or_false] at buffer
  rcases buffer with rfl | rfl | rfl <;> exact ⟨⟨rfl, rfl, rfl, rfl⟩, rfl⟩

/-- A flag that is set takes the monitor into its case. -/
theorem monitorStep_await (pc : s.monitor.pc = .await loop form) (flag : s.box.flag form = true)
    (positive : 0 < (s.box.arg form .fd).toInt) (env : Env) :
    ((monitorStep env)^[1 + if guarded form then 1 else 0] s).monitor.pc =
      .run loop form (body loop form ++ closing loop form) ∧
    ((monitorStep env)^[1 + if guarded form then 1 else 0] s).monitor.used = [] ∧
    ((monitorStep env)^[1 + if guarded form then 1 else 0] s).box = s.box := by
  have seen : monitorStep env s =
      ((s.setMonitor (s.monitor.setUsed [])).setHistory (s.history.see form)).goto
        (if guarded form then .guard loop form
          else .run loop form (body loop form ++ closing loop form)) := by
    unfold monitorStep
    rw [pc]
    dsimp only
    rw [if_pos flag]
  cases checked : guarded form with
  | false =>
    rw [checked] at seen
    rw [if_neg Bool.false_ne_true, iterate_one, seen]
    exact ⟨rfl, rfl, rfl⟩
  | true =>
    rw [checked, if_pos rfl] at seen
    rw [if_pos rfl, iterate_succ_apply, iterate_one, seen]
    unfold monitorStep State.goto State.setMonitor State.setHistory Monitor.goto
    dsimp only
    rw [if_pos positive]
    exact ⟨rfl, rfl, rfl⟩

/-- The parameters of a form, but for constants. -/
theorem parameters_eq (loop : Loop) (buffer : form ∈ [.send, .write, .sendto]) :
    ∃ fields : List Field, body loop form = fields.map .arg ++ (perform loop form ++ answer form) ∧
      fields.length = (parameters form).length ∧
      ∀ values : Field → Value, passed (fields.map fun field => (field, values field)) =
        (values .text).toBytes.take (values .len).toInt.toNat := by
  simp only [mem_cons, not_mem_nil, or_false] at buffer
  rcases buffer with rfl | rfl | rfl
  · exact ⟨[.fd, .text, .len, .flags], rfl, rfl, fun _ => rfl⟩
  · exact ⟨[.fd, .text, .len], rfl, rfl, fun _ => rfl⟩
  · exact ⟨[.fd, .text, .len, .flags, .sinAddr, .sinFamily, .sinPort, .addrlen], rfl, rfl,
      fun _ => rfl⟩

/-- F-Stack is given the bytes that `strcpy` left in the mailbox. -/
theorem passed_handed (buffer : call.form ∈ [.send, .write, .sendto])
    (client : s.client = .asking call (request call.form))
    (pc : s.monitor.pc = .await loop call.form) (positive : 0 < (call.args .fd).toInt)
    (env : Env) :
    passed (handed env call s).monitor.used =
      (strcpy (s.box.arg call.form .text) (call.args .text)).toBytes.take
        (call.args .len).toInt.toNat := by
  obtain ⟨written, same⟩ := requested buffer client call.toInvocation
  obtain ⟨fields, cases, count, lookups⟩ := parameters_eq loop buffer
  unfold handed
  generalize (clientStep call.toInvocation)^[(request call.form).length] s = s₁ at written same
  obtain ⟨runs, unused, box⟩ := monitorStep_await (s := s₁) (by rw [same]; exact pc) written.flag
    (by rw [written.fd]; exact positive) env
  rw [Nat.add_comm, iterate_add_apply, ← count]
  rw [cases, append_assoc] at runs
  have used := monitorStep_args runs env
  rw [unused, nil_append, box] at used
  rw [used, lookups, written.text, written.len]

end Sending

section Receiving

/-- When the F-Stack call has returned and the monitor has written its response. -/
def answered (env : Env) (form : Form) (s : State) : State :=
  (monitorStep env)^[(answer form).length] s

/-- The caller's buffer, when the hook has copied the response. -/
def collected (call : Call) (s : State) : List UInt8 :=
  (strcpy (call.args .text) (s.box.out call.form .text)).toBytes

/-- The response is a `strcpy` of the mailbox buffer. -/
theorem answered_out (buffer : form ∈ [.recv, .read, .recvfrom])
    (pc : s.monitor.pc = .run loop form (answer form ++ closing loop form)) (env : Env) :
    (answered env form s).box.out form .text =
      (s.box.out form .text).copy (s.box.arg form .text) := by
  obtain ⟨box, client, monitor, history⟩ := s
  obtain ⟨place, running, udpStatus, epStatus, runningEpoll, ret, used⟩ := monitor
  subst pc
  simp only [mem_cons, not_mem_nil, or_false] at buffer
  rcases buffer with rfl | rfl | rfl <;> rfl

/-- Mailboxes with earlier contents, the hook and the monitor each at some place. -/
def leftOver (client : ClientPc) (pc : MonitorPc) (content : Value) : State :=
  { initial with
    box := { Mailbox.zeroed with
      arg := fun _ _ => content
      out := fun _ _ => .bytes [7, 7, 7] }
    client
    monitor := { initial.monitor with pc } }

/-- A monitor whose surroundings do nothing. -/
def quietEnv : Env := ⟨0, fun _ => .int 0, none, 0, true⟩

/-- F-Stack is given the first bytes of the caller's buffer, whatever the mailboxes have from
before. -/
def SendsAll (call : Call) (content : List UInt8) : Prop :=
  ∀ s loop env, s.client = .asking call (request call.form) → s.monitor.pc = .await loop call.form →
    passed (handed env call s).monitor.used = content.take call.length

/-- The caller gets the bytes that F-Stack has stored in front of what was there, whatever the
mailboxes and the caller's buffer have from before. -/
def ReceivesAll (form : Form) (stored stale : List UInt8) : Prop :=
  ∀ call s loop env, call.form = form →
    s.monitor.pc = .run loop form (answer form ++ closing loop form) →
    s.box.arg form .text = .bytes (stored ++ stale) →
    (collected call (answered env form s)).take stored.length = stored

/-- A call with a buffer, on descriptor 3. -/
def bufferCall (form : Form) (content : List UInt8) : Call :=
  ⟨⟨form, fun field => match field with
    | .text => .bytes content
    | .len => .int content.length
    | _ => .int 3, fun _ => .int 0⟩, 1⟩

end Receiving

end FStack.Preload
