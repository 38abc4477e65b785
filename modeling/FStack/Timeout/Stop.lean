import FStack.Timeout.Runs

/-!
# Stopping a callout from its own function

`softclock` runs every callout with the exec entity of index 1, while
`_callout_stop_safe` looks for a callout in progress in the entity that the flag
`CALLOUT_DIRECT` of the callout selects. The two agree exactly for callouts that
have been armed with `C_DIRECT_EXEC`; a function of any other callout that stops it
is told that the callout is not executing, and a drain function that it gives is
never called.
-/

namespace FStack.Timeout

open Kernel

/-- What `softclock_call_cc` does for a callout whose function does `ops`. -/
def invocation (env : Env) (curticks : BitVec 32) (c func : Nat) (kernel : Kernel)
    (ops : List CalloutOp) : Kernel :=
  leave env c true (kernel.callouts c)
    ((ops.foldl (perform env) (started env curticks c func kernel)).note (.returned c))

/-- Whether an operation arms a callout. -/
def CalloutOp.arms (c : Nat) : CalloutOp → Bool
  | .reset d .. => d = c
  | .stop .. => false

/-- Whether an operation gives a drain function for a callout. -/
def CalloutOp.drains (c : Nat) : CalloutOp → Bool
  | .reset .. => false
  | .stop d _ drain => d = c && drain.isSome

/-- A function that has not armed its callout again can stop it: `callout_stop` and
`callout_async_drain` return 0, and the drain function is called once, after the
function has returned. -/
def StopRecognised (env : Env) (curticks : BitVec 32) (c func : Nat) (kernel : Kernel) : Prop :=
  ∀ before, (∀ op ∈ before, op.arms c = false) →
    (calloutStopSafe env c false none
      (before.foldl (perform env) (started env curticks c func kernel))).2 = 0 ∧
    ∀ drain after, (∀ op ∈ after, op.drains c = false) →
      (calloutStopSafe env c false (some drain)
        (before.foldl (perform env) (started env curticks c func kernel))).2 = 0 ∧
      (invocation env curticks c func kernel
        (before ++ .stop c false (some drain) :: after)).trace =
          kernel.trace ++ [.called c, .returned c, .drained drain (kernel.callouts c).arg]

variable {env : Env} {kernel kernel' : Kernel} {c : Nat}

section Operations

/-- The operations of a function keep the wheel and leave alone what is in progress. -/
theorem Linked.performAll (linked : Linked env kernel) (ops : List CalloutOp) :
    Linked env (ops.foldl (Timeout.perform env) kernel) ∧
      Undisturbed kernel (ops.foldl (Timeout.perform env) kernel) := by
  induction ops generalizing kernel with
  | nil => exact ⟨linked, ⟨fun _ => rfl, rfl, rfl⟩⟩
  | cons op rest ih =>
    obtain ⟨linked', same⟩ := linked.perform op
    obtain ⟨linked'', same'⟩ := ih linked'
    exact ⟨linked'', ⟨fun direct => (same'.curr direct).trans (same.curr direct),
      same'.now.trans same.now, same'.trace.trans same.trace⟩⟩

/-- An operation that does not arm a callout leaves its flags, but for `pending`. -/
theorem Linked.perform_flags (linked : Linked env kernel) {op : CalloutOp}
    (quiet : op.arms c = false) :
    ((Timeout.perform env kernel op).callouts c).direct = (kernel.callouts c).direct ∧
      ((kernel.callouts c).pending = false →
        ((Timeout.perform env kernel op).callouts c).pending = false) := by
  cases op with
  | reset d toTicks ftn arg directExec =>
    have other : c ≠ d := by
      rintro rfl
      simp [CalloutOp.arms] at quiet
    obtain ⟨taken, out, added⟩ := calloutResetTickOn_spec linked d toTicks ftn arg directExec
    have same : (Timeout.perform env kernel (.reset d toTicks ftn arg directExec)).callouts c =
        kernel.callouts c := by
      rw [Timeout.perform, added, ← out.others c other]
      exact @calloutCcAdd_of_ne env taken d _ ftn arg directExec c other
    exact ⟨by rw [same], fun idle => by rw [same, idle]⟩
  | stop d executing drain =>
    have out := calloutStopSafe_spec linked d executing drain
    rcases eq_or_ne c d with rfl | other
    · obtain ⟨active, own⟩ := out.own
      exact ⟨(congrArg Callout.direct own).trans rfl,
        fun _ => (congrArg Callout.pending own).trans rfl⟩
    · have same := out.others c other
      exact ⟨congrArg Callout.direct same, fun idle => (congrArg Callout.pending same).trans idle⟩

end Operations

section InProgress

/-- The function of `c` is running, and has not armed `c` again. -/
structure InProgress (env : Env) (c : Nat) (direct : Bool) (kernel : Kernel) : Prop where
  linked : Linked env kernel
  curr : (kernel.cc.exec true).curr = some c
  idle : (kernel.callouts c).pending = false
  flag : (kernel.callouts c).direct = direct

variable {direct : Bool}

/-- A callout stays in progress while nothing arms it. -/
theorem InProgress.performAll (running : InProgress env c direct kernel) {ops : List CalloutOp}
    (quiet : ∀ op ∈ ops, op.arms c = false) :
    InProgress env c direct (ops.foldl (perform env) kernel) := by
  induction ops generalizing kernel with
  | nil => exact running
  | cons op rest ih =>
    obtain ⟨linked, same⟩ := running.linked.perform op
    obtain ⟨flag, idle⟩ := running.linked.perform_flags (quiet op List.mem_cons_self)
    exact ih ⟨linked, (same.curr true).trans running.curr, idle running.idle,
      flag.trans running.flag⟩ fun op member => quiet op (List.mem_cons_of_mem _ member)

/-- Without the flag the running callout is not found. -/
theorem InProgress.unrecognised (running : InProgress env c false kernel) (executing : Bool)
    (drain : Option Nat) : calloutStopSafe env c executing drain kernel = (kernel, -1) := by
  have absent : (kernel.cc.exec (kernel.callouts c).direct).curr ≠ some c := by
    rw [running.flag, running.linked.noSwi]
    exact nofun
  rw [running.linked.calloutStopSafe_idle absent]
  simp only [stopPending, running.idle, absent, Bool.false_eq_true, if_false]

/-- With the flag it is, and the drain function is noted. -/
theorem InProgress.recognised (running : InProgress env c true kernel) (drain : Option Nat) :
    (calloutStopSafe env c false drain kernel).2 = 0 ∧
      ∀ given, drain = some given →
        ((calloutStopSafe env c false drain kernel).1.cc.exec true).drain = some given := by
  have found : (kernel.cc.exec (kernel.callouts c).direct).curr = some c := by
    rw [running.flag, running.curr]
  rw [running.linked.calloutStopSafe_running found]
  cases drain with
  | none | some => simp [stopPending, running.idle, running.curr]

end InProgress

section Draining

/-- Taking a callout out of the wheel touches no exec entity. -/
theorem disarm_exec : (disarm env c kernel).cc.exec = kernel.cc.exec := by
  unfold disarm takeOff
  split_ifs <;> rfl

theorem stopPending_exec (direct : Bool) (cancelled : Int) :
    (stopPending env c direct cancelled kernel).1.cc.exec = kernel.cc.exec := by
  unfold stopPending calloutCcDel
  split_ifs
  · exact disarm_exec
  · exact disarm_exec
  all_goals rfl

/-- `callout_reset_tick_on` notes no drain function. -/
theorem calloutResetTickOn_drain (toTicks : BitVec 32) (ftn arg : Nat) (directExec : Bool) :
    ((calloutResetTickOn env c toTicks ftn arg directExec kernel).1.cc.exec true).drain =
      (kernel.cc.exec true).drain := by
  have cancelled : ((kernel.setExec directExec fun exec =>
      { exec with cancel := true }).cc.exec true).drain = (kernel.cc.exec true).drain := by
    cases directExec with
    | false => rw [setExec_of_ne _ _ _ (by decide)]
    | true => rw [setExec_self]
  have added (kernel : Kernel) : (calloutCcAdd env c (atLeastOne toTicks) ftn arg directExec
      (if (kernel.callouts c).pending then disarm env c kernel else kernel)).cc.exec =
        kernel.cc.exec := by
    split_ifs
    · exact disarm_exec
    · rfl
  simp only [calloutResetTickOn]
  by_cases cancels : (kernel.cc.exec directExec).curr = some c ∧
      (kernel.callouts c).lock.isSome = true ∧ (!(kernel.cc.exec directExec).cancel) = true
  · simp only [if_pos cancels, apply_ite Prod.fst, apply_ite cc, apply_ite CalloutCpu.exec,
      added, ite_self, cancelled]
  · simp only [if_neg cancels, apply_ite Prod.fst, apply_ite cc, apply_ite CalloutCpu.exec,
      added, ite_self]

section

variable (linked : Linked env kernel) (running : (kernel.cc.exec true).curr = some c)

include linked running

/-- An operation that gives no drain function for the running callout leaves the one
that is noted. -/
theorem Linked.perform_drain {op : CalloutOp} (quiet : op.drains c = false) :
    ((Timeout.perform env kernel op).cc.exec true).drain = (kernel.cc.exec true).drain := by
  cases op with
  | reset d toTicks ftn arg directExec => exact calloutResetTickOn_drain toTicks ftn arg directExec
  | stop d executing drain =>
    change ((calloutStopSafe env d executing drain kernel).1.cc.exec true).drain = _
    by_cases found : (kernel.cc.exec (kernel.callouts d).direct).curr = some d
    · -- The callout that is found is the running one.
      have same := found
      rw [linked.direct_of_running found, running] at same
      obtain rfl : c = d := Option.some.inj same
      have none : drain.isSome = false := by simpa [CalloutOp.drains] using quiet
      rw [linked.calloutStopSafe_running found, none, stopPending_exec]
      rfl
    · rw [linked.calloutStopSafe_idle found, stopPending_exec]

theorem Linked.performAll_drain {ops : List CalloutOp} (quiet : ∀ op ∈ ops, op.drains c = false) :
    ((ops.foldl (Timeout.perform env) kernel).cc.exec true).drain =
      (kernel.cc.exec true).drain := by
  induction ops generalizing kernel with
  | nil => rfl
  | cons op rest ih =>
    obtain ⟨linked', same⟩ := linked.perform op
    have next := ih linked' ((same.curr true).trans running) fun op member =>
      quiet op (List.mem_cons_of_mem _ member)
    exact next.trans (linked.perform_drain running (quiet op List.mem_cons_self))

end

/-- A drain function that is noted is called once at the end of `softclock_call_cc`. -/
theorem Linked.leave_trace (linked : Linked env kernel) {callout : Callout} {drain : Nat}
    (client : callout.localAlloc = false) (noted : (kernel.cc.exec true).drain = some drain) :
    (leave env c true callout kernel).trace = kernel.trace ++ [.drained drain callout.arg] := by
  have cleared := @setExec _ _ linked.finish true _ (harmless_drain none)
  have quiet : Linked env (((kernel.setExec true fun exec => { exec with curr := none }).setExec true
      fun exec => { exec with drain := none }).note (.drained drain callout.arg)) :=
    { cleared with }
  obtain ⟨linked', same⟩ := quiet.performAll (env.body drain callout.arg _)
  simp only [leave, client, noted, Bool.false_eq_true, if_false]
  split_ifs with waiting
  · exact same.trace
  · exact same.trace

end Draining

section Recognition

variable {since func : Nat}

/-- When a function is called, its callout is in progress. -/
theorem Walking.inProgress (walking : Walking env since (some c) kernel)
    (due : (kernel.callouts c).time = BitVec.ofNat 32 since)
    (armed : (kernel.callouts c).func = some func) :
    InProgress env c (kernel.callouts c).direct
      (Timeout.started env (BitVec.ofNat 32 since) c func kernel) := by
  obtain ⟨func', as⟩ := walking.armedAs due
  obtain rfl : func' = func := Option.some.inj (as.func.symm.trans armed)
  have own := @started_self env kernel c func' (BitVec.ofNat 32 since) (walking.sound.linked.client c)
  exact
    { linked := (walking.started as).1.sound.linked
      curr := rfl
      idle := by rw [own]
      flag := by rw [own] }

/-- A function whose callout has the flag can stop it. -/
theorem InProgress.stopRecognised {curticks : BitVec 32}
    (running : InProgress env c true (started env curticks c func kernel))
    (client : (kernel.callouts c).localAlloc = false) :
    StopRecognised env curticks c func kernel := by
  intro before quiet
  have inside := running.performAll quiet
  refine ⟨(inside.recognised none).1, fun drain after quiet' => ?_⟩
  obtain ⟨zero, noted⟩ := inside.recognised (some drain)
  refine ⟨zero, ?_⟩
  obtain ⟨stopped, same⟩ := inside.linked.perform (.stop c false (some drain))
  have kept := stopped.performAll_drain ((same.curr true).trans inside.curr) quiet'
  obtain ⟨linked, unchanged⟩ :=
    running.linked.performAll (before ++ .stop c false (some drain) :: after)
  rw [List.foldl_append] at linked unchanged
  have returned : Linked env (note _ (.returned c)) := { linked with }
  have drained := returned.leave_trace (c := c) client (kept.trans (noted drain rfl))
  rw [invocation, List.foldl_append]
  refine drained.trans ?_
  change (_ ++ [_]) ++ [_] = _
  rw [unchanged.trace]
  simp [started, note]
  rfl

/-- A callout in progress is recognised as such by `_callout_stop_safe` exactly if it
has the flag `CALLOUT_DIRECT`: in every state that calls from outside lead to, and
for every callout that the pass of the next `ff_hardclock` runs. -/
theorem stopRecognised_iff {inits : Nat → CalloutInit} {ticks : BitVec 32}
    {calls : List KernelCall} {rest : Kernel} (ends : RunsTo env calls (initial inits ticks) rest)
    (reaches : PassReaches env rest (some c) kernel)
    (due : (kernel.callouts c).time = rest.cc.softticks)
    (armed : (kernel.callouts c).func = some func) :
    StopRecognised env rest.cc.softticks c func kernel ↔ (kernel.callouts c).direct = true := by
  have sound := ends.sound
  have walking := sound.walking_of_passReaches reaches
  have follows : rest.cc.softticks = BitVec.ofNat 32 rest.now := sound.caughtUp.trans sound.ticks
  rw [follows] at due ⊢
  have running := walking.inProgress due armed
  constructor
  · intro recognised
    by_contra swi
    rw [Bool.eq_false_iff.mpr swi] at running
    have zero := (recognised [] nofun).1
    rw [List.foldl_nil, running.unrecognised] at zero
    cases zero
  · intro direct
    rw [direct] at running
    exact running.stopRecognised (walking.sound.linked.client c)

/-- Function 3 drains callout 0, with 5 for its drain function. -/
def drainsItself : Env where
  callwheelmask := 1
  body func _ _ := if func = 3 then [.stop 0 false (some 5)] else []

/-- Callout 0 has been armed to run function 3 in the next `ff_hardclock`. -/
def armedForNext (directExec : Bool) : Kernel :=
  ticked (perform drainsItself (initial (fun _ => .plain true) 0) (.reset 0 1 3 0 directExec))

theorem runsTo_armedForNext (directExec : Bool) :
    RunsTo drainsItself [.op (.reset 0 1 3 0 directExec), .hardclock]
      (initial (fun _ => .plain true) 0) (armedForNext directExec) := by
  refine ⟨2, fun fuel enough => ?_⟩
  obtain ⟨fuel, rfl⟩ := Nat.exists_eq_add_of_le' enough
  cases directExec <;> rfl

/-- A callout that is armed with `C_DIRECT_EXEC`. -/
theorem stopRecognised_directExec :
    StopRecognised drainsItself 1 0 3 (ticked (armedForNext true)) :=
  (stopRecognised_iff (runsTo_armedForNext true) .refl rfl rfl).mpr rfl

/-- A callout that is armed by `callout_reset`: its function is told that it is not
executing, and the drain function is not called. -/
theorem not_stopRecognised_reset :
    RunsTo drainsItself [.op (.reset 0 1 3 0 false), .hardclock]
        (initial (fun _ => .plain true) 0) (armedForNext false) ∧
      PassReaches drainsItself (armedForNext false) (some 0) (ticked (armedForNext false)) ∧
      (calloutStopSafe drainsItself 0 false none
        (started drainsItself 1 0 3 (ticked (armedForNext false)))).2 = -1 ∧
      (ffHardclock drainsItself 9 (armedForNext false)).map (·.trace) =
        some [.called 0, .returned 0] ∧
      ¬StopRecognised drainsItself 1 0 3 (ticked (armedForNext false)) := by
  refine ⟨runsTo_armedForNext false, .refl, rfl, by decide +kernel, fun recognised => ?_⟩
  have zero := (recognised [] nofun).1
  exact absurd zero (by decide)

end Recognition

end FStack.Timeout
