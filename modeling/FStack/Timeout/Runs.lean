import FStack.Timeout.Exactness

/-!
# Runs of the callout facility

Calls from outside follow one another: clients arm and stop callouts, and the clock
ticks. Each call comes to its end, keeps up with the callouts, and adds to the log.
So after every call the log is exact.
-/

namespace FStack.Timeout

open Kernel List Option Timer

variable {env : Env} {kernel next : Kernel} {c : Nat}

section Growth

theorem disarm_log : (disarm env c kernel).log = kernel.log := by
  unfold disarm takeOff
  split_ifs <;> rfl

theorem calloutCcDel_log : (calloutCcDel c kernel).log = kernel.log := by
  unfold calloutCcDel
  split_ifs <;> rfl

theorem stopPending_log (direct : Bool) (cancelled : Int) :
    (stopPending env c direct cancelled kernel).1.log = kernel.log := by
  unfold stopPending
  split_ifs
  · exact calloutCcDel_log.trans disarm_log
  all_goals rfl

theorem calloutStopSafe_log (executing : Bool) (drain : Option Nat) :
    (calloutStopSafe env c executing drain kernel).1.log = kernel.log := by
  simp only [calloutStopSafe]
  split_ifs
  all_goals first
    | rfl
    | exact stopPending_log _ _

theorem calloutResetTickOn_log (toTicks : BitVec 32) (ftn arg : Nat) (directExec : Bool) :
    (calloutResetTickOn env c toTicks ftn arg directExec kernel).1.log = kernel.log := by
  simp only [calloutResetTickOn]
  split_ifs
  all_goals first
    | rfl
    | exact disarm_log

theorem perform_grows (op : CalloutOp) : kernel.log <+: (perform env kernel op).log := by
  cases op with
  | reset d toTicks ftn arg directExec =>
    exact ⟨[_], congrArg (· ++ [_]) (calloutResetTickOn_log toTicks ftn arg directExec).symm⟩
  | stop d executing drain =>
    exact ⟨[_], congrArg (· ++ [_]) (calloutStopSafe_log executing drain).symm⟩

theorem call_grows (env : Env) (func arg : Nat) (kernel : Kernel) :
    kernel.log <+: (call env func arg kernel).log := by
  unfold call
  generalize env.body func arg kernel = ops
  induction ops generalizing kernel with
  | nil => exact prefix_rfl
  | cons op rest ih => exact (perform_grows op).trans (ih _)

section

variable (env : Env) (c : Nat) (direct : Bool) (callout : Callout) (kernel : Kernel)

/-- A call only adds to the log. -/
theorem callFunction_grows : kernel.log <+: (callFunction env c direct callout kernel).log := by
  simp only [callFunction]
  cases callout.func with
  | none => split_ifs <;> exact prefix_rfl
  | some func =>
    have called (kernel : Kernel) : kernel.log <+: ((call env func callout.arg
        ((kernel.record (.ran c kernel.now (func, callout.arg))).note (.called c))).note
          (.returned c)).log :=
      (prefix_append _ [_]).trans (call_grows env func callout.arg
        ((kernel.record (.ran c kernel.now (func, callout.arg))).note (.called c)))
    split_ifs
    · exact prefix_rfl
    · exact called (kernel.setExec direct fun exec => { exec with cancel := true })
    · exact called kernel

/-- Leaving a callout only adds to the log. -/
theorem leave_grows : kernel.log <+: (leave env c direct callout kernel).log := by
  simp only [leave]
  cases (kernel.cc.exec direct).drain with
  | none =>
    split_ifs
    · rw [calloutCcDel_log]; exact prefix_rfl
    · rw [calloutCcDel_log]; exact prefix_rfl
    all_goals exact prefix_rfl
  | some drain =>
    have drained := call_grows env drain callout.arg
      (((kernel.setExec direct fun exec => { exec with curr := none }).setExec direct
        fun exec => { exec with drain := none }).note (.drained drain callout.arg))
    split_ifs
    · rw [calloutCcDel_log]; exact drained
    · rw [calloutCcDel_log]; exact drained
    all_goals exact drained

end

theorem softclockCallCc_grows (env : Env) (c : Nat) (direct : Bool) (kernel : Kernel) :
    kernel.log <+: (softclockCallCc env c direct kernel).log := by
  have called := callFunction_grows env c direct (kernel.callouts c) (enter c direct kernel)
  exact called.trans (leave_grows env c direct (kernel.callouts c) _)

variable {fuel : Nat}

/-- A walk only adds to the log. -/
theorem walkBucket_grows {curticks : BitVec 32} {cursor : Option Nat}
    (ends : walkBucket env curticks fuel cursor kernel = some next) : kernel.log <+: next.log := by
  induction fuel generalizing cursor kernel with
  | zero => cases ends
  | succ fuel ih =>
    cases cursor with
    | none =>
      obtain rfl := some.inj ends
      exact prefix_rfl
    | some c =>
      by_cases due : (kernel.callouts c).time = curticks
      · have step : LoopStep env curticks (some c, kernel) _ := .run due rfl
        have grown := ih ((step.walkBucket fuel).symm.trans ends)
        have ran := softclockCallCc_grows env c true (takenOff env curticks c kernel)
        exact ran.trans grown
      · have step : LoopStep env curticks (some c, kernel) _ := .skip due
        exact ih ((step.walkBucket fuel).symm.trans ends)

/-- A pass only adds to the log. -/
theorem softclock_grows (ends : softclock env fuel kernel = some next) :
    kernel.log <+: next.log := by
  induction fuel generalizing kernel with
  | zero => cases ends
  | succ fuel ih =>
    rw [softclock] at ends
    split_ifs at ends
    · obtain rfl := some.inj ends
      exact prefix_rfl
    · obtain ⟨walked, walk, rest⟩ := bind_eq_some_iff.mp ends
      have first := walkBucket_grows walk
      exact first.trans (ih rest)

/-- A tick only adds to the log. -/
theorem calloutTick_grows (ends : calloutTick env fuel kernel = some next) :
    kernel.log <+: next.log := by
  induction fuel generalizing kernel with
  | zero => cases ends
  | succ fuel ih =>
    rw [calloutTick] at ends
    split_ifs at ends
    · have grown := ih ends
      exact grown
    · exact softclock_grows ends
    · obtain rfl := some.inj ends
      exact prefix_rfl

theorem runCall_grows {call : KernelCall} (ends : runCall env fuel kernel call = some next) :
    kernel.log <+: next.log := by
  cases call with
  | op op =>
    obtain rfl := some.inj ends
    exact perform_grows op
  | hardclock =>
    have grown := calloutTick_grows ends
    exact grown

/-- A run only adds to the log. -/
theorem runCalls_grows {calls : List KernelCall} (ends : runCalls env fuel calls kernel = some next) :
    kernel.log <+: next.log := by
  induction calls generalizing kernel with
  | nil =>
    obtain rfl := some.inj ends
    exact prefix_rfl
  | cons call rest ih =>
    obtain ⟨first, called, others⟩ := bind_eq_some_iff.mp ends
    exact (runCall_grows called).trans (ih others)

end Growth

section Runs

/-- Every call comes to its end, and only `ff_hardclock` lets time pass. -/
theorem runCall_sound (sound : Sound env kernel.now kernel) (call : KernelCall) :
    ∃ enough next, (∀ fuel, enough ≤ fuel → runCall env fuel kernel call = some next) ∧
      Sound env next.now next ∧ next.now = kernel.now + [call].count .hardclock := by
  cases call with
  | op op =>
    have now := (sound.linked.perform op).2.now
    refine ⟨0, perform env kernel op, fun _ _ => rfl, ?_, now⟩
    rw [now]
    exact sound.perform (Nat.le_succ _) op
  | hardclock => exact ffHardclock_sound sound

/-- Every run comes to its end, with the clock advanced by its ticks. -/
theorem runCalls_sound (calls : List KernelCall) (sound : Sound env kernel.now kernel) :
    ∃ next, RunsTo env calls kernel next ∧ Sound env next.now next ∧
      next.now = kernel.now + calls.count .hardclock := by
  induction calls generalizing kernel with
  | nil => exact ⟨kernel, ⟨0, fun _ _ => rfl⟩, sound, rfl⟩
  | cons call rest ih =>
    obtain ⟨enough, next, ends, sound', now⟩ := runCall_sound sound call
    obtain ⟨last, ⟨enough', ends'⟩, sound'', now'⟩ := ih sound'
    refine ⟨last, ⟨max enough enough', fun fuel more => ?_⟩, sound'', ?_⟩
    · rw [runCalls, foldlM_cons, ends fuel (le_of_max_le_left more)]
      exact ends' fuel (le_of_max_le_right more)
    · rw [now', now, Nat.add_assoc, ← count_append, singleton_append]

/-- At the start no callout is pending. -/
theorem sound_initial (env : Env) (inits : Nat → CalloutInit) (ticks : BitVec 32) :
    Sound env (initial inits ticks).now (initial inits ticks) := by
  have fresh (c : Nat) : (calloutInit (inits c)).pending = false ∧
      (calloutInit (inits c)).processed = false ∧ (calloutInit (inits c)).localAlloc = false ∧
        (calloutInit (inits c)).dfrMigration = false := by
    rcases inits c with (_ | _) | _ <;> exact ⟨rfl, rfl, rfl, rfl⟩
  refine
    { linked :=
        { nodup := fun _ => nodup_nil
          mem_iff := fun bucket c => ?_
          unprocessed := fun c => (fresh c).2.1
          client := fun c => (fresh c).2.2.1
          settled := fun c => (fresh c).2.2.2
          notWaiting := fun _ => rfl
          noSwi := rfl
          locked := fun c running => nomatch running }
      ticks := (BitVec.ofNat_toNat 32 ticks).symm
      caughtUp := rfl
      kept := Kept.nil _ _
      armed := fun c pending => ?_
      idle := fun _ _ => rfl }
  · simp [initial, (fresh c).1]
  · exact absurd ((fresh c).1.symm.trans pending) (by decide)

variable {calls : List KernelCall}

theorem RunsTo.unique {start kernel' : Kernel} (ends : RunsTo env calls start kernel)
    (ends' : RunsTo env calls start kernel') : kernel = kernel' := by
  obtain ⟨enough, ends⟩ := ends
  obtain ⟨enough', ends'⟩ := ends'
  have first := ends (max enough enough') (le_max_left ..)
  have second := ends' (max enough enough') (le_max_right ..)
  exact some.inj (first.symm.trans second)

/-- Where calls come to their end, the machine is sound. -/
theorem RunsTo.sound {inits : Nat → CalloutInit} {ticks : BitVec 32}
    (ends : RunsTo env calls (initial inits ticks) kernel) : Sound env kernel.now kernel := by
  obtain ⟨next, ends', sound, -⟩ := runCalls_sound calls (sound_initial env inits ticks)
  exact ends.unique ends' ▸ sound

/-- A longer run has a longer log. -/
theorem RunsTo.grows {more : List KernelCall} {later start : Kernel}
    (ends : RunsTo env calls start kernel) (longer : RunsTo env (calls ++ more) start later) :
    kernel.log <+: later.log := by
  obtain ⟨enough, ends⟩ := ends
  obtain ⟨enough', longer⟩ := longer
  have first := ends (max enough enough') (le_max_left ..)
  have whole := longer (max enough enough') (le_max_right ..)
  rw [runCalls, foldlM_append] at whole
  obtain ⟨middle, before, rest⟩ := bind_eq_some_iff.mp whole
  obtain rfl : kernel = middle := some.inj (first.symm.trans before)
  exact runCalls_grows rest

/-- For every sequence of calls, and whatever the functions of callouts do, all passes
come to their end, and callouts run exactly when they are due. The log of a run is
continued by that of every longer one. -/
theorem runCalls_exact (env : Env) (inits : Nat → CalloutInit) (ticks : BitVec 32)
    (calls : List KernelCall) :
    ∃ kernel, RunsTo env calls (initial inits ticks) kernel ∧
      kernel.now = ticks.toNat + calls.count .hardclock ∧
      kernel.ticks = BitVec.ofNat 32 kernel.now ∧ Exact kernel.log kernel.now ∧
      ∀ more later, RunsTo env (calls ++ more) (initial inits ticks) later →
        kernel.log <+: later.log := by
  obtain ⟨kernel, ends, sound, now⟩ := runCalls_sound calls (sound_initial env inits ticks)
  exact ⟨kernel, ends, now, sound.ticks, sound.kept.exact, fun more later longer =>
    ends.grows longer⟩

/-- Between calls the wheel holds what the log has armed: a callout that has neither run nor been
stopped since is on it once, in the bucket of its time, and no other one is on it. -/
theorem runCalls_wheel (env : Env) (inits : Nat → CalloutInit) (ticks : BitVec 32)
    (calls : List KernelCall) :
    ∃ kernel, RunsTo env calls (initial inits ticks) kernel ∧
      ∀ bucket c, (kernel.cc.wheel bucket).count c =
        match armedAt kernel.log c with
        | some (due, _) => if bucket = env.bucketOf (.ofNat 32 due) then 1 else 0
        | none => 0 := by
  obtain ⟨kernel, ends, sound, -⟩ := runCalls_sound calls (sound_initial env inits ticks)
  refine ⟨kernel, ends, fun bucket c => ?_⟩
  rw [(sound.linked.nodup bucket).count]
  simp only [sound.linked.mem_iff]
  cases pending : (kernel.callouts c).pending with
  | false => simp [sound.idle c pending]
  | true =>
    obtain ⟨due, func, armed⟩ := sound.armed c pending
    simp [armed.log, armed.time]

end Runs

end FStack.Timeout
