import FStack.Timeout.Callout

/-!
# The wheel as a data structure

`Linked` is the invariant of the wheel: every bucket lists, without repetition,
the pending callouts whose time selects it, and no exec entity but that of
`softclock` is ever in use. Arming and stopping do two things to the wheel:
`Disarmed` says what it is to take a callout out, and `calloutCcAdd` puts it in.
-/

namespace FStack.Timeout

open Function Kernel

section Fields

variable (kernel : Kernel) (c d : Nat) (direct : Bool) (change : Callout → Callout)
  (changeExec : CcExec → CcExec)

@[simp] theorem setCallout_self :
    (kernel.setCallout c change).callouts c = change (kernel.callouts c) :=
  update_self ..

@[simp] theorem setCallout_of_ne (other : d ≠ c) :
    (kernel.setCallout c change).callouts d = kernel.callouts d :=
  update_of_ne other ..

@[simp] theorem setCallout_cc : (kernel.setCallout c change).cc = kernel.cc := rfl

@[simp] theorem setExec_callouts : (kernel.setExec direct changeExec).callouts = kernel.callouts :=
  rfl

@[simp] theorem setExec_self :
    (kernel.setExec direct changeExec).cc.exec direct = changeExec (kernel.cc.exec direct) :=
  update_self ..

@[simp] theorem setExec_of_ne {direct' : Bool} (other : direct' ≠ direct) :
    (kernel.setExec direct changeExec).cc.exec direct' = kernel.cc.exec direct' :=
  update_of_ne other ..

end Fields

/-- The buckets list the pending callouts. -/
structure Hung (env : Env) (kernel : Kernel) : Prop where
  nodup : ∀ bucket, (kernel.cc.wheel bucket).Nodup
  mem_iff : ∀ bucket c, c ∈ kernel.cc.wheel bucket ↔
    (kernel.callouts c).pending = true ∧ bucket = env.bucketOf (kernel.callouts c).time
  unprocessed : ∀ c, (kernel.callouts c).processed = false
  client : ∀ c, (kernel.callouts c).localAlloc = false
  settled : ∀ c, (kernel.callouts c).dfrMigration = false

/-- The invariant of the wheel. -/
structure Linked (env : Env) (kernel : Kernel) : Prop extends Hung env kernel where
  notWaiting : ∀ direct, (kernel.cc.exec direct).waiting = false
  noSwi : (kernel.cc.exec false).curr = none
  locked : ∀ c, (kernel.cc.exec true).curr = some c → (kernel.callouts c).lock.isSome = true →
    (kernel.cc.exec true).cancel = true

/-- Exec entities agree on what is in progress; a callout can only have become
cancelled. -/
structure SameProgress (kernel kernel' : Kernel) : Prop where
  curr : ∀ direct, (kernel'.cc.exec direct).curr = (kernel.cc.exec direct).curr
  waiting : ∀ direct, (kernel'.cc.exec direct).waiting = (kernel.cc.exec direct).waiting
  cancel : ∀ direct, (kernel.cc.exec direct).cancel = true → (kernel'.cc.exec direct).cancel = true

/-- What neither arming nor stopping touches. -/
structure SameClock (kernel kernel' : Kernel) : Prop where
  ticks : kernel'.ticks = kernel.ticks
  now : kernel'.now = kernel.now
  softticks : kernel'.cc.softticks = kernel.cc.softticks
  bucket : kernel'.cc.bucket = kernel.cc.bucket
  log : kernel'.log = kernel.log
  trace : kernel'.trace = kernel.trace

/-- `kernel'` is `kernel` with `c` taken out of the wheel. -/
structure Disarmed (env : Env) (c : Nat) (kernel kernel' : Kernel) : Prop where
  wheel : ∀ bucket, kernel'.cc.wheel bucket = (kernel.cc.wheel bucket).erase c
  next : kernel'.cc.next =
    if (kernel.callouts c).pending then
      Cursor.moveOff (kernel.cc.wheel (env.bucketOf (kernel.callouts c).time)) c kernel.cc.next
    else kernel.cc.next
  own : ∃ active, kernel'.callouts c =
    { kernel.callouts c with pending := false, active := active }
  others : ∀ d, d ≠ c → kernel'.callouts d = kernel.callouts d
  progress : SameProgress kernel kernel'
  clock : SameClock kernel kernel'

variable {env : Env} {kernel kernel' : Kernel} {c : Nat}

theorem SameProgress.refl (kernel : Kernel) : SameProgress kernel kernel :=
  ⟨fun _ => rfl, fun _ => rfl, fun _ cancelled => cancelled⟩

/-- A change of an exec entity that leaves what is in progress: cancelling it, or
noting a drain function. -/
structure Harmless (change : CcExec → CcExec) : Prop where
  curr : ∀ exec, (change exec).curr = exec.curr
  waiting : ∀ exec, (change exec).waiting = exec.waiting
  cancel : ∀ exec, exec.cancel = true → (change exec).cancel = true

theorem harmless_cancel : Harmless fun exec => { exec with cancel := true } :=
  ⟨fun _ => rfl, fun _ => rfl, fun _ _ => rfl⟩

theorem harmless_drain (drain : Option Nat) : Harmless fun exec => { exec with drain := drain } :=
  ⟨fun _ => rfl, fun _ => rfl, fun _ cancelled => cancelled⟩

/-- A harmless change touches nothing that is in progress. -/
theorem Harmless.sameProgress {change : CcExec → CcExec} (harmless : Harmless change)
    (kernel : Kernel) (direct : Bool) : SameProgress kernel (kernel.setExec direct change) := by
  refine ⟨fun other => ?_, fun other => ?_, fun other cancelled => ?_⟩ <;>
    rcases eq_or_ne other direct with rfl | another
  · rw [setExec_self, harmless.curr]
  · rw [setExec_of_ne _ _ _ another]
  · rw [setExec_self, harmless.waiting]
  · rw [setExec_of_ne _ _ _ another]
  · rw [setExec_self]
    exact harmless.cancel _ cancelled
  · rwa [setExec_of_ne _ _ _ another]

/-- A callout that is taken off its list and no longer pending is out of the wheel. -/
theorem Hung.erase (hung : Hung env kernel)
    (wheel : ∀ bucket, kernel'.cc.wheel bucket = (kernel.cc.wheel bucket).erase c)
    (own : ∃ active, kernel'.callouts c =
      { kernel.callouts c with pending := false, active := active })
    (others : ∀ d, d ≠ c → kernel'.callouts d = kernel.callouts d) : Hung env kernel' := by
  obtain ⟨active, own⟩ := own
  refine ⟨fun bucket => wheel bucket ▸ (hung.nodup bucket).erase c, fun bucket d => ?_,
    fun d => ?_, fun d => ?_, fun d => ?_⟩
  · rw [wheel, (hung.nodup bucket).mem_erase_iff, hung.mem_iff]
    rcases eq_or_ne d c with rfl | other
    · rw [own]
      simp
    · rw [others d other]
      simp [other]
  all_goals rcases eq_or_ne d c with rfl | other
  · rw [own]
    exact hung.unprocessed d
  · rw [others d other]
    exact hung.unprocessed d
  · rw [own]
    exact hung.client d
  · rw [others d other]
    exact hung.client d
  · rw [own]
    exact hung.settled d
  · rw [others d other]
    exact hung.settled d

namespace Linked

variable (linked : Linked env kernel)

include linked

theorem not_mem (idle : (kernel.callouts c).pending = false) (bucket : BitVec 32) :
    c ∉ kernel.cc.wheel bucket := by
  rw [linked.mem_iff, idle]
  exact fun both => absurd both.1 (by decide)

theorem mem_own (pending : (kernel.callouts c).pending = true) :
    c ∈ kernel.cc.wheel (env.bucketOf (kernel.callouts c).time) :=
  (linked.mem_iff _ c).mpr ⟨pending, rfl⟩

/-- A callout that is taken off leaves the wheel linked. -/
theorem disarmed (taken : Disarmed env c kernel kernel') : Linked env kernel' where
  toHung := linked.toHung.erase taken.wheel taken.own taken.others
  notWaiting direct := (taken.progress.waiting direct).trans (linked.notWaiting direct)
  noSwi := (taken.progress.curr false).trans linked.noSwi
  locked d running lock := by
    have lock' : (kernel.callouts d).lock.isSome = true := by
      rcases eq_or_ne d c with rfl | other
      · obtain ⟨active, own⟩ := taken.own
        rwa [own] at lock
      · rwa [taken.others d other] at lock
    rw [taken.progress.curr] at running
    exact taken.progress.cancel true (linked.locked d running lock')

end Linked

section Disarming

theorem Disarmed.idle (taken : Disarmed env c kernel kernel') :
    (kernel'.callouts c).pending = false := by
  obtain ⟨active, own⟩ := taken.own
  rw [own]

theorem SameProgress.trans {kernel'' : Kernel} (first : SameProgress kernel kernel')
    (second : SameProgress kernel' kernel'') : SameProgress kernel kernel'' where
  curr direct := (second.curr direct).trans (first.curr direct)
  waiting direct := (second.waiting direct).trans (first.waiting direct)
  cancel direct cancelled := second.cancel direct (first.cancel direct cancelled)

/-- A callout that is not pending is out of the wheel. -/
theorem Disarmed.of_idle (linked : Linked env kernel)
    (idle : (kernel.callouts c).pending = false) : Disarmed env c kernel kernel where
  wheel bucket := (List.erase_of_not_mem (linked.not_mem idle bucket)).symm
  next := by rw [idle]; rfl
  own := ⟨(kernel.callouts c).active, by rw [← idle]⟩
  others _ _ := rfl
  progress := .refl kernel
  clock := ⟨rfl, rfl, rfl, rfl, rfl, rfl⟩

/-- `disarm` takes a pending callout out of the wheel. -/
theorem Disarmed.of_pending (linked : Linked env kernel)
    (pending : (kernel.callouts c).pending = true) :
    Disarmed env c kernel (disarm env c kernel) := by
  have processed := linked.unprocessed c
  have moved : kernel.takeOff env c = unlink { kernel with
      cc := { kernel.cc with
        next := Cursor.moveOff (kernel.cc.wheel (env.bucketOf (kernel.callouts c).time)) c
          kernel.cc.next } } c := by
    simp [takeOff, processed]
  refine
    { wheel := fun bucket => ?_
      next := ?_
      own := ⟨false, ?_⟩
      others := fun d other => ?_
      progress := ?_
      clock := ?_ }
  · simp [disarm, moved, unlink]
  · simp [disarm, moved, unlink, pending]
  · simp [disarm, moved, unlink]
  · simp [disarm, moved, unlink, other]
  · rw [disarm, moved]
    exact ⟨fun _ => rfl, fun _ => rfl, fun _ cancelled => cancelled⟩
  · rw [disarm, moved]
    exact ⟨rfl, rfl, rfl, rfl, rfl, rfl⟩

theorem Disarmed.after_setExec {direct : Bool} {change : CcExec → CcExec}
    (harmless : Harmless change) (taken : Disarmed env c (kernel.setExec direct change) kernel') :
    Disarmed env c kernel kernel' where
  wheel := taken.wheel
  next := taken.next
  own := taken.own
  others := taken.others
  progress := (harmless.sameProgress kernel direct).trans taken.progress
  clock := ⟨taken.clock.ticks, taken.clock.now, taken.clock.softticks, taken.clock.bucket,
    taken.clock.log, taken.clock.trace⟩

/-- The active flag does not matter to the wheel. -/
theorem Disarmed.after_deactivate
    (taken : Disarmed env c (kernel.setCallout c fun callout => { callout with active := false })
      kernel') : Disarmed env c kernel kernel' := by
  obtain ⟨active, own⟩ := taken.own
  have next := taken.next
  rw [setCallout_self] at own next
  exact
    { wheel := taken.wheel
      next := next
      own := ⟨active, own⟩
      others := fun d other => (taken.others d other).trans (setCallout_of_ne kernel c d _ other)
      progress := ⟨taken.progress.curr, taken.progress.waiting, taken.progress.cancel⟩
      clock := ⟨taken.clock.ticks, taken.clock.now, taken.clock.softticks, taken.clock.bucket,
        taken.clock.log, taken.clock.trace⟩ }

variable (linked : Linked env kernel)

include linked

/-- Changes of exec entities that leave what is in progress keep the wheel. -/
theorem Linked.setExec {direct : Bool} {change : CcExec → CcExec} (harmless : Harmless change) :
    Linked env (kernel.setExec direct change) := by
  have same := harmless.sameProgress kernel direct
  exact
    { nodup := linked.nodup
      mem_iff := linked.mem_iff
      unprocessed := linked.unprocessed
      client := linked.client
      settled := linked.settled
      notWaiting := fun other => (same.waiting other).trans (linked.notWaiting other)
      noSwi := (same.curr false).trans linked.noSwi
      locked := fun d running lock =>
        same.cancel true (linked.locked d ((same.curr true).symm.trans running) lock) }

/-- Clearing the active flag keeps the wheel linked. -/
theorem Linked.deactivate :
    Linked env (kernel.setCallout c fun callout => { callout with active := false }) := by
  have fields (d : Nat) : ∃ active,
      (kernel.setCallout c fun callout => { callout with active := false }).callouts d =
        { kernel.callouts d with active := active } := by
    rcases eq_or_ne d c with rfl | other
    · exact ⟨false, setCallout_self ..⟩
    · exact ⟨(kernel.callouts d).active, setCallout_of_ne _ _ _ _ other⟩
  refine
    { nodup := linked.nodup
      mem_iff := fun bucket d => ?_
      unprocessed := fun d => ?_
      client := fun d => ?_
      settled := fun d => ?_
      notWaiting := linked.notWaiting
      noSwi := linked.noSwi
      locked := fun d running lock => ?_ } <;> obtain ⟨active, same⟩ := fields d
  · rw [same]
    exact linked.mem_iff bucket d
  · rw [same]
    exact linked.unprocessed d
  · rw [same]
    exact linked.client d
  · rw [same]
    exact linked.settled d
  · rw [same] at lock
    exact linked.locked d running lock

/-- `callout_reset_tick_on` takes the callout out of the wheel and puts it in again. -/
theorem calloutResetTickOn_spec (c : Nat) (toTicks : BitVec 32) (ftn arg : Nat)
    (directExec : Bool) :
    ∃ taken, Disarmed env c kernel taken ∧
      (calloutResetTickOn env c toTicks ftn arg directExec kernel).1 =
        calloutCcAdd env c (atLeastOne toTicks) ftn arg directExec taken := by
  have waiting := linked.notWaiting directExec
  have out (kernel : Kernel) (linked : Linked env kernel) : Disarmed env c kernel
      (if (kernel.callouts c).pending then disarm env c kernel else kernel) := by
    split_ifs with pending
    · exact .of_pending linked pending
    · exact .of_idle linked (Bool.eq_false_iff.mpr pending)
  simp only [calloutResetTickOn, waiting, Bool.false_eq_true, and_false]
  by_cases cancels : (kernel.cc.exec directExec).curr = some c ∧
      (kernel.callouts c).lock.isSome = true ∧ (!(kernel.cc.exec directExec).cancel) = true
  · simp only [if_pos cancels]
    exact ⟨_, (out _ (linked.setExec harmless_cancel)).after_setExec harmless_cancel, rfl⟩
  · simp only [if_neg cancels]
    exact ⟨_, out kernel linked, rfl⟩

/-- The last part of `_callout_stop_safe` takes the callout out of the wheel. -/
theorem stopPending_spec (c : Nat) (direct : Bool) (cancelled : Int) :
    Disarmed env c kernel (stopPending env c direct cancelled kernel).1 := by
  unfold stopPending
  split_ifs with pending
  · have taken := Disarmed.of_pending linked pending
    have client := (linked.disarmed taken).client c
    have kept : calloutCcDel c (disarm env c kernel) = disarm env c kernel := by
      simp [calloutCcDel, client]
    rw [kept]
    exact taken
  all_goals exact .of_idle linked (Bool.eq_false_iff.mpr pending)

section

variable (running : (kernel.cc.exec (kernel.callouts c).direct).curr = some c)

include running

/-- Only a callout with `CALLOUT_DIRECT` is ever found in progress. -/
theorem Linked.direct_of_running : (kernel.callouts c).direct = true := by
  by_contra swi
  rw [Bool.eq_false_iff.mpr swi, linked.noSwi] at running
  cases running

/-- What `_callout_stop_safe` does with a callout that it finds in progress. -/
theorem Linked.calloutStopSafe_running (executing : Bool) (drain : Option Nat) :
    calloutStopSafe env c executing drain kernel =
      stopPending env c true (if executing then 1 else 0)
        (if drain.isSome then
          (kernel.setCallout c fun callout => { callout with active := false }).setExec true
            fun exec => { exec with drain := drain }
        else kernel.setCallout c fun callout => { callout with active := false }) := by
  have direct := linked.direct_of_running running
  rw [direct] at running
  -- The function has been started, so that it cannot be cancelled any more.
  have started : ¬((kernel.callouts c).lock.isSome = true ∧
      (!(kernel.cc.exec true).cancel) = true ∧ drain.isNone = true) := by
    rintro ⟨lock, notCancelled, -⟩
    rw [linked.locked c running lock] at notCancelled
    cases notCancelled
  simp only [calloutStopSafe, linked.settled c, direct, if_pos running, if_neg started,
    Bool.false_eq_true, false_and, if_false]

end

/-- What `_callout_stop_safe` does with any other callout. -/
theorem Linked.calloutStopSafe_idle
    (idle : (kernel.cc.exec (kernel.callouts c).direct).curr ≠ some c) (executing : Bool)
    (drain : Option Nat) :
    calloutStopSafe env c executing drain kernel =
      stopPending env c (kernel.callouts c).direct 1 kernel := by
  simp only [calloutStopSafe, linked.settled c, if_neg idle, Bool.false_eq_true, false_and,
    if_false]

/-- `_callout_stop_safe` takes the callout out of the wheel. -/
theorem calloutStopSafe_spec (c : Nat) (executing : Bool) (drain : Option Nat) :
    Disarmed env c kernel (calloutStopSafe env c executing drain kernel).1 := by
  by_cases running : (kernel.cc.exec (kernel.callouts c).direct).curr = some c
  · have deactivated : Linked env
        (kernel.setCallout c fun callout => { callout with active := false }) :=
      linked.deactivate
    rw [linked.calloutStopSafe_running running]
    by_cases given : drain.isSome = true
    · rw [if_pos given]
      have recorded := @Linked.setExec _ _ deactivated true _ (harmless_drain drain)
      exact ((stopPending_spec recorded c _ _).after_setExec (harmless_drain drain)).after_deactivate
    · rw [if_neg given]
      exact (stopPending_spec deactivated c _ _).after_deactivate
  · rw [linked.calloutStopSafe_idle running]
    exact stopPending_spec linked c _ _

end Disarming

section Adding

variable {toTicks : BitVec 32} {ftn arg : Nat} {directExec : Bool}

theorem calloutCcAdd_self : (calloutCcAdd env c toTicks ftn arg directExec kernel).callouts c =
    { kernel.callouts c with
      time := kernel.ticks + toTicks, func := some ftn, arg := arg, active := true, pending := true
      processed := false, direct := (kernel.callouts c).direct || directExec } := by
  simp [calloutCcAdd]

theorem calloutCcAdd_of_ne {d : Nat} (other : d ≠ c) :
    (calloutCcAdd env c toTicks ftn arg directExec kernel).callouts d = kernel.callouts d := by
  simp [calloutCcAdd, other]

theorem calloutCcAdd_wheel : (calloutCcAdd env c toTicks ftn arg directExec kernel).cc.wheel =
    update kernel.cc.wheel (env.bucketOf (kernel.ticks + toTicks))
      (c :: kernel.cc.wheel (env.bucketOf (kernel.ticks + toTicks))) := rfl

/-- Putting in a callout that is out of the wheel keeps the wheel. -/
theorem Linked.added (linked : Linked env kernel)
    (idle : (kernel.callouts c).pending = false) :
    Linked env (calloutCcAdd env c toTicks ftn arg directExec kernel) := by
  refine
    { nodup := fun bucket => ?_
      mem_iff := fun bucket d => ?_
      unprocessed := fun d => ?_
      client := fun d => ?_
      settled := fun d => ?_
      notWaiting := linked.notWaiting
      noSwi := linked.noSwi
      locked := fun d running lock => linked.locked d running ?_ }
  · rw [calloutCcAdd_wheel]
    rcases eq_or_ne bucket (env.bucketOf (kernel.ticks + toTicks)) with rfl | elsewhere
    · rw [update_self]
      exact List.nodup_cons.mpr ⟨linked.not_mem idle _, linked.nodup _⟩
    · rw [update_of_ne elsewhere]
      exact linked.nodup bucket
  · rw [calloutCcAdd_wheel]
    rcases eq_or_ne d c with rfl | other <;>
      rcases eq_or_ne bucket (env.bucketOf (kernel.ticks + toTicks)) with rfl | elsewhere
    · simp [calloutCcAdd_self]
    · simp [calloutCcAdd_self, elsewhere, linked.not_mem idle]
    · simp [calloutCcAdd_of_ne other, other, linked.mem_iff]
    · simp [calloutCcAdd_of_ne other, elsewhere, linked.mem_iff]
  all_goals rcases eq_or_ne d c with rfl | other
  · rw [calloutCcAdd_self]
  · rw [calloutCcAdd_of_ne other]
    exact linked.unprocessed d
  · rw [calloutCcAdd_self]
    exact linked.client d
  · rw [calloutCcAdd_of_ne other]
    exact linked.client d
  · rw [calloutCcAdd_self]
    exact linked.settled d
  · rw [calloutCcAdd_of_ne other]
    exact linked.settled d
  · rwa [calloutCcAdd_self] at lock
  · rwa [calloutCcAdd_of_ne other] at lock

end Adding

section Operations

/-- What no operation on callouts changes. -/
structure Undisturbed (kernel kernel' : Kernel) : Prop where
  curr : ∀ direct, (kernel'.cc.exec direct).curr = (kernel.cc.exec direct).curr
  now : kernel'.now = kernel.now
  trace : kernel'.trace = kernel.trace

theorem Linked.record (linked : Linked env kernel) (event : Timer.Event Nat (Nat × Nat)) :
    Linked env (kernel.record event) :=
  { linked with }

/-- An operation keeps the wheel and leaves alone what is in progress. -/
theorem Linked.perform (linked : Linked env kernel) (op : CalloutOp) :
    Linked env (perform env kernel op) ∧ Undisturbed kernel (perform env kernel op) := by
  cases op with
  | reset d toTicks ftn arg directExec =>
    obtain ⟨taken, out, added⟩ := calloutResetTickOn_spec linked d toTicks ftn arg directExec
    rw [Timeout.perform, added]
    exact ⟨((linked.disarmed out).added out.idle).record _,
      ⟨out.progress.curr, out.clock.now, out.clock.trace⟩⟩
  | stop d executing drain =>
    have out := calloutStopSafe_spec linked d executing drain
    exact ⟨(linked.disarmed out).record _,
      ⟨out.progress.curr, out.clock.now, out.clock.trace⟩⟩

end Operations

end FStack.Timeout
