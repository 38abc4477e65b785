import FStack.Timeout.Pass

/-!
# Callouts run when they are due

`softclock` walks the bucket of the tick that has passed. Every step of the walk
leaves less to do: it goes on in the list, or runs a callout that was due and so
removes it, and nothing that a function arms is due. So the walk comes to its end,
with nothing due left, and `ff_hardclock` keeps up with its callouts.
-/

namespace FStack.Timeout

open Cursor Kernel Timer

variable {env : Env} {since : Nat} {kernel : Kernel} {c : Nat} {cursor : Option Nat}

/-- What holds at the head of the inner loop of `softclock`. -/
structure Walking (env : Env) (since : Nat) (cursor : Option Nat) (kernel : Kernel) : Prop where
  sound : Sound env since kernel
  now : kernel.now = since + 1
  walks : Cursor.Walks (kernel.cc.wheel (env.bucketOf (BitVec.ofNat 32 since))) cursor
    fun c => (kernel.callouts c).time = BitVec.ofNat 32 since

section Running

/-- A change of an exec entity matters to a pass only for what is in progress. -/
theorem Pass.setExec {direct : Bool} {change : CcExec → CcExec} (pass : Pass env since kernel)
    (linked : Linked env (kernel.setExec direct change)) :
    Pass env since (kernel.setExec direct change) :=
  { pass with sound := { pass.sound with linked := linked } }

theorem Pass.note (pass : Pass env since kernel) (event : TraceEvent) :
    Pass env since (kernel.note event) :=
  { pass with sound := { pass.sound with linked := { pass.sound.linked with } } }

/-- When nothing is in progress no lock is held. -/
theorem Linked.finish (linked : Linked env kernel) :
    Linked env (kernel.setExec true fun exec => { exec with curr := none }) :=
  { linked with
    notWaiting := fun direct => by
      cases direct with
      | false => exact linked.notWaiting false
      | true => exact linked.notWaiting true
    noSwi := linked.noSwi
    locked := fun d running _ => nomatch running }

/-- The callout that the walk runs is armed for the tick that is walked. -/
theorem Walking.armedAs (walking : Walking env since (some c) kernel)
    (due : (kernel.callouts c).time = BitVec.ofNat 32 since) :
    ∃ func, kernel.Armed c since func := by
  have here := walking.walks.on c rfl
  obtain ⟨pending, -⟩ := (walking.sound.linked.mem_iff _ c).mp here
  obtain ⟨deadline, func, as⟩ := walking.sound.armed c pending
  have notBefore := walking.sound.kept.ahead c _ _ as.log
  have near := as.near
  have now := walking.now
  obtain rfl : deadline = since := by
    by_contra other
    refine ofNat_ne (by omega) (by omega) (as.time.symm.trans due)
  exact ⟨func, as⟩

/-- The callout is taken off its bucket, with `cc_next` behind it. -/
def takenOff (env : Env) (curticks : BitVec 32) (c : Nat) (kernel : Kernel) : Kernel :=
  { kernel with
    cc := { kernel.cc with
      next := next (kernel.cc.wheel (env.bucketOf curticks)) c
      bucket := env.bucketOf curticks } }.unlink c

/-- The state in which the function of a callout is called. -/
def started (env : Env) (curticks : BitVec 32) (c func : Nat) (kernel : Kernel) : Kernel :=
  let callout := kernel.callouts c
  (((enter c true (takenOff env curticks c kernel)).setExec true fun exec =>
    { exec with cancel := callout.lock.isSome }).record
      (.ran c kernel.now (func, callout.arg))).note (.called c)

variable {func : Nat}

/-- A callout that is due is called and then released. -/
theorem softclockCallCc_eq (curticks : BitVec 32) (armed : (kernel.callouts c).func = some func) :
    softclockCallCc env c true (takenOff env curticks c kernel) =
      leave env c true (kernel.callouts c)
        ((call env func (kernel.callouts c).arg (started env curticks c func kernel)).note
          (.returned c)) := by
  have same : (takenOff env curticks c kernel).callouts c = kernel.callouts c := rfl
  have fresh : ((enter c true (takenOff env curticks c kernel)).cc.exec true).cancel = false := by
    simp [enter]
  simp only [softclockCallCc, callFunction, same, armed]
  cases lock : (kernel.callouts c).lock with
  | none =>
    have kept : (enter c true (takenOff env curticks c kernel)).setExec true
        (fun exec => { exec with cancel := false }) =
          enter c true (takenOff env curticks c kernel) := by
      simp [enter, setExec]
    simp [started, lock, kept]
    rfl
  | some held =>
    simp [started, lock]
    rfl

/-- The callout is no longer pending when its function is called. -/
theorem started_self {curticks : BitVec 32} (client : (kernel.callouts c).localAlloc = false) :
    (started env curticks c func kernel).callouts c = { kernel.callouts c with pending := false } := by
  simp [started, enter, takenOff, unlink, record, note, client]

/-- A callout that is started is due no longer. -/
theorem Walking.started (walking : Walking env since (some c) kernel)
    (armed : kernel.Armed c since func) :
    Pass env since (started env (BitVec.ofNat 32 since) c func kernel) ∧
      dueCount env since (started env (BitVec.ofNat 32 since) c func kernel) <
        dueCount env since kernel := by
  have linked := walking.sound.linked
  have own := @started_self env kernel c func (BitVec.ofNat 32 since) (linked.client c)
  have others (d : Nat) (other : d ≠ c) :
      (Timeout.started env (BitVec.ofNat 32 since) c func kernel).callouts d = kernel.callouts d := by
    simp [Timeout.started, enter, takenOff, unlink, record, note, other]
  have hung : Hung env (Timeout.started env (BitVec.ofNat 32 since) c func kernel) :=
    linked.toHung.erase (fun _ => rfl) ⟨(kernel.callouts c).active, own⟩ others
  have linked' : Linked env (Timeout.started env (BitVec.ofNat 32 since) c func kernel) :=
    { hung with
      notWaiting := fun direct => by
        cases direct with
        | false => exact linked.notWaiting false
        | true => exact linked.notWaiting true
      noSwi := linked.noSwi
      locked := fun d running lock => by
        obtain rfl : c = d := Option.some.inj running
        rw [own] at lock
        exact lock }
  have kept : Kept (kernel.log ++ [.ran c kernel.now (func, (kernel.callouts c).arg)])
      kernel.now since := by
    have kept := walking.sound.kept
    rw [walking.now] at kept ⊢
    exact kept.run armed.log
  have sound : Sound env since (Timeout.started env (BitVec.ofNat 32 since) c func kernel) := by
    refine walking.sound.settle linked' rfl rfl rfl rfl kept others (fun pending => ?_) fun _ => rfl
    exact absurd ((congrArg Callout.pending own).symm.trans pending) (by simp)
  have time (d : Nat) : ((Timeout.started env (BitVec.ofNat 32 since) c func kernel).callouts d).time =
      (kernel.callouts d).time := by
    rcases eq_or_ne d c with rfl | other
    · rw [own]
    · rw [others d other]
  refine ⟨⟨sound, walking.now, rfl, ?_⟩, ?_⟩
  · have erased := walking.walks.erase (linked.nodup _) c
    rw [Cursor.moveOff, if_pos rfl] at erased
    simp only [time]
    exact erased
  · simp only [dueCount, time]
    have here := walking.walks.on c rfl
    have counted : 0 < (kernel.cc.wheel (env.bucketOf (BitVec.ofNat 32 since))).countP
        fun d => (kernel.callouts d).time = BitVec.ofNat 32 since :=
      List.countP_pos_iff.mpr ⟨c, here, by simpa using armed.time⟩
    change ((kernel.cc.wheel _).erase c).countP _ < _
    rw [List.countP_erase, if_pos ⟨here, by simpa using armed.time⟩]
    omega

/-- The end of `softclock_call_cc` keeps the pass. -/
theorem Pass.leave (pass : Pass env since kernel) {callout : Callout}
    (client : callout.localAlloc = false) :
    Pass env since (leave env c true callout kernel) ∧
      dueCount env since (leave env c true callout kernel) ≤ dueCount env since kernel := by
  have finished : Pass env since (kernel.setExec true fun exec => { exec with curr := none }) :=
    pass.setExec pass.sound.linked.finish
  have drained : ∃ next, Pass env since next ∧ dueCount env since next ≤ dueCount env since kernel ∧
      Timeout.leave env c true callout kernel = next := by
    simp only [Timeout.leave, client]
    cases (kernel.cc.exec true).drain with
    | none =>
      have waiting := finished.sound.linked.notWaiting true
      refine ⟨_, finished, le_rfl, ?_⟩
      simp only [waiting, Bool.false_eq_true, if_false]
    | some drain =>
      have cleared := @Linked.setExec _ _ finished.sound.linked true _ (harmless_drain none)
      have noted := (finished.setExec cleared).note (.drained drain callout.arg)
      obtain ⟨called, fewer⟩ := noted.call drain callout.arg
      have waiting := called.sound.linked.notWaiting true
      refine ⟨_, called, fewer, ?_⟩
      simp only [waiting, Bool.false_eq_true, if_false]
  obtain ⟨next, kept, fewer, same⟩ := drained
  exact same ▸ ⟨kept, fewer⟩

end Running

section Walk

/-- The walk goes on where `cc_next` stands. -/
theorem Pass.walking (pass : Pass env since kernel) :
    Walking env since kernel.cc.next { kernel with cc := { kernel.cc with next := none } } where
  sound := { pass.sound with linked := { pass.sound.linked with } }
  now := pass.now
  walks := pass.walks

/-- Running a callout that is due leaves less to run. -/
theorem Walking.run (walking : Walking env since (some c) kernel)
    (due : (kernel.callouts c).time = BitVec.ofNat 32 since) :
    Pass env since (softclockCallCc env c true (takenOff env (BitVec.ofNat 32 since) c kernel)) ∧
      dueCount env since
        (softclockCallCc env c true (takenOff env (BitVec.ofNat 32 since) c kernel)) <
          dueCount env since kernel := by
  obtain ⟨func, armed⟩ := walking.armedAs due
  obtain ⟨started, fewer⟩ := walking.started armed
  obtain ⟨called, fewer'⟩ := started.call func (kernel.callouts c).arg
  obtain ⟨left, fewer''⟩ := (called.note (.returned c)).leave (c := c) (walking.sound.linked.client c)
  rw [softclockCallCc_eq _ armed.func]
  exact ⟨left, lt_of_le_of_lt (fewer''.trans fewer') fewer⟩

/-- One turn of the inner loop of `softclock`, on its variable `c` and the kernel. -/
inductive LoopStep (env : Env) (curticks : BitVec 32) :
    Option Nat × Kernel → Option Nat × Kernel → Prop where
  | skip {c : Nat} {kernel : Kernel} (notDue : (kernel.callouts c).time ≠ curticks) :
      LoopStep env curticks (some c, kernel)
        (next (kernel.cc.wheel (env.bucketOf curticks)) c, kernel)
  | run {c : Nat} {kernel next : Kernel} (due : (kernel.callouts c).time = curticks)
      (ran : softclockCallCc env c true (takenOff env curticks c kernel) = next) :
      LoopStep env curticks (some c, kernel)
        (next.cc.next, { next with cc := { next.cc with next := none } })

variable {state state' : Option Nat × Kernel} {curticks : BitVec 32}

/-- The loop goes on as its turns do. -/
theorem LoopStep.walkBucket (step : LoopStep env curticks state state') (fuel : Nat) :
    walkBucket env curticks (fuel + 1) state.1 state.2 =
      walkBucket env curticks fuel state'.1 state'.2 := by
  cases step with
  | skip notDue => simp only [walkBucket, notDue, ne_eq, not_false_eq_true, if_true]
  | run due ran =>
    simp only [walkBucket, due, ne_eq]
    rw [← ran]
    rfl

/-- Where the next turn leads to an end, so does this one. -/
theorem LoopStep.finishes {enough : Nat} {next : Kernel} (step : LoopStep env curticks state state')
    (ends : ∀ fuel, enough ≤ fuel →
      Timeout.walkBucket env curticks fuel state'.1 state'.2 = some next) :
    ∀ fuel, enough + 1 ≤ fuel →
      Timeout.walkBucket env curticks fuel state.1 state.2 = some next := by
  intro fuel more
  obtain ⟨fuel, rfl⟩ := Nat.exists_eq_add_of_le' (Nat.le_of_add_left_le more)
  rw [step.walkBucket]
  exact ends fuel (by omega)

/-- A turn of the loop keeps what holds at its head. -/
theorem Walking.step (walking : Walking env since state.1 state.2)
    (step : LoopStep env (BitVec.ofNat 32 since) state state') :
    Walking env since state'.1 state'.2 := by
  cases step with
  | skip notDue =>
    exact { walking with walks := walking.walks.skip (walking.sound.linked.nodup _) notDue }
  | run due ran =>
    have pass := (walking.run due).1
    rw [ran] at pass
    exact pass.walking

/-- The walk over a bucket comes to its end. -/
theorem Walking.finishes (walking : Walking env since cursor kernel) :
    ∃ enough next, (∀ fuel, enough ≤ fuel →
      walkBucket env (BitVec.ofNat 32 since) fuel cursor kernel = some next) ∧
        Walking env since none next := by
  -- By induction on what is due, and then on what is ahead.
  generalize count : dueCount env since kernel = due
  induction due using Nat.strong_induction_on generalizing cursor kernel with
  | h due ihDue =>
    generalize left : (ahead (kernel.cc.wheel (env.bucketOf (BitVec.ofNat 32 since)))
      cursor).length = length
    induction length using Nat.strong_induction_on generalizing cursor with
    | h length ihLength =>
      cases cursor with
      | none =>
        refine ⟨1, kernel, fun fuel enough => ?_, walking⟩
        obtain ⟨fuel, rfl⟩ := Nat.exists_eq_add_of_le' enough
        rfl
      | some c =>
        by_cases now : (kernel.callouts c).time = BitVec.ofNat 32 since
        · obtain ⟨pass, fewer⟩ := walking.run now
          obtain ⟨enough, next, ends, done⟩ := ihDue _ (count ▸ fewer) pass.walking rfl
          exact ⟨enough + 1, next, (LoopStep.run now rfl).finishes ends, done⟩
        · have step : LoopStep env (BitVec.ofNat 32 since) (some c, kernel) _ := .skip now
          have shorter : (ahead (kernel.cc.wheel (env.bucketOf (BitVec.ofNat 32 since)))
              (next (kernel.cc.wheel (env.bucketOf (BitVec.ofNat 32 since))) c)).length <
                length := by
            rw [← left]
            exact length_next_lt (walking.sound.linked.nodup _) (walking.walks.on c rfl)
          obtain ⟨enough, next, ends, done⟩ := ihLength _ shorter (walking.step step) rfl
          exact ⟨enough + 1, next, step.finishes ends, done⟩

/-- When the walk is at its end, nothing is due any more. -/
theorem Walking.caughtUp (walking : Walking env since none kernel) :
    Sound env kernel.now kernel := by
  refine { walking.sound with kept := walking.sound.kept.advance fun c due what armed => ?_ }
  have notBefore := walking.sound.kept.ahead c due what armed
  have now := walking.now
  cases pending : (kernel.callouts c).pending with
  | false =>
    rw [walking.sound.idle c pending] at armed
    cases armed
  | true =>
    obtain ⟨deadline, func, as⟩ := walking.sound.armed c pending
    obtain ⟨rfl, -⟩ := Prod.mk.inj (Option.some.inj (armed.symm.trans as.log))
    by_contra early
    obtain rfl : due = since := by omega
    have here := walking.sound.linked.mem_own pending
    rw [as.time] at here
    exact walking.walks.done c here as.time

end Walk

section Clock

/-- The kernel once a tick has passed and `cc_softticks` has followed. -/
def ticked (kernel : Kernel) : Kernel :=
  { kernel with
    ticks := kernel.ticks + 1
    now := kernel.now + 1
    cc := { kernel.cc with softticks := kernel.cc.softticks + 1 } }

theorem ofNat_succ (now : Nat) : BitVec.ofNat 32 now + 1 = BitVec.ofNat 32 (now + 1) :=
  ofNat_add_delay now 1

theorem sub_succ_toInt (ticks : BitVec 32) : (ticks - (ticks + 1)).toInt < 0 := by
  have behind : ticks - (ticks + 1) = -1 := by
    apply BitVec.eq_of_toNat_eq
    simp
  rw [behind]
  decide

theorem succ_ne (ticks : BitVec 32) : ticks ≠ ticks + 1 := by
  bv_omega

section

variable (sound : Sound env kernel.now kernel)

include sound

/-- A tick makes due what was armed for the tick before. -/
theorem Sound.ticked : Sound env kernel.now (ticked kernel) where
  linked := { sound.linked with }
  ticks := by
    change kernel.ticks + 1 = BitVec.ofNat 32 (kernel.now + 1)
    rw [← ofNat_succ, sound.ticks]
  caughtUp := congrArg (· + 1) sound.caughtUp
  kept := sound.kept.tick
  armed c pending := by
    obtain ⟨due, func, as⟩ := sound.armed c pending
    exact ⟨due, func, { as with near := by have := as.near; simp only [Timeout.ticked]; omega }⟩
  idle := sound.idle

/-- `softclock` starts its walk at the head of the bucket. -/
theorem Sound.walking :
    Walking env kernel.now (kernel.cc.wheel (env.bucketOf kernel.cc.softticks)).head?
      (Timeout.ticked kernel) := by
  refine ⟨sound.ticked, rfl, ?_⟩
  rw [sound.caughtUp, sound.ticks]
  exact Cursor.Walks.head (sound.linked.nodup _)

/-- `ff_hardclock` comes to its end and leaves nothing that is due. -/
theorem ffHardclock_sound :
    ∃ enough next, (∀ fuel, enough ≤ fuel → ffHardclock env fuel kernel = some next) ∧
      Sound env next.now next ∧ next.now = kernel.now + 1 := by
  have follows : kernel.cc.softticks = BitVec.ofNat 32 kernel.now :=
    sound.caughtUp.trans sound.ticks
  have behind : (kernel.cc.softticks - (kernel.ticks + 1)).toInt < 0 := by
    rw [sound.caughtUp]
    exact sub_succ_toInt kernel.ticks
  by_cases empty : kernel.cc.wheel (env.bucketOf kernel.cc.softticks) = []
  · have walking := sound.walking
    rw [empty] at walking
    refine ⟨2, ticked kernel, fun fuel enough => ?_, walking.caughtUp, rfl⟩
    obtain ⟨fuel, rfl⟩ := Nat.exists_eq_add_of_le' enough
    have level : ¬(kernel.cc.softticks + 1 - (kernel.ticks + 1)).toInt < 0 := by
      rw [sound.caughtUp, sub_self]
      decide
    simp only [ffHardclock, calloutTick, behind, empty, level]
    rfl
  · obtain ⟨enough, next, ends, done⟩ := sound.walking.finishes
    refine ⟨enough + 3, next, fun fuel more => ?_, done.caughtUp, done.now⟩
    obtain ⟨fuel, rfl⟩ : ∃ rest, fuel = rest + 3 := ⟨fuel - 3, by omega⟩
    have different : kernel.cc.softticks ≠ kernel.ticks + 1 := by
      rw [sound.caughtUp]
      exact succ_ne kernel.ticks
    have walked := ends (fuel + 1) (by omega)
    rw [← follows] at walked
    have finished : softclock env (fuel + 1) next = some next := by
      simp only [softclock, done.sound.caughtUp, if_true]
    simp only [ffHardclock, calloutTick, behind, empty, if_false]
    rw [softclock, if_neg different]
    exact (congrArg (·.bind (softclock env (fuel + 1))) walked).trans finished

end

/-- The states at the head of the inner loop, in the pass that `ff_hardclock` makes. -/
def PassReaches (env : Env) (kernel : Kernel) (cursor : Option Nat) (kernel' : Kernel) : Prop :=
  Relation.ReflTransGen (LoopStep env kernel.cc.softticks)
    ((kernel.cc.wheel (env.bucketOf kernel.cc.softticks)).head?, ticked kernel) (cursor, kernel')

/-- What holds at the head of the loop holds in the whole pass. -/
theorem Sound.walking_of_passReaches {kernel' : Kernel} (sound : Sound env kernel.now kernel)
    (reaches : PassReaches env kernel cursor kernel') :
    Walking env kernel.now cursor kernel' := by
  have follows : kernel.cc.softticks = BitVec.ofNat 32 kernel.now :=
    sound.caughtUp.trans sound.ticks
  unfold PassReaches at reaches
  generalize here : (cursor, kernel') = state at reaches
  suffices Walking env kernel.now state.1 state.2 by rwa [← here] at this
  clear here
  induction reaches with
  | refl => exact sound.walking
  | tail _ step ih => exact ih.step (follows ▸ step)

end Clock

end FStack.Timeout
