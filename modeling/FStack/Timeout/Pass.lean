import FStack.Timeout.Wheel

/-!
# A pass of the clock

`Sound` relates the wheel to the log of what clients asked for: a callout is
pending exactly if the log leaves it armed, and hangs at the 32 low bits of its
deadline, which is less than half a turn of `ticks` away. `Pass` adds what holds
while `softclock` walks a bucket: what is due is still ahead of `cc_next`. Arming
and stopping, which is all that functions can do, keep both.
-/

namespace FStack.Timeout

open Kernel Timer

/-- A callout is armed as the log says. -/
structure ArmedAs (log : List (Event Nat (Nat × Nat))) (now c : Nat) (callout : Callout)
    (due func : Nat) : Prop where
  log : armedAt log c = some (due, (func, callout.arg))
  func : callout.func = some func
  time : callout.time = BitVec.ofNat 32 due
  near : due < now + 2 ^ 31

/-- A callout of the kernel is armed as its log says. -/
abbrev Kernel.Armed (kernel : Kernel) (c due func : Nat) : Prop :=
  ArmedAs kernel.log kernel.now c (kernel.callouts c) due func

/-- The wheel agrees with the log; nothing before `since` is still armed. -/
structure Sound (env : Env) (since : Nat) (kernel : Kernel) : Prop where
  linked : Linked env kernel
  ticks : kernel.ticks = BitVec.ofNat 32 kernel.now
  caughtUp : kernel.cc.softticks = kernel.ticks
  kept : Kept kernel.log kernel.now since
  armed : ∀ c, (kernel.callouts c).pending = true → ∃ due func, kernel.Armed c due func
  idle : ∀ c, (kernel.callouts c).pending = false → armedAt kernel.log c = none

section Delays

theorem atLeastOne_pos (toTicks : BitVec 32) : 1 ≤ (atLeastOne toTicks).toNat := by
  unfold atLeastOne
  split_ifs with small
  · decide
  · rw [BitVec.toInt_eq_toNat_cond] at small
    split_ifs at small <;> omega

theorem atLeastOne_lt (toTicks : BitVec 32) : (atLeastOne toTicks).toNat < 2 ^ 31 := by
  unfold atLeastOne
  split_ifs with small
  · decide
  · rw [BitVec.toInt_eq_toNat_cond] at small
    split_ifs at small <;> omega

/-- A new deadline as `callout_cc_add` stores it. -/
theorem ofNat_add_delay (now : Nat) (delay : BitVec 32) :
    BitVec.ofNat 32 now + delay = BitVec.ofNat 32 (now + delay.toNat) := by
  apply BitVec.eq_of_toNat_eq
  simp

/-- A deadline less than a turn ahead of the tick that is walked is not due. -/
theorem ofNat_ne {since due : Nat} (later : since < due) (near : due < since + 2 ^ 32) :
    BitVec.ofNat 32 due ≠ BitVec.ofNat 32 since := by
  intro same
  have residues := congrArg BitVec.toNat same
  simp only [BitVec.toNat_ofNat] at residues
  omega

end Delays

variable {env : Env} {since : Nat} {kernel kernel' : Kernel} {c : Nat}

section

variable (sound : Sound env since kernel)

include sound

/-- A step that is about one callout and logs one event keeps the machine sound if it
does for that callout. -/
theorem Sound.settle {event : Event Nat (Nat × Nat)} (linked : Linked env kernel')
    (ticks : kernel'.ticks = kernel.ticks) (now : kernel'.now = kernel.now)
    (softticks : kernel'.cc.softticks = kernel.cc.softticks)
    (log : kernel'.log = kernel.log ++ [event])
    (kept : Kept (kernel.log ++ [event]) kernel.now since)
    (others : ∀ d, d ≠ event.key → kernel'.callouts d = kernel.callouts d)
    (armed : (kernel'.callouts event.key).pending = true →
      ∃ due func, kernel'.Armed event.key due func)
    (idle : (kernel'.callouts event.key).pending = false → event.settle = none) :
    Sound env since kernel' where
  linked := linked
  ticks := by rw [ticks, now, sound.ticks]
  caughtUp := by rw [softticks, ticks, sound.caughtUp]
  kept := by rwa [log, now]
  armed d pending := by
    rcases eq_or_ne d event.key with rfl | other
    · exact armed pending
    · have same := others d other
      rw [same] at pending
      obtain ⟨due, func, as⟩ := sound.armed d pending
      refine ⟨due, func, ⟨?_, by rw [same, as.func], by rw [same, as.time], by rw [now]; exact as.near⟩⟩
      rw [log, armedAt_concat, if_neg (symm other), same, as.log]
  idle d notPending := by
    rw [log, armedAt_concat]
    rcases eq_or_ne d event.key with rfl | other
    · rw [if_pos rfl, idle notPending]
    · rw [if_neg (symm other)]
      exact sound.idle d (others d other ▸ notPending)

theorem Sound.stop (taken : Disarmed env c kernel kernel') :
    Sound env since (kernel'.record (.stopped c)) := by
  have log : (kernel'.record (.stopped c)).log = kernel.log ++ [.stopped c] :=
    congrArg (· ++ [Event.stopped c]) taken.clock.log
  refine sound.settle ((sound.linked.disarmed taken).record _) taken.clock.ticks taken.clock.now
    taken.clock.softticks log (sound.kept.stop c) taken.others (fun pending => ?_) fun _ => rfl
  exact absurd (taken.idle.symm.trans pending) (by decide)

/-- A callout that is reset is due at its new time. -/
theorem Sound.reset (soon : since ≤ kernel.now + 1) (taken : Disarmed env c kernel kernel')
    (toTicks : BitVec 32) (ftn arg : Nat) (directExec : Bool) :
    Sound env since ((calloutCcAdd env c (atLeastOne toTicks) ftn arg directExec kernel').record
      (.armed c (kernel.now + (atLeastOne toTicks).toNat) (ftn, arg))) := by
  have positive := atLeastOne_pos toTicks
  have later : since ≤ kernel.now + (atLeastOne toTicks).toNat := by omega
  have own := @calloutCcAdd_self env kernel' c (atLeastOne toTicks) ftn arg directExec
  have others (d : Nat) (other : d ≠ c) :=
    @calloutCcAdd_of_ne env kernel' c (atLeastOne toTicks) ftn arg directExec d other
  refine sound.settle (((sound.linked.disarmed taken).added taken.idle).record _)
    taken.clock.ticks taken.clock.now taken.clock.softticks (congrArg (· ++ [_]) taken.clock.log)
    (sound.kept.arm c _ later) (fun d other => (others d other).trans (taken.others d other))
    (fun _ => ?_) (fun notPending => ?_)
  · refine ⟨kernel.now + (atLeastOne toTicks).toNat, ftn, ⟨?_, ?_, ?_, ?_⟩⟩
    · simp only [record, Event.key, armedAt_concat, own]
      rfl
    · exact congrArg Callout.func own
    · rw [← ofNat_add_delay, ← sound.ticks, ← taken.clock.ticks]
      exact congrArg Callout.time own
    · have small := atLeastOne_lt toTicks
      have same : kernel'.now = kernel.now := taken.clock.now
      change _ < kernel'.now + 2 ^ 31
      omega
  · cases (congrArg Callout.pending own).symm.trans notPending

/-- Whatever a function does keeps the machine sound. -/
theorem Sound.perform (soon : since ≤ kernel.now + 1) (op : CalloutOp) :
    Sound env since (perform env kernel op) := by
  cases op with
  | reset c toTicks ftn arg directExec =>
    obtain ⟨taken, out, added⟩ :=
      calloutResetTickOn_spec sound.linked c toTicks ftn arg directExec
    rw [Timeout.perform, added]
    exact sound.reset soon out toTicks ftn arg directExec
  | stop c executing drain =>
    exact sound.stop (calloutStopSafe_spec sound.linked c executing drain)

end

/-- What holds while `softclock` walks the bucket of tick `since`. -/
structure Pass (env : Env) (since : Nat) (kernel : Kernel) : Prop where
  sound : Sound env since kernel
  now : kernel.now = since + 1
  bucket : kernel.cc.bucket = env.bucketOf (BitVec.ofNat 32 since)
  walks : Cursor.Walks (kernel.cc.wheel (env.bucketOf (BitVec.ofNat 32 since))) kernel.cc.next
    fun c => (kernel.callouts c).time = BitVec.ofNat 32 since

/-- How many callouts of the bucket are due. -/
def dueCount (env : Env) (since : Nat) (kernel : Kernel) : Nat :=
  (kernel.cc.wheel (env.bucketOf (BitVec.ofNat 32 since))).countP
    fun c => (kernel.callouts c).time = BitVec.ofNat 32 since

section Walk

section

variable (taken : Disarmed env c kernel kernel')

include taken

/-- Taking out a callout leaves the others where they were. -/
theorem Disarmed.time_eq (d : Nat) : (kernel'.callouts d).time = (kernel.callouts d).time := by
  rcases eq_or_ne d c with rfl | other
  · obtain ⟨active, own⟩ := taken.own
    rw [own]
  · rw [taken.others d other]

theorem Disarmed.dueCount_le (since : Nat) :
    dueCount env since kernel' ≤ dueCount env since kernel := by
  simp only [dueCount, taken.wheel, taken.time_eq]
  exact List.erase_sublist.countP_le

/-- Taking out a callout keeps the walk. -/
theorem Disarmed.walks (linked : Linked env kernel) {bucket : BitVec 32} (After : BitVec 32 → Prop)
    (walks : Cursor.Walks (kernel.cc.wheel bucket) kernel.cc.next
      fun d => After (kernel.callouts d).time) :
    Cursor.Walks (kernel'.cc.wheel bucket) kernel'.cc.next
      fun d => After (kernel'.callouts d).time := by
  simp only [taken.wheel, taken.time_eq, taken.next]
  by_cases here : c ∈ kernel.cc.wheel bucket
  · obtain ⟨pending, rfl⟩ := (linked.mem_iff bucket c).mp here
    rw [if_pos pending]
    exact walks.erase (linked.nodup _) c
  · have stays : (if (kernel.callouts c).pending = true then
        Cursor.moveOff (kernel.cc.wheel (env.bucketOf (kernel.callouts c).time)) c kernel.cc.next
      else kernel.cc.next) = kernel.cc.next := by
      split_ifs
      · exact if_neg fun standing => here (walks.on c standing)
      · rfl
    rw [stays, List.erase_of_not_mem here]
    exact walks

end

/-- Putting in a callout that is not due keeps the walk. -/
theorem Linked.walks_calloutCcAdd (linked : Linked env kernel)
    (idle : (kernel.callouts c).pending = false) {curticks toTicks : BitVec 32}
    (bucket : kernel.cc.bucket = env.bucketOf curticks)
    (walks : Cursor.Walks (kernel.cc.wheel (env.bucketOf curticks)) kernel.cc.next
      fun d => (kernel.callouts d).time = curticks) (ftn arg : Nat) (directExec : Bool) :
    Cursor.Walks
      ((calloutCcAdd env c toTicks ftn arg directExec kernel).cc.wheel (env.bucketOf curticks))
      (calloutCcAdd env c toTicks ftn arg directExec kernel).cc.next
      fun d => ((calloutCcAdd env c toTicks ftn arg directExec kernel).callouts d).time =
        curticks := by
  have next : (calloutCcAdd env c toTicks ftn arg directExec kernel).cc.next =
      if kernel.cc.bucket = env.bucketOf (kernel.ticks + toTicks) then some c
      else kernel.cc.next := rfl
  rw [calloutCcAdd_wheel, next, bucket]
  rcases eq_or_ne (env.bucketOf curticks) (env.bucketOf (kernel.ticks + toTicks)) with
    same | elsewhere
  · rw [if_pos same, same, Function.update_self]
    exact Cursor.Walks.push (List.nodup_cons.mpr ⟨linked.not_mem idle _, linked.nodup _⟩)
  · rw [if_neg elsewhere, Function.update_of_ne elsewhere]
    refine walks.mono fun d member due => ?_
    have other : d ≠ c := fun same => linked.not_mem idle _ (same ▸ member)
    rwa [calloutCcAdd_of_ne other] at due

/-- A callout for another tick adds nothing to this one. -/
theorem Linked.dueCount_calloutCcAdd (linked : Linked env kernel)
    (idle : (kernel.callouts c).pending = false) {toTicks : BitVec 32}
    (notDue : kernel.ticks + toTicks ≠ BitVec.ofNat 32 since) (ftn arg : Nat)
    (directExec : Bool) :
    dueCount env since (calloutCcAdd env c toTicks ftn arg directExec kernel) =
      dueCount env since kernel := by
  have old (bucket : BitVec 32) : (kernel.cc.wheel bucket).countP
      (fun d => ((calloutCcAdd env c toTicks ftn arg directExec kernel).callouts d).time =
        BitVec.ofNat 32 since) =
      (kernel.cc.wheel bucket).countP fun d => (kernel.callouts d).time = BitVec.ofNat 32 since := by
    refine List.countP_congr fun d member => ?_
    have other : d ≠ c := fun same => linked.not_mem idle _ (same ▸ member)
    rw [calloutCcAdd_of_ne other]
  rw [dueCount, calloutCcAdd_wheel]
  rcases eq_or_ne (env.bucketOf (BitVec.ofNat 32 since)) (env.bucketOf (kernel.ticks + toTicks)) with
    same | elsewhere
  · rw [same, Function.update_self, List.countP_cons, old, ← same, calloutCcAdd_self]
    simp [notDue, dueCount]
  · rw [Function.update_of_ne elsewhere, old]
    rfl

/-- In a pass, whatever a function does keeps the walk and makes nothing due. -/
theorem Pass.perform (pass : Pass env since kernel) (op : CalloutOp) :
    Pass env since (perform env kernel op) ∧
      dueCount env since (perform env kernel op) ≤ dueCount env since kernel := by
  have soon : since ≤ kernel.now + 1 := by
    rw [pass.now]
    omega
  have sound := pass.sound.perform soon op
  cases op with
  | reset c toTicks ftn arg directExec =>
    obtain ⟨taken, out, added⟩ :=
      calloutResetTickOn_spec pass.sound.linked c toTicks ftn arg directExec
    rw [Timeout.perform, added] at sound ⊢
    have linked := pass.sound.linked.disarmed out
    have notDue : taken.ticks + atLeastOne toTicks ≠ BitVec.ofNat 32 since := by
      have small := atLeastOne_lt toTicks
      have now := pass.now
      rw [out.clock.ticks, pass.sound.ticks, ofNat_add_delay]
      exact ofNat_ne (by omega) (by omega)
    have walks := out.walks pass.sound.linked (· = BitVec.ofNat 32 since) pass.walks
    have bucket := out.clock.bucket.trans pass.bucket
    constructor
    · exact ⟨sound, out.clock.now.trans pass.now, bucket,
        linked.walks_calloutCcAdd out.idle bucket walks ftn arg directExec⟩
    · exact (linked.dueCount_calloutCcAdd out.idle notDue ftn arg directExec).le.trans
        (out.dueCount_le since)
  | stop c executing drain =>
    have out := calloutStopSafe_spec pass.sound.linked c executing drain
    have walks := out.walks pass.sound.linked (· = BitVec.ofNat 32 since) pass.walks
    exact ⟨⟨sound, out.clock.now.trans pass.now, out.clock.bucket.trans pass.bucket, walks⟩,
      out.dueCount_le since⟩

/-- A function that is called in a pass keeps the pass. -/
theorem Pass.call (pass : Pass env since kernel) (func arg : Nat) :
    Pass env since (call env func arg kernel) ∧
      dueCount env since (call env func arg kernel) ≤ dueCount env since kernel := by
  unfold Timeout.call
  generalize env.body func arg kernel = ops
  induction ops generalizing kernel with
  | nil => exact ⟨pass, le_rfl⟩
  | cons op rest ih =>
    obtain ⟨next, fewer⟩ := pass.perform op
    obtain ⟨last, fewer'⟩ := ih next
    exact ⟨last, fewer'.trans fewer⟩

end Walk

end FStack.Timeout
