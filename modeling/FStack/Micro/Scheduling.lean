import FStack.Micro.Places

/-!
# Scheduling keeps every thread in one place

The moves of the frame are followed from one state in which nothing is in the hand but the
active thread to the next. So in every state that a frame comes to, each thread is in
exactly one place, the flags say which, and no assertion has failed.
-/

namespace FStack.Micro.MtFrame

open Function (update update_apply update_idem update_of_ne update_self)
open Custody HeapList List Maps Option

variable {frame frame' : MtFrame} {location : Nat → Option Place} {owner : Option Nat}
  {hand subs : List Nat} {kind : ThreadFlag} {place : Place} {s t p : Nat}

/-- A frame without the fields that have nothing to do with lists. -/
def bare (frame : MtFrame) : MtFrame :=
  { frame with
    state := fun _ => .initial
    wakeupTime := fun _ => 0
    useNum := 0
    defaultThreadNum := 0
    lastDefaultThreadNum := 0
    active := 0
    lastClock := 0
    waitnum := 0 }

namespace InHand

theorem bare (inHand : InHand frame owner hand) (same : frame'.bare = frame.bare) :
    InHand frame' owner hand := by
  have field {β : Type} (get : MtFrame → β) : get frame'.bare = get frame.bare := by rw [same]
  have kin : Kin frame frame' := ⟨field (·.parent), field (·.subList),
    fun s _ _ => (congrFun (field (·.type)) s).trans⟩
  exact inHand.alike
    ⟨kin, field (·.flag), field (·.freelist), field (·.iolist), field (·.runlist),
      field (·.pendList), field (·.sleeplist), field (·.failed)⟩
    ⟨kin, field (·.threads), field (·.next), field (·.daemon), field (·.totalNum),
      field (·.maxNum), field (·.sleeplist.max)⟩

section Pool

/-- What the pool does not touch. -/
structure Served (frame frame' : MtFrame) : Prop extends Calm frame frame' where
  active : frame'.active = frame.active
  daemon : frame'.daemon = frame.daemon
  parent : frame'.parent = frame.parent

theorem Served.refl (frame : MtFrame) : Served frame frame := ⟨⟨rfl, fun _ _ => rfl⟩, rfl, rfl, rfl⟩

theorem Served.trans {frame'' : MtFrame} (first : Served frame frame')
    (second : Served frame' frame'') : Served frame frame'' where
  toCalm := first.toCalm.trans second.toCalm
  active := second.active.trans first.active
  daemon := second.daemon.trans first.daemon
  parent := second.parent.trans first.parent

variable {rest : List Nat}

theorem popFree_delists (tidy : frame.Tidy) (first : frame.freelist = t :: rest)
    (listed : frame.flag t .freeList = true) :
    Delists frame ({ frame with freelist := rest }.setFlag t .freeList false) .freeList t := by
  have nodup := first ▸ tidy.freelist
  refine ⟨rfl, fun other u => ?_, { tidy with freelist := (nodup_cons.mp nodup).2 }, ?_,
    ⟨⟨rfl, rfl, fun _ _ _ => id⟩, rfl, rfl, rfl, rfl, rfl, rfl⟩⟩
  · cases other <;> simp only [Listed, setFlag, first, reduceCtorEq, false_and, true_and,
      not_false_eq_true, and_true]
    exact mem_of_cons nodup
  · simp [setFlag, listed]

/-- A free thread is taken in hand. -/
theorem popFree (inHand : InHand frame owner hand) (first : frame.freelist = t :: rest) :
    InHand ({ frame with freelist := rest }.setFlag t .freeList false) owner (t :: hand) ∧
      frame.flag t .freeList = true ∧ frame.parent t = none := by
  have listed : t ∈ frame.freelist := first ▸ mem_cons_self
  have flagged : frame.flag t .freeList = true := inHand.flag_iff.mpr listed
  refine ⟨inHand.take (popFree_delists inHand.tidy first flagged) rfl listed (by rintro ⟨⟩)
    (by rintro ⟨⟩), flagged, ?_⟩
  obtain ⟨location, kept, -⟩ := inHand.kept
  by_contra child
  obtain ⟨p, child⟩ := ne_none_iff_exists'.mp child
  exact (kept.families.alive t p child).1 ((kept.places .freeList .freeList rfl t).mp listed)

theorem ne_daemon (inHand : InHand frame owner (t :: hand)) : t ≠ frame.daemon := by
  obtain ⟨location, kept, ruling⟩ := inHand.kept
  rintro rfl
  rw [kept.location_hand] at ruling
  cases ruling

section

variable (inHand : InHand frame owner hand)

include inHand

/-- A new thread is in hand. -/
theorem newThread (type : ThreadType) {total : Int} (counted : total = frame.totalNum + 1)
    (room : frame.totalNum < frame.maxNum) :
    InHand { frame.newThread type with totalNum := total } owner (frame.next :: hand) ∧
      (frame.newThread type).parent = frame.parent ∧ frame.parent frame.next = none := by
  obtain ⟨location, kept, ruling⟩ := inHand.kept
  obtain ⟨alike, made⟩ := kept.newThread inHand.asleep type
  have gone := kept.populated.fresh frame.next le_rfl
  refine ⟨⟨fun u => ?_, ⟨?_, ?_, inHand.counted.room⟩, _, made.alike
    ⟨⟨rfl, rfl, fun _ _ _ => id⟩, rfl, rfl, rfl, rfl, rfl, rfl, rfl⟩
    ⟨made.populated.threads, made.populated.once, made.populated.fresh, made.populated.ruler⟩,
    ?_⟩, alike.parent, ?_⟩
  · exact inHand.asleep u
  · have before := inHand.counted.total
    simp only [MtFrame.newThread, cleanState, setWakeupTime, length_cons]
    omega
  · have limit := inHand.counted.room
    change total < frame.sleeplist.max
    omega
  · change update location frame.next (some .active) frame.daemon = _
    rw [update_of_ne, ruling]
    intro same
    rw [same, gone] at ruling
    cases ruling
  · by_contra child
    obtain ⟨p, child⟩ := Option.ne_none_iff_exists'.mp child
    exact (kept.families.alive _ p child).2 gone

theorem ne_next (member : t ∈ frame.threads) : t ≠ frame.next := by
  obtain ⟨location, kept, -⟩ := inHand.kept
  rintro rfl
  exact (kept.populated.threads _).mp member (kept.populated.fresh _ le_rfl)

theorem next_awake : frame.next ∉ frame.sleeplist.heap.members := by
  obtain ⟨location, kept, -⟩ := inHand.kept
  intro sleeps
  have there := (kept.places .sleepList .sleepHeap rfl frame.next).mp sleeps
  rw [kept.populated.fresh _ le_rfl] at there
  cases there

theorem mem_threads (member : t ∈ hand) : t ∈ frame.threads := by
  obtain ⟨location, kept, -⟩ := inHand.kept
  rw [kept.populated.threads, (kept.held t).mp member]
  rintro ⟨⟩

/-- A thread from the pool is in the hand, and has no family. -/
theorem allocThread (memory : Bool) :
    Served frame (frame.allocThread memory).1 ∧
    (∀ u ∈ frame.threads, (frame.allocThread memory).1.type u = frame.type u) ∧
    ((frame.allocThread memory).2 = none → InHand (frame.allocThread memory).1 owner hand) ∧
    ∀ t, (frame.allocThread memory).2 = some t →
      InHand (frame.allocThread memory).1 owner (t :: hand) ∧ frame.parent t = none := by
  unfold MtFrame.allocThread
  cases free : frame.freelist with
  | cons first rest =>
    obtain ⟨popped, flagged, orphan⟩ := inHand.popFree free
    refine ⟨⟨⟨rfl, fun _ _ => rfl⟩, rfl, rfl, rfl⟩, fun _ _ => rfl, by rintro ⟨⟩, ?_⟩
    rintro t ⟨⟩
    refine ⟨popped.alike ⟨⟨rfl, rfl, fun _ _ _ => id⟩, rfl, rfl, rfl, rfl, rfl, rfl, ?_⟩
      ⟨⟨rfl, rfl, fun _ _ _ => id⟩, rfl, rfl, rfl, rfl, rfl, rfl⟩, orphan⟩
    simp [check, flagged]
  | nil =>
    dsimp only
    split_ifs with full poor grown
    · exact ⟨.refl frame, fun _ _ => rfl, fun _ => inHand, by rintro _ ⟨⟩⟩
    · exact ⟨.refl frame, fun _ _ => rfl, fun _ => inHand, by rintro _ ⟨⟩⟩
    all_goals
      obtain ⟨made, parent, orphan⟩ := inHand.newThread .normal rfl (by omega)
      have calm := Calm.setWakeupTime inHand.next_awake 0
      refine ⟨⟨⟨rfl, calm.wakeupTime⟩, rfl, rfl, parent⟩, fun u member => ?_, by rintro ⟨⟩, ?_⟩
      · exact update_of_ne (inHand.ne_next member) ..
      rintro t ⟨⟩
      exact ⟨made.bare rfl, orphan⟩

end

/-- A thread in hand is deleted, and the count goes down. -/
theorem delete (inHand : InHand frame owner (t :: hand)) (orphan : frame.parent t = none)
    (stranger : owner ≠ some t) :
    InHand { frame.delete t with totalNum := frame.totalNum - 1 } owner hand := by
  obtain ⟨location, kept, ruling⟩ := inHand.kept
  obtain ⟨alike, deleted⟩ := kept.delete inHand.asleep orphan stranger
  have here : t ∈ frame.threads := inHand.mem_threads mem_cons_self
  refine ⟨fun u => ?_, ⟨?_, ?_, inHand.counted.room⟩, _, deleted.alike
    ⟨⟨rfl, rfl, fun _ _ _ => id⟩, rfl, rfl, rfl, rfl, rfl, rfl, rfl⟩
    ⟨deleted.populated.threads, deleted.populated.once, deleted.populated.fresh,
      deleted.populated.ruler⟩, ?_⟩
  · exact inHand.asleep u
  · have before := inHand.counted.total
    have nonempty := length_pos_of_mem here
    simp only [MtFrame.delete, length_erase_of_mem here]
    omega
  · have before := inHand.counted.bounded
    change frame.totalNum - 1 < frame.sleeplist.max
    omega
  · change update location t none frame.daemon = _
    rw [update_of_ne inHand.ne_daemon.symm, ruling]

/-- Trimming deletes free threads only. -/
theorem trimPool (inHand : InHand frame owner hand) :
    Served frame frame.trimPool ∧ InHand frame.trimPool owner hand := by
  unfold MtFrame.trimPool
  cases free : frame.freelist with
  | nil => exact ⟨.refl frame, inHand⟩
  | cons first rest =>
    obtain ⟨popped, -, orphan⟩ := inHand.popFree free
    have stranger : owner ≠ some first := by
      rintro rfl
      obtain ⟨location, kept, -⟩ := inHand.kept
      have unlisted : ¬ frame.Listed .freeList first :=
        kept.not_listed (kept.owned first rfl) rfl
      exact unlisted (free ▸ mem_cons_self : first ∈ frame.freelist)
    have deleted := popped.delete orphan stranger
    have same : ({ frame with freelist := rest }.setFlag first .freeList false).delete first =
        { frame with freelist := rest }.delete first := by
      simp only [setFlag, MtFrame.delete, update_idem]
    rw [same] at deleted
    dsimp only
    split_ifs
    · exact ⟨⟨⟨rfl, fun _ _ => rfl⟩, rfl, rfl, rfl⟩, deleted.bare rfl⟩
    · exact ⟨⟨⟨rfl, fun _ _ => rfl⟩, rfl, rfl, rfl⟩, deleted.bare rfl⟩
    · exact ⟨.refl frame, inHand⟩

/-- A thread without a family goes back to the pool. -/
theorem freeThread (inHand : InHand frame owner (t :: hand)) (orphan : frame.parent t = none)
    (stranger : owner ≠ some t) :
    Served frame (frame.freeThread t) ∧ InHand (frame.freeThread t) owner hand := by
  have blank : Blank frame t := by
    obtain ⟨location, kept, -⟩ := inHand.kept
    exact kept.blank inHand.asleep (fun kind place => kept.not_listed mem_cons_self) orphan
      (kept.childless mem_cons_self stranger)
  have clean := cleanState_alike blank .normal
  -- the thread is reset, and then put on the free list
  have reset : InHand ((frame.check (!frame.flag t .freeList)).reset t) owner (t :: hand) := by
    refine inHand.alike
      ⟨⟨clean.parent, clean.subList, clean.type⟩, clean.flag, rfl, rfl, rfl, rfl, rfl, ?_⟩
      ⟨⟨clean.parent, clean.subList, clean.type⟩, rfl, rfl, rfl, rfl, rfl, rfl⟩
    simp [reset, check, cleanState, setWakeupTime, blank.flag]
  generalize cleared : (frame.check (!frame.flag t .freeList)).reset t = frame₁ at reset
  have orphan₁ : frame₁.parent t = none := by
    rw [← cleared]
    exact update_self ..
  have free : ¬ frame₁.Listed .freeList t := reset.not_listed rfl
  have change : Enlists frame₁ ({ frame₁ with freelist := frame₁.freelist ++ [t] }.setFlag t
      .freeList true) .freeList t := by
    have off : frame₁.flag t .freeList = false := by
      rw [← cleared]
      simp only [MtFrame.reset, cleanState, update_self]
    refine ⟨rfl, fun other u => ?_, { reset.tidy with
      freelist := nodup_concat reset.tidy.freelist free }, ?_,
      ⟨⟨rfl, rfl, fun _ _ _ => id⟩, rfl, rfl, rfl, rfl, rfl, rfl⟩⟩
    · cases other <;> simp [Listed, setFlag]
    · simp [setFlag, off]
  have put := reset.put change rfl (fun _ => orphan₁) (fun p owning => .inl owning)
    (reset.owner_mem stranger)
  have counted : InHand ({ frame₁ with
      useNum := frame₁.useNum - 1
      freelist := frame₁.freelist ++ [t] }.setFlag t .freeList true) owner hand := put.bare rfl
  have trimmed := counted.trimPool
  unfold MtFrame.freeThread
  dsimp only
  rw [cleared]
  refine ⟨Served.trans ⟨?_, ?_, ?_, ?_⟩ trimmed.1, trimmed.2⟩
  · have awake : ¬ frame.Listed .sleepList t := inHand.not_listed rfl
    rw [← cleared]
    exact ⟨rfl, (Calm.setWakeupTime awake 0).wakeupTime⟩
  · rw [← cleared]
    rfl
  · rw [← cleared]
    rfl
  · rw [← cleared]
    exact clean.parent

end Pool

section Families

theorem addSubThread_eq (off : frame.flag s .subList = false) :
    frame.addSubThread p s = { frame with
      subList := update frame.subList p (frame.subList p ++ [s])
      parent := update frame.parent s (some p)
      flag := update frame.flag s (update (frame.flag s) .subList true) } := by
  simp [addSubThread, check, setFlag, off]

/-- A thread in the hand gets a sub thread that is in the hand, too. -/
theorem addSubThread (inHand : InHand frame owner hand) (parent : p ∈ hand) (sub : s ∈ hand)
    (orphan : frame.parent s = none) (typed : frame.type s = .subThread)
    (own : ∀ q, owner = some q → q = p) : InHand (frame.addSubThread p s) (some p) hand := by
  obtain ⟨location, kept, ruling⟩ := inHand.kept
  have families := kept.families
  have outside (q : Nat) : s ∉ frame.subList q := fun member => by
    cases orphan.symm.trans ((families.sub s q).mp member)
  have off : frame.flag s .subList = false := Bool.eq_false_iff.mpr fun on => by
    obtain ⟨q, member⟩ := (kept.flags .subList s).mp on
    exact outside q member
  have listed (u q : Nat) : u ∈ update frame.subList p (frame.subList p ++ [s]) q ↔
      u ∈ frame.subList q ∨ u = s ∧ q = p := by
    rcases eq_or_ne q p with rfl | elsewhere
    · rw [update_self, mem_append, mem_singleton, and_iff_left rfl]
    · rw [update_of_ne elsewhere, or_iff_left fun both => elsewhere both.2]
  rw [addSubThread_eq off]
  refine ⟨inHand.asleep, { inHand.counted with }, location, { kept with
      flags := Kept.enlist_flags kept.flags rfl fun other u => ?_
      places := fun kind place stands => ?_
      tidy := { kept.tidy with }
      populated := { kept.populated with }
      families := ⟨fun u q => ?_, fun q => ?_, fun u q child => ?_, fun u q child => ?_,
        fun u q child => ?_⟩
      owned := fun q same => some.inj same ▸ parent }, ruling⟩
  · cases other <;> simp only [Listed, reduceCtorEq, false_and, or_false, true_and, listed,
      exists_or, exists_and_left, exists_eq, and_true]
  · have fits := kept.places kind place stands
    cases kind <;> first | exact fits | cases stands
  · dsimp only
    rw [listed, families.sub, update_some_iff, or_comm, eq_comm (a := q)]
    refine or_congr_right (and_iff_right_of_imp ?_).symm
    rintro child rfl
    cases orphan.symm.trans child
  · dsimp only
    rcases eq_or_ne q p with rfl | elsewhere
    · rw [update_self]
      exact nodup_concat (families.nodup q) (outside q)
    · rw [update_of_ne elsewhere]
      exact families.nodup q
  all_goals rcases update_some_iff.mp child with ⟨rfl, rfl⟩ | ⟨-, child⟩
  · exact typed
  · exact families.type u q child
  · exact .inr rfl
  · exact (families.waits u q child).imp_right fun owning => by rw [own q owning]
  · rw [(kept.held u).mp sub]
    exact ⟨by rintro ⟨⟩, by rintro ⟨⟩⟩
  · exact families.alive u q child

theorem removeSubThread_eq (on : frame.flag s .subList = true) :
    frame.removeSubThread p s = { frame with
      subList := update frame.subList p ((frame.subList p).erase s)
      parent := update frame.parent s none
      flag := update frame.flag s (update (frame.flag s) .subList false) } := by
  simp [removeSubThread, check, setFlag, on]

/-- A child that is removed has no parent. -/
theorem removeSubThread (inHand : InHand frame owner hand) (child : frame.parent s = some p) :
    InHand (frame.removeSubThread p s) owner hand ∧
      (frame.removeSubThread p s).parent s = none := by
  obtain ⟨location, kept, ruling⟩ := inHand.kept
  have families := kept.families
  have member : s ∈ frame.subList p := (families.sub s p).mpr child
  have only {q : Nat} (other : s ∈ frame.subList q) : q = p := by
    rw [families.sub, child] at other
    exact (some.inj other).symm
  have on : frame.flag s .subList = true := (kept.flags .subList s).mpr ⟨p, member⟩
  have listed (u q : Nat) : u ∈ update frame.subList p ((frame.subList p).erase s) q ↔
      u ∈ frame.subList q ∧ u ≠ s := by
    rcases eq_or_ne q p with rfl | elsewhere
    · rw [update_self, (families.nodup q).mem_erase_iff, and_comm]
    · rw [update_of_ne elsewhere]
      refine (and_iff_left_of_imp ?_).symm
      rintro other rfl
      exact elsewhere (only other)
  have orphaned {u q : Nat} (child : update frame.parent s none u = some q) :=
    (update_none_iff.mp child).2
  rw [removeSubThread_eq on]
  refine ⟨⟨inHand.asleep, { inHand.counted with }, location, { kept with
      flags := Kept.delist_flags kept.flags rfl fun other u => ?_
      places := fun kind place stands => ?_
      tidy := { kept.tidy with }
      populated := { kept.populated with }
      families := ⟨fun u q => ?_, fun q => ?_, fun u q child => families.type u q (orphaned child),
        fun u q child => families.waits u q (orphaned child),
        fun u q child => families.alive u q (orphaned child)⟩ }, ruling⟩,
    update_self ..⟩
  · cases other <;> simp only [Listed, reduceCtorEq, false_and, not_false_eq_true, and_true,
      true_and, listed, exists_and_right]
  · have fits := kept.places kind place stands
    cases kind <;> first | exact fits | cases stands
  · dsimp only
    rw [listed, families.sub, update_none_iff, and_comm]
  · dsimp only
    rcases eq_or_ne q p with rfl | elsewhere
    · rw [update_self]
      exact (families.nodup q).erase s
    · rw [update_of_ne elsewhere]
      exact families.nodup q

end Families

end InHand

section Moves

/-- The active thread, if it is not the daemon. -/
def actives (frame : MtFrame) : List Nat :=
  if frame.active = frame.daemon then [] else [frame.active]

/-- Nothing is in the hand but the active thread. -/
def Rests (frame : MtFrame) : Prop := InHand frame none frame.actives

theorem InHand.rests (inHand : InHand frame' none frame.actives)
    (active : frame'.active = frame.active) (daemon : frame'.daemon = frame.daemon) :
    frame'.Rests := by
  unfold Rests actives
  rw [active, daemon]
  exact inHand

theorem InHand.activate (inHand : InHand frame none [t]) : (frame.activate t).Rests := by
  unfold Rests actives
  rw [if_neg (show (frame.activate t).active ≠ (frame.activate t).daemon from inHand.ne_daemon)]
  exact inHand.bare rfl

theorem InHand.activateDaemon (inHand : InHand frame none []) :
    (frame.activate frame.daemon).Rests := by
  unfold Rests actives
  rw [if_pos (show (frame.activate frame.daemon).active = (frame.activate frame.daemon).daemon
    from rfl)]
  exact inHand.bare rfl

theorem InHand.threadSchdule (inHand : InHand frame none []) : frame.threadSchdule.Rests := by
  unfold MtFrame.threadSchdule
  cases queued : frame.runlist with
  | nil => exact inHand.activateDaemon
  | cons first rest => exact (inHand.removeRunable queued).activate

@[simp] theorem threadSchdule_sleeplist (frame : MtFrame) :
    frame.threadSchdule.sleeplist = frame.sleeplist := by
  unfold threadSchdule
  cases frame.runlist <;> rfl

@[simp] theorem threadSchdule_wakeupTime (frame : MtFrame) :
    frame.threadSchdule.wakeupTime = frame.wakeupTime := by
  unfold threadSchdule
  cases frame.runlist <;> rfl

theorem threadSchdule_calm (frame : MtFrame) : Calm frame frame.threadSchdule :=
  ⟨threadSchdule_sleeplist frame, fun t _ => congrFun (threadSchdule_wakeupTime frame) t⟩

theorem Rests.own (rests : frame.Rests) (other : frame.active ≠ frame.daemon) :
    InHand frame none [frame.active] := by
  unfold Rests actives at rests
  rwa [if_neg other] at rests

theorem InHand.setWakeupTime (inHand : InHand frame owner hand) (t time : Nat) :
    InHand (frame.setWakeupTime t time) owner hand :=
  inHand.bare rfl

section

variable (rests : frame.Rests)

include rests

section

variable (other : frame.active ≠ frame.daemon)

include other

theorem Rests.sleep (ms : Int) : (frame.sleep ms).Rests :=
  (((rests.own other).setWakeupTime _ _).insertSleep (by rintro ⟨⟩)).threadSchdule

theorem Rests.waitNotify (timeout : Int) : (frame.waitNotify timeout).Rests :=
  (((rests.own other).setWakeupTime _ _).insertIoWait (by rintro ⟨⟩)).threadSchdule

theorem Rests.kqueueSchedule (timeout : Int) (added : Bool) :
    (frame.kqueueSchedule timeout added).Rests := by
  cases added with
  | false => exact (InHand.setWakeupTime rests _ _).rests rfl rfl
  | true => exact rests.waitNotify other timeout

theorem Rests.wait : frame.wait.Rests :=
  ((rests.own other).insertPend (by rintro _ ⟨⟩)).threadSchdule

end

theorem Rests.swapDaemonThread : frame.swapDaemonThread.Rests := by
  unfold MtFrame.swapDaemonThread
  split_ifs with other
  · exact ((rests.own other).insertRunable (by rintro ⟨⟩)).activateDaemon
  · exact rests

end

theorem InHand.notifyOwner (inHand : InHand frame none hand) (t : Nat) :
    InHand (frame.notifyOwner t) none hand := by
  unfold MtFrame.notifyOwner
  split_ifs with waits
  · exact (inHand.removeIoWait waits).insertRunable (by rintro ⟨⟩)
  · exact inHand

theorem Rests.notifyOwner (rests : frame.Rests) (t : Nat) : (frame.notifyOwner t).Rests := by
  refine (InHand.notifyOwner rests t).rests ?_ ?_
  · unfold MtFrame.notifyOwner
    split_ifs <;> rfl
  · unfold MtFrame.notifyOwner
    split_ifs <;> rfl

/-- A thread whose event came can run. -/
theorem Rests.notifyThread (rests : frame.Rests) (t : Nat) : (frame.notifyThread t).Rests := by
  have owner := rests.notifyOwner t
  unfold MtFrame.notifyThread
  unfold MtFrame.notifyOwner at owner
  dsimp only
  split_ifs with waits ruling
  · have ruling : frame.active = frame.daemon := ruling
    unfold Rests actives at rests
    rw [if_pos ruling] at rests
    exact (rests.removeIoWait waits).activate
  · rwa [if_pos waits] at owner
  · exact rests

theorem InHand.wakeup (inHand : InHand frame none hand)
    (sleeps : t ∈ frame.sleeplist.heap.members) : InHand (frame.wakeup t) none hand := by
  unfold MtFrame.wakeup
  split_ifs with waits
  · exact (inHand.removeIoWait waits).insertRunable (by rintro ⟨⟩)
  · exact (inHand.removeSleep sleeps fun listed => waits (inHand.flag_iff.mpr listed)).insertRunable
      (by rintro ⟨⟩)

@[simp] theorem wakeup_active (frame : MtFrame) (t : Nat) :
    (frame.wakeup t).active = frame.active := by
  unfold wakeup
  split_ifs <;> rfl

@[simp] theorem wakeup_daemon (frame : MtFrame) (t : Nat) :
    (frame.wakeup t).daemon = frame.daemon := by
  unfold wakeup
  split_ifs <;> rfl

theorem heapTop_mem (tidy : frame.Tidy) (top : frame.sleeplist.heapTop = some t) :
    t ∈ frame.sleeplist.heap.members := by
  have first := heapTop_some tidy.sleeplist top
  exact fun none => by omega

/-- Threads whose time came can run. -/
theorem Rests.wakeupLoop (fuel : Nat) (rests : frame.Rests) : (wakeupLoop fuel frame).Rests := by
  induction fuel generalizing frame with
  | zero => exact rests
  | succ fuel ih =>
    unfold wakeupLoop
    cases top : frame.sleeplist.heapTop with
    | none => exact rests
    | some t =>
      dsimp only
      split_ifs
      · exact ih ((InHand.wakeup rests (heapTop_mem rests.tidy top)).rests (wakeup_active ..)
          (wakeup_daemon ..))
      · exact rests

/-- A new thread rests in the run list. -/
theorem Rests.createThread (rests : frame.Rests) (memory : Bool) :
    (frame.createThread memory true).1.Rests ∧ Calm frame (frame.createThread memory true).1 := by
  obtain ⟨served, -, failed, made⟩ := InHand.allocThread rests memory
  unfold MtFrame.createThread
  generalize frame.allocThread memory = result at served failed made ⊢
  obtain ⟨frame', _ | t⟩ := result
  · exact ⟨(failed rfl).rests served.active served.daemon, served.toCalm⟩
  · exact ⟨((made t rfl).1.insertRunable (by rintro ⟨⟩)).rests served.active served.daemon,
      { served.toCalm with }⟩

/-- Threads in the hand that are going to be sub threads. -/
def Recruits (frame : MtFrame) (subs : List Nat) : Prop :=
  ∀ s ∈ subs, frame.parent s = none ∧ frame.type s = .subThread

theorem InHand.setType (inHand : InHand frame owner hand) (t : Nat) :
    InHand (frame.setType t .subThread) owner hand := by
  have kin : Kin frame (frame.setType t .subThread) := by
    refine ⟨rfl, rfl, fun s p _ same => ?_⟩
    simp only [MtFrame.setType, update_apply]
    split_ifs
    · rfl
    · exact same
  exact inHand.alike ⟨kin, rfl, rfl, rfl, rfl, rfl, rfl, rfl⟩ ⟨kin, rfl, rfl, rfl, rfl, rfl, rfl⟩

/-- What the first loop of `mt_exec_all_task` leaves. -/
structure Recruited (frame frame' : MtFrame) (subs : List Nat) : Prop extends
    InHand.Served frame frame' where
  recruits : frame'.Recruits subs
  inHand : InHand frame' none (frame.active :: subs)

/-- Sub-threads that were made are in hand, children of nobody yet. -/
theorem createSubs_recruited (memory : List Bool) (subs : List Nat)
    (inHand : InHand frame none (frame.active :: subs)) (recruits : frame.Recruits subs) :
    Recruited frame (frame.createSubs memory subs).1 (frame.createSubs memory subs).2.1 := by
  induction memory generalizing frame subs with
  | nil => exact ⟨.refl frame, recruits, inHand⟩
  | cons memory rest ih =>
    obtain ⟨served, types, failed, made⟩ := inHand.allocThread memory
    have known (s : Nat) (member : s ∈ subs) : s ∈ frame.threads :=
      inHand.mem_threads (mem_cons_of_mem _ member)
    unfold createSubs createThread
    generalize frame.allocThread memory = result at served types failed made ⊢
    obtain ⟨frame', _ | t⟩ := result
    · refine ⟨served, fun s member => ?_, failed rfl⟩
      exact ⟨(congrFun served.parent s).trans (recruits s member).1,
        (types s (known s member)).trans (recruits s member).2⟩
    · obtain ⟨taken, orphan⟩ := made t rfl
      have order : (t :: frame.active :: subs).Perm (frame.active :: (subs ++ [t])) :=
        perm_append_singleton t (frame.active :: subs) |>.symm
      have typed : InHand (frame'.setType t .subThread) none (frame'.active :: (subs ++ [t])) := by
        rw [show frame'.active = frame.active from served.active]
        exact (taken.perm order).setType t
      have all : (frame'.setType t .subThread).Recruits (subs ++ [t]) := by
        intro s member
        refine ⟨(congrFun served.parent s).trans ?_, ?_⟩
        · rcases mem_append.mp member with old | new
          · exact (recruits s old).1
          · rwa [mem_singleton.mp new]
        · simp only [setType, update_apply]
          split_ifs with new
          · rfl
          · have old : s ∈ subs := by
              rcases mem_append.mp member with old | last
              · exact old
              · exact absurd (mem_singleton.mp last) new
            exact (types s (known s old)).trans (recruits s old).2
      have later : Recruited (frame'.setType t .subThread) _ _ := ih (subs ++ [t]) typed all
      exact ⟨served.trans { later.toServed with }, later.recruits, served.active ▸ later.inHand⟩

/-- The sub threads of a thread in the hand are put on the run list. -/
theorem InHand.startSubs (inHand : InHand frame owner (p :: subs))
    (recruits : frame.Recruits subs) (own : ∀ q, owner = some q → q = p) :
    ∃ owner', (∀ q, owner' = some q → q = p) ∧ InHand (frame.startSubs p subs) owner' [p] := by
  induction subs generalizing frame owner with
  | nil => exact ⟨owner, own, inHand⟩
  | cons sub rest ih =>
    have nodup : (p :: sub :: rest).Nodup := by
      obtain ⟨location, kept, -⟩ := inHand.kept
      exact kept.distinct
    have other : sub ≠ p := fun same =>
      (nodup_cons.mp nodup).1 (same ▸ mem_cons_self)
    obtain ⟨orphan, typed⟩ := recruits sub mem_cons_self
    have off : frame.flag sub .subList = false := Bool.eq_false_iff.mpr fun on => by
      obtain ⟨location, kept, -⟩ := inHand.kept
      obtain ⟨q, member⟩ := (kept.flags .subList sub).mp on
      rw [(kept.families.sub sub q).mp member] at orphan
      cases orphan
    have added := inHand.addSubThread mem_cons_self
      (mem_cons_of_mem _ mem_cons_self) orphan typed own
    have started := (added.perm (.swap sub p rest)).insertRunable fun same =>
      other (some.inj same).symm
    refine ih started (fun s member => ?_) fun q same => (some.inj same).symm
    have later : s ≠ sub := fun same =>
      (nodup_cons.mp (nodup_cons.mp nodup).2).1 (same ▸ member)
    dsimp only
    rw [addSubThread_eq off]
    exact ⟨(update_of_ne later ..).trans
      (recruits s (mem_cons_of_mem _ member)).1, (recruits s (mem_cons_of_mem _ member)).2⟩

/-- Sub threads that have not been started go back to the pool. -/
theorem InHand.freeSubs (inHand : InHand frame none (hand ++ subs))
    (orphans : ∀ s ∈ subs, frame.parent s = none) :
    InHand (subs.foldl MtFrame.freeThread frame) none hand ∧
      Served frame (subs.foldl MtFrame.freeThread frame) := by
  induction subs generalizing frame with
  | nil => exact ⟨append_nil hand ▸ inHand, .refl frame⟩
  | cons sub rest ih =>
    obtain ⟨served, freed⟩ := (inHand.perm perm_middle).freeThread
      (orphans sub mem_cons_self) (by rintro ⟨⟩)
    obtain ⟨left, later⟩ := ih freed fun s member =>
      (congrFun served.parent s).trans (orphans s (mem_cons_of_mem _ member))
    exact ⟨left, served.trans later⟩

section

variable (frame : MtFrame) (p : Nat) (subs : List Nat)

@[simp] theorem startSubs_active : (frame.startSubs p subs).active = frame.active := by
  induction subs generalizing frame with
  | nil => rfl
  | cons sub rest ih =>
    refine (ih _).trans ?_
    simp only [addSubThread]
    split_ifs <;> rfl

@[simp] theorem startSubs_sleeplist : (frame.startSubs p subs).sleeplist = frame.sleeplist := by
  induction subs generalizing frame with
  | nil => rfl
  | cons sub rest ih =>
    refine (ih _).trans ?_
    simp only [addSubThread]
    split_ifs <;> rfl

@[simp] theorem startSubs_wakeupTime : (frame.startSubs p subs).wakeupTime = frame.wakeupTime := by
  induction subs generalizing frame with
  | nil => rfl
  | cons sub rest ih =>
    refine (ih _).trans ?_
    simp only [addSubThread]
    split_ifs <;> rfl

end

/-- After the call, all threads but the active one rest in their lists. -/
theorem Rests.execAllTask (rests : frame.Rests) (other : frame.active ≠ frame.daemon)
    (memory : List Bool) :
    (frame.execAllTask memory).Rests ∧ Calm frame (frame.execAllTask memory) := by
  unfold MtFrame.execAllTask
  split_ifs
  · exact ⟨rests, .refl frame⟩
  have recruited := createSubs_recruited memory [] (rests.own other) (by rintro _ ⟨⟩)
  generalize frame.createSubs memory [] = result at recruited ⊢
  obtain ⟨frame', subs, _ | _⟩ := result
  · have whole : InHand frame' none ([frame.active] ++ subs) := recruited.inHand
    obtain ⟨left, served⟩ := whole.freeSubs fun s member => (recruited.recruits s member).1
    have own : frame.actives = [frame.active] := if_neg other
    exact ⟨(own ▸ left : InHand _ none frame.actives).rests (served.active.trans recruited.active)
      (served.daemon.trans recruited.daemon), recruited.toCalm.trans served.toCalm⟩
  · dsimp only
    obtain ⟨owner, own, started⟩ := InHand.startSubs
      (recruited.active ▸ recruited.inHand : InHand frame' none (frame'.active :: subs))
      recruited.recruits (by rintro _ ⟨⟩)
    unfold MtFrame.wait
    rw [startSubs_active]
    refine ⟨(started.insertPend own).threadSchdule, recruited.toCalm.trans (Calm.trans ?_
      (threadSchdule_calm _))⟩
    exact ⟨startSubs_sleeplist .., fun t _ => congrFun (startSubs_wakeupTime ..) t⟩

/-- The parent of a thread that ends is put on the run list with its last sub thread. -/
theorem InHand.wakeupParent (inHand : InHand frame none hand) (t : Nat) :
    InHand (frame.wakeupParent t) none hand ∧ (frame.wakeupParent t).parent t = none := by
  unfold MtFrame.wakeupParent
  cases child : frame.parent t with
  | none => exact ⟨inHand, child⟩
  | some p =>
    obtain ⟨removed, orphan⟩ := inHand.removeSubThread child
    dsimp only
    split_ifs with empty
    · have pends : (frame.removeSubThread p t).Listed .pendList p := by
        obtain ⟨location, kept, -⟩ := inHand.kept
        rcases kept.families.waits t p child with pends | owns
        · have on : frame.flag t .subList = true :=
            (kept.flags .subList t).mpr ⟨p, (kept.families.sub t p).mpr child⟩
          rw [removeSubThread_eq on]
          exact (kept.places .pendList .pendList rfl p).mpr pends
        · cases owns
      have childless (s : Nat) : (frame.removeSubThread p t).parent s ≠ some p := fun other => by
        obtain ⟨location, kept, -⟩ := removed.kept
        have member := (kept.families.sub s p).mpr other
        rw [empty] at member
        cases member
      exact ⟨(removed.removePend pends childless).insertRunable (by rintro ⟨⟩), orphan⟩
    · exact ⟨removed, orphan⟩

theorem wakeupParent_calm (frame : MtFrame) (t : Nat) :
    (frame.wakeupParent t).active = frame.active ∧ Calm frame (frame.wakeupParent t) := by
  unfold wakeupParent
  cases frame.parent t with
  | none => exact ⟨rfl, .refl frame⟩
  | some p =>
    dsimp only [removeSubThread]
    split_ifs <;> exact ⟨rfl, rfl, fun _ _ => rfl⟩

theorem InHand.orphan {owner : Option Nat} {hand : List Nat} (inHand : InHand frame owner hand)
    {t : Nat} (main : frame.type t ≠ .subThread) : frame.parent t = none := by
  obtain ⟨location, kept, -⟩ := inHand.kept
  by_contra child
  obtain ⟨p, child⟩ := ne_none_iff_exists'.mp child
  exact main (kept.families.type t p child)

/-- After a thread has ended, all but the active one rest in their lists. -/
theorem Rests.finish (rests : frame.Rests) (other : frame.active ≠ frame.daemon) :
    frame.finish.Rests ∧ Calm frame frame.finish := by
  have own := rests.own other
  unfold MtFrame.finish
  dsimp only
  split_ifs with sub
  · obtain ⟨woken, orphan⟩ := own.wakeupParent frame.active
    obtain ⟨active, calm⟩ := wakeupParent_calm frame frame.active
    obtain ⟨served, freed⟩ := woken.freeThread orphan (by rintro ⟨⟩)
    rw [active]
    exact ⟨freed.threadSchdule, calm.trans (served.toCalm.trans (threadSchdule_calm _))⟩
  · obtain ⟨served, freed⟩ := own.freeThread (own.orphan sub) (by rintro ⟨⟩)
    exact ⟨freed.threadSchdule, served.toCalm.trans (threadSchdule_calm _)⟩

/-- Every move leads to a state in which nothing is in the hand but the active thread. -/
theorem Rests.step (rests : frame.Rests) (move : Move) : (frame.step move).Rests := by
  unfold MtFrame.step
  split_ifs with idle
  · exact rests
  have other (own : move.own = true) : frame.active ≠ frame.daemon := fun ruling =>
    idle ⟨own, ruling⟩
  cases move with
  | createThread memory => exact (rests.createThread memory).1
  | execAllTask memory => exact (rests.execAllTask (other rfl) memory).1
  | wait => exact rests.wait (other rfl)
  | sleep ms => exact rests.sleep (other rfl) ms
  | waitNotify timeout => exact rests.waitNotify (other rfl) timeout
  | kqueueSchedule timeout added => exact rests.kqueueSchedule (other rfl) timeout added
  | finish => exact (rests.finish (other rfl)).1
  | swapDaemonThread => exact rests.swapDaemonThread
  | notifyThread thread => exact rests.notifyThread thread
  | notifyOwner thread => exact rests.notifyOwner thread
  | setLastClock clock => exact InHand.bare rests rfl
  | wakeupTimeout => exact rests.wakeupLoop _
  | switchContext =>
    unfold carry
    split_ifs with ruling
    · unfold Rests actives at rests
      rw [if_pos ruling] at rests
      exact rests.threadSchdule
    · exact rests

theorem Rests.run (rests : frame.Rests) (moves : List Move) : (frame.run moves).Rests := by
  induction moves generalizing frame with
  | nil => exact rests
  | cons move rest ih => exact ih (rests.step move)

end Moves

section Start

/-- The pool before there is a daemon. -/
theorem initialPool_kept (defaultThreadNum made : Nat) (maxNum : Int) (sleeplist : HeapList Nat)
    (valid : sleeplist.heap.Valid) (empty : sleeplist.heap.members = ∅) :
    Kept { initialPool defaultThreadNum made maxNum with sleeplist := sleeplist }
      (fun t => if t < made then some .freeList else none) none [] := by
  have unlisted (t : Nat) : t ∉ sleeplist.heap.members := empty ▸ Set.notMem_empty t
  refine ⟨fun kind t => ?_, fun kind place stands t => ?_, ?_, ⟨fun t => ?_, ?_, fun t new => ?_,
    fun t => ?_⟩, fun t => ?_, nodup_nil, ⟨?_, ?_, ?_, ?_, ?_⟩, by rintro _ ⟨⟩, rfl⟩
  · cases kind <;> simp [Listed, initialPool, unlisted]
  · cases kind <;> cases stands <;> simp [Listed, initialPool, unlisted]
  · exact ⟨nodup_range, nodup_nil, nodup_nil, nodup_nil, valid⟩
  · simp [initialPool]
  · exact nodup_range
  · have new : made ≤ t := new
    rw [if_neg (by omega)]
  · split_ifs <;> rintro ⟨⟩
  · simp only [not_mem_nil, false_iff]
    split_ifs <;> rintro ⟨⟩
  · intro s p
    simp [initialPool]
  · exact fun _ => nodup_nil
  all_goals
    rintro s p ⟨⟩

/-- A thread in the hand is made the daemon; there has been none. -/
theorem Kept.makeDaemon (kept : Kept frame location none [t]) (orphan : frame.parent t = none)
    (first : ∀ u, location u ≠ some .daemon) :
    Kept (frame.makeDaemon t) (update location t (some .daemon)) none [] := by
  have here := kept.location_hand
  have alike : Alike frame (frame.makeDaemon t) := by
    refine ⟨⟨rfl, rfl, fun s p child same => ?_⟩, rfl, rfl, rfl, rfl, rfl, rfl, rfl⟩
    simp only [MtFrame.makeDaemon, setState, setType]
    rw [update_of_ne, same]
    rintro rfl
    rw [orphan] at child
    cases child
  refine kept.census alike ⟨fun u => ?_, kept.populated.once, fun u new => ?_, fun u ruling => ?_⟩
    (fun kind place stands same => ?_) (fun kind place stands same => ?_) orphan
    (kept.childless mem_cons_self (by rintro ⟨⟩))
    (kept.held.leave (fun u => mem_of_cons kept.distinct) (by rintro ⟨⟩)) nodup_nil
    (by rintro _ ⟨⟩)
  · refine (kept.populated.threads u).trans ?_
    rcases eq_or_ne u t with rfl | elsewhere
    · rw [update_self, here]
      exact iff_of_true (by rintro ⟨⟩) (by rintro ⟨⟩)
    · rw [update_of_ne elsewhere]
  · have gone := kept.populated.fresh u new
    rw [update_of_ne, gone]
    rintro rfl
    rw [here] at gone
    cases gone
  · change u = t
    by_contra elsewhere
    rw [update_of_ne elsewhere] at ruling
    exact first u ruling
  · rw [here] at same
    cases same
    exact kind.place_ne_active stands
  · cases same
    exact kind.place_ne_daemon stands

/-- The primordial thread is made, and is active. -/
theorem InHand.makePrimo (inHand : InHand frame none []) (clock : Nat)
    (exact_ : (frame.threads.length : Int) = frame.totalNum) : (frame.makePrimo clock).Rests := by
  obtain ⟨location, kept, ruling⟩ := inHand.kept
  obtain ⟨-, made⟩ := kept.newThread inHand.asleep .primordial
  have gone := kept.populated.fresh frame.next le_rfl
  have other : frame.next ≠ frame.daemon := by
    intro same
    rw [← same, gone] at ruling
    cases ruling
  have primo : InHand (frame.newThread .primordial) none [frame.next] := by
    refine ⟨inHand.asleep, ⟨?_, inHand.counted.bounded, inHand.counted.room⟩, _, made, ?_⟩
    · simp only [MtFrame.newThread, cleanState, MtFrame.setWakeupTime, length_cons]
      omega
    · exact (update_of_ne other.symm ..).trans ruling
  unfold Rests actives
  rw [if_neg (show (frame.makePrimo clock).active ≠ (frame.makePrimo clock).daemon from other)]
  exact primo.bare rfl

theorem heapResize_max (maxNum : Int) :
    maxNum < ((new 0 fun _ => (0 : Nat)).heapResize (maxNum * 2).toNat).max := by
  have start : (new 0 fun _ => (0 : Nat)).max = 100000 := rfl
  unfold heapResize
  split_ifs with large
  · rw [start]
    omega
  · dsimp only
    omega

theorem heapResize_heap (size : Nat) :
    ((new 0 fun _ => (0 : Nat)).heapResize size).heap =
      (new 0 fun _ => (0 : Nat)).heap := by
  unfold heapResize
  split_ifs <;> rfl

/-- `InitFrame` takes the first free thread for the daemon. -/
theorem Kept.rests_of_first (kept : Kept frame location none []) (asleep : frame.Asleep)
    (counted : frame.Counted) (total : (frame.threads.length : Int) = frame.totalNum)
    (first : ∀ u, location u ≠ some .daemon) {rest : List Nat}
    (free : frame.freelist = t :: rest) (clock : Nat) :
    ∃ frame', frame.allocThread true = (frame', some t) ∧
      ((frame'.makeDaemon t).makePrimo clock).Rests := by
  have listed : frame.Listed .freeList t := (free ▸ mem_cons_self : t ∈ frame.freelist)
  have flagged : frame.flag t .freeList = true := (kept.flags .freeList t).mpr listed
  have orphan : frame.parent t = none := by
    by_contra child
    obtain ⟨p, child⟩ := Option.ne_none_iff_exists'.mp child
    exact (kept.families.alive t p child).1 ((kept.places .freeList .freeList rfl t).mp listed)
  have change := InHand.popFree_delists kept.tidy free flagged
  have ruled := (kept.delist change rfl listed (by rintro ⟨⟩)).makeDaemon orphan fun u => by
    rw [update_apply]
    split_ifs
    · rintro ⟨⟩
    · exact first u
  have popped : InHand (({ frame with freelist := rest }.setFlag t .freeList false).makeDaemon t)
      none [] :=
    ⟨asleep, { counted with }, _, ruled, update_self ..⟩
  have taken : frame.allocThread true = ({ { frame with freelist := rest }.setFlag t .freeList
      false with useNum := frame.useNum + 1 }, some t) := by
    unfold allocThread
    rw [free]
    simp [check, setFlag, flagged]
  refine ⟨_, taken, InHand.makePrimo ?_ clock total⟩
  exact popped.bare rfl

variable {clock defaultThreadNum made : Nat} {maxNum : Int}

section

variable (started : initFrame defaultThreadNum made maxNum clock = some frame)

include started

/-- The size of the sleep heap is what `InitFrame` makes it. -/
theorem initFrame_sleeplist :
    frame.sleeplist = (new 0 fun _ => 0).heapResize (maxNum * 2).toNat := by
  unfold initFrame at started
  dsimp only at started
  split_ifs at started
  split at started
  · cases started
  next frame' thread taken =>
    cases started
    have frame_eq : frame' = _ := (congrArg Prod.fst taken).symm
    rw [frame_eq]
    unfold allocThread
    split
    · rfl
    · dsimp only
      split_ifs <;> rfl

/-- After `InitFrame` the primordial thread is active. -/
theorem initFrame_rests_of_room
    (room : made < ((new 0 fun _ => (0 : Nat)).heapResize (maxNum * 2).toNat).max) :
    frame.Rests := by
  have heap := heapResize_heap (maxNum * 2).toNat
  have kept := initialPool_kept defaultThreadNum made maxNum
    ((new 0 fun _ => 0).heapResize (maxNum * 2).toNat)
    (heap ▸ new_valid ..)
    (by rw [heap]; exact Set.eq_empty_of_forall_notMem fun _ member => member rfl)
  unfold initFrame at started
  dsimp only at started
  split_ifs at started with none
  have nonzero : 0 < (made : Int) := not_le.mp none
  have free : (initialPool defaultThreadNum made maxNum).freelist =
      0 :: (range (made - 1)).map Nat.succ := by
    rw [← range_succ_eq_map, Nat.sub_add_cancel (by omega)]
    rfl
  have total : ((initialPool defaultThreadNum made maxNum).threads.length : Int) = made := by
    simp [initialPool]
  obtain ⟨frame', taken, rests⟩ := kept.rests_of_first (by rintro _ ⟨⟩)
    ⟨total.le.trans (Int.le_add_one le_rfl), Int.ofNat_lt.mpr room, heapResize_max maxNum⟩ total
    (fun u => by split_ifs <;> rintro ⟨⟩) free clock
  have new : (initialPool defaultThreadNum made maxNum).sleeplist = .new 0 fun _ => 0 := rfl
  rw [new, taken] at started
  cases started
  exact rests

theorem initFrame_rests (fits : made ≤ maxNum) : frame.Rests := by
  have room := heapResize_max maxNum
  exact initFrame_rests_of_room started (by omega)

end

end Start

section Result

/-- The threads at a place. -/
def contents (frame : MtFrame) : Place → List Nat
  | .active => frame.actives
  | .runList => frame.runlist
  | .sleepHeap => frame.sleeplist.heap.entries
  | .pendList => frame.pendList
  | .freeList => frame.freelist
  | .daemon => [frame.daemon]

/-- Each thread is in exactly one place, and its flags say where. A thread on the I/O list is
in the sleep heap. No assertion has failed. -/
structure Consistent (frame : MtFrame) : Prop where
  placed : Linear frame.threads frame.contents
  flags : ∀ t ∈ frame.threads, ∀ kind place, ThreadFlag.place kind = some place →
    (frame.flag t kind = true ↔ t ∈ frame.contents place)
  waiting : ∀ t ∈ frame.threads, frame.flag t .ioList = true ↔ t ∈ frame.iolist
  once : frame.iolist.Nodup
  asleep : ∀ t ∈ frame.iolist, t ∈ frame.contents .sleepHeap
  asserted : frame.failed = false

/-- Threads at rest are each in exactly one place. -/
theorem Rests.consistent (rests : frame.Rests) : frame.Consistent := by
  obtain ⟨location, kept, ruling⟩ := InHand.kept rests
  have sleeping {t : Nat} : t ∈ frame.sleeplist.heap.entries ↔ frame.Listed .sleepList t :=
    kept.tidy.sleeplist.mem_entries
  have located (t : Nat) (place : Place) : t ∈ frame.contents place ↔ location t = some place := by
    cases place with
    | active => exact kept.held t
    | runList => exact kept.places .runList _ rfl t
    | sleepHeap => exact sleeping.trans (kept.places .sleepList _ rfl t)
    | pendList => exact kept.places .pendList _ rfl t
    | freeList => exact kept.places .freeList _ rfl t
    | daemon =>
      refine mem_singleton.trans ⟨?_, kept.populated.ruler t⟩
      rintro rfl
      exact ruling
  refine ⟨⟨fun place => ?_, fun t known => ?_, fun place t member => ?_⟩,
    fun t _ kind place stands => ?_, fun t _ => kept.flags .ioList t, kept.tidy.iolist,
    fun t waits => sleeping.mpr (InHand.asleep rests t waits), kept.asserted⟩
  · cases place with
    | active => exact kept.distinct
    | runList => exact kept.tidy.runlist
    | sleepHeap => exact kept.tidy.sleeplist.nodup_entries
    | pendList => exact kept.tidy.pendList
    | freeList => exact kept.tidy.freelist
    | daemon => exact nodup_singleton _
  · obtain ⟨place, here⟩ :=
      ne_none_iff_exists'.mp ((kept.populated.threads t).mp known)
    refine ⟨place, (located t place).mpr here, fun other there => ?_⟩
    exact some.inj (((located t other).mp there).symm.trans here)
  · rw [kept.populated.threads, (located t place).mp member]
    rintro ⟨⟩
  · rw [kept.flags, located]
    exact kept.places kind place stands t

/-- Every state that a frame comes to is consistent. -/
theorem consistent_of_run {defaultThreadNum made clock : Nat} {maxNum : Int} {frame : MtFrame}
    (started : initFrame defaultThreadNum made maxNum clock = some frame) (fits : made ≤ maxNum)
    (moves : List Move) : (frame.run moves).Consistent :=
  ((initFrame_rests started fits).run moves).consistent

/-- A sub thread waits for I/O while its parent pends. -/
theorem consistent_subWaits :
    ∃ frame, initFrame 3 3 4 7 = some frame ∧
      (frame.run [.execAllTask [true], .waitNotify 10]).iolist = [1] ∧
      (frame.run [.execAllTask [true], .waitNotify 10]).pendList = [3] ∧
      (frame.run [.execAllTask [true], .waitNotify 10]).Consistent :=
  ⟨_, rfl, rfl, rfl,
    consistent_of_run (rfl : initFrame 3 3 4 7 = some _) (by decide : (3 : Int) ≤ 4) _⟩

end Result

end FStack.Micro.MtFrame
