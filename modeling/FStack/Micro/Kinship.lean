import FStack.Micro.Tasks

/-!
# Families and the run list

What the moves of the frame do to families, and to the threads that are ready to run: only a fork
makes a family and only an end makes it smaller, a thread leaves the run list to be active, and the
parent is put on it with the end of its last sub thread.
-/

namespace FStack.Micro.MtFrame

open Function (update update_eq_self_iff update_of_ne update_self)
open List

variable {frame frame' frame'' : MtFrame} {hand subs : List Nat} {s t p : Nat}

section Lists

/-- Families are as they were, and no thread leaves the run list. -/
structure Gathers (frame frame' : MtFrame) : Prop where
  parent : frame'.parent = frame.parent
  runs : ∀ t ∈ frame.runlist, t ∈ frame'.runlist

theorem Gathers.refl (frame : MtFrame) : Gathers frame frame := ⟨rfl, fun _ => id⟩

theorem Gathers.trans (first : Gathers frame frame') (second : Gathers frame' frame'') :
    Gathers frame frame'' where
  parent := second.parent.trans first.parent
  runs t member := second.runs t (first.runs t member)

/-- Families are as they were, and a thread leaves the run list to be active. -/
structure Onward (frame frame' : MtFrame) : Prop where
  parent : frame'.parent = frame.parent
  runs : ∀ t ∈ frame.runlist, t ∈ frame'.runlist ∨ t = frame'.active

theorem Gathers.onward (gathers : Gathers frame frame') : Onward frame frame' :=
  ⟨gathers.parent, fun t member => .inl (gathers.runs t member)⟩

theorem Gathers.trans_onward (first : Gathers frame frame') (second : Onward frame' frame'') :
    Onward frame frame'' where
  parent := second.parent.trans first.parent
  runs t member := second.runs t (first.runs t member)

section

variable (frame : MtFrame) (t : Nat)

theorem gathers_insertRunable : Gathers frame (frame.insertRunable t) :=
  ⟨rfl, fun _ => mem_append_left _⟩

theorem gathers_removeIoWait : Gathers frame (frame.removeIoWait t) :=
  ⟨rfl, fun _ => id⟩

theorem gathers_removeSleep : Gathers frame (frame.removeSleep t) :=
  ⟨rfl, fun _ => id⟩

end

/-- Scheduling makes a thread of the run list active. -/
theorem onward_threadSchdule (frame : MtFrame) : Onward frame frame.threadSchdule := by
  unfold threadSchdule
  cases queued : frame.runlist with
  | nil => exact ⟨rfl, fun t member => absurd (queued ▸ member) not_mem_nil⟩
  | cons first rest =>
    refine ⟨rfl, fun t member => ?_⟩
    rw [queued] at member
    rcases mem_cons.mp member with rfl | later
    · exact .inr rfl
    · left
      change t ∈ frame.runlist.tail
      rwa [queued]

theorem gathers_wakeup (frame : MtFrame) (t : Nat) : Gathers frame (frame.wakeup t) := by
  unfold wakeup
  split_ifs
  · exact (gathers_removeIoWait frame t).trans (gathers_insertRunable _ t)
  · exact (gathers_removeSleep frame t).trans (gathers_insertRunable _ t)

/-- Waking up takes no thread off the run list. -/
theorem gathers_wakeupLoop (fuel : Nat) (frame : MtFrame) :
    Gathers frame (wakeupLoop fuel frame) := by
  induction fuel generalizing frame with
  | zero => exact .refl frame
  | succ fuel ih =>
    unfold wakeupLoop
    split
    · exact .refl frame
    next t _ =>
      split_ifs
      · exact (gathers_wakeup frame t).trans (ih _)
      · exact .refl frame

theorem gathers_notifyOwner (frame : MtFrame) (t : Nat) : Gathers frame (frame.notifyOwner t) := by
  unfold notifyOwner
  split_ifs
  · exact (gathers_removeIoWait frame t).trans (gathers_insertRunable _ t)
  · exact .refl frame

theorem gathers_notifyThread (frame : MtFrame) (t : Nat) : Gathers frame (frame.notifyThread t) := by
  unfold notifyThread
  dsimp only
  split_ifs
  · exact (gathers_removeIoWait frame t).trans ⟨rfl, fun _ => id⟩
  · exact (gathers_removeIoWait frame t).trans (gathers_insertRunable _ t)
  · exact .refl frame

end Lists

section Pool

theorem allocThread_lists (frame : MtFrame) (memory : Bool) :
    (frame.allocThread memory).1.runlist = frame.runlist ∧
      (frame.allocThread memory).1.pendList = frame.pendList := by
  unfold allocThread
  split
  · exact ⟨rfl, rfl⟩
  · dsimp only
    split_ifs <;> exact ⟨rfl, rfl⟩

theorem freeThread_runlist (frame : MtFrame) (t : Nat) :
    (frame.freeThread t).runlist = frame.runlist := by
  unfold freeThread trimPool
  dsimp only
  split
  · rfl
  · split_ifs <;> rfl

/-- Making a thread takes none off the run list. -/
theorem createThread_onward (rests : frame.Rests) (memory : Bool) :
    Onward frame (frame.createThread memory true).1 := by
  obtain ⟨served, -, -, -⟩ := InHand.allocThread rests memory
  obtain ⟨runlist, -⟩ := allocThread_lists frame memory
  unfold createThread
  generalize frame.allocThread memory = result at served runlist ⊢
  have taken : Gathers frame result.1 := ⟨served.parent, fun t => (runlist ▸ id)⟩
  obtain ⟨frame', _ | t⟩ := result
  · exact taken.onward
  · exact (taken.trans (gathers_insertRunable _ t)).onward

/-- Every move but a fork and an end. -/
theorem step_onward (rests : frame.Rests) {move : Move} (plain : move.plain = true) :
    Onward frame (frame.step move) := by
  have still {frame' : MtFrame} (parent : frame'.parent = frame.parent)
      (runlist : frame'.runlist = frame.runlist) : Onward frame frame'.threadSchdule :=
    Gathers.trans_onward ⟨parent, fun t => (runlist ▸ id)⟩ (onward_threadSchdule frame')
  unfold step
  split_ifs
  · exact (Gathers.refl frame).onward
  cases move with
  | createThread memory => exact createThread_onward rests memory
  | execAllTask | finish => cases plain
  | wait | sleep | waitNotify => exact still rfl rfl
  | kqueueSchedule timeout added =>
    unfold carry kqueueSchedule
    dsimp only
    split_ifs
    · exact ⟨rfl, fun _ => .inl⟩
    · exact still rfl rfl
  | swapDaemonThread =>
    unfold carry swapDaemonThread
    dsimp only
    split_ifs
    · exact (gathers_insertRunable frame frame.active).trans_onward ⟨rfl, fun _ => .inl⟩
    · exact (Gathers.refl frame).onward
  | notifyThread thread => exact (gathers_notifyThread frame thread).onward
  | notifyOwner thread => exact (gathers_notifyOwner frame thread).onward
  | setLastClock clock => exact ⟨rfl, fun _ => .inl⟩
  | wakeupTimeout => exact (gathers_wakeupLoop _ frame).onward
  | switchContext =>
    unfold carry
    split_ifs
    · exact onward_threadSchdule frame
    · exact (Gathers.refl frame).onward

end Pool

section Fork

section

variable (memory : List Bool) (subs : List Nat) (frame : MtFrame)

/-- Making sub-threads leaves the lists alone. -/
theorem createSubs_lists :
    (frame.createSubs memory subs).1.runlist = frame.runlist ∧
      (frame.createSubs memory subs).1.pendList = frame.pendList := by
  induction memory generalizing frame subs with
  | nil => exact ⟨rfl, rfl⟩
  | cons memory rest ih =>
    obtain ⟨runlist, pendList⟩ := allocThread_lists frame memory
    unfold createSubs createThread
    generalize frame.allocThread memory = result at runlist pendList ⊢
    obtain ⟨frame', _ | t⟩ := result
    · exact ⟨runlist, pendList⟩
    · obtain ⟨runlist', pendList'⟩ := ih (subs ++ [t]) (frame'.setType t .subThread)
      exact ⟨runlist'.trans runlist, pendList'.trans pendList⟩

/-- If all are made, there is one for each task. -/
theorem createSubs_length (all : (frame.createSubs memory subs).2.2 = true) :
    (frame.createSubs memory subs).2.1.length = subs.length + memory.length := by
  induction memory generalizing frame subs with
  | nil => rfl
  | cons memory rest ih =>
    unfold createSubs at all ⊢
    generalize frame.createThread memory false = result at all ⊢
    obtain ⟨frame', _ | t⟩ := result
    · cases all
    · refine (ih _ _ all).trans ?_
      rw [length_append, length_cons, length_cons, length_nil]
      omega

end

theorem InHand.not_fostered {owner : Option Nat} (inHand : InHand frame owner hand)
    (orphan : frame.parent s = none) : frame.flag s .subList = false := by
  obtain ⟨location, kept, -⟩ := inHand.kept
  refine Bool.eq_false_iff.mpr fun on => ?_
  obtain ⟨q, member⟩ := (kept.flags .subList s).mp on
  rw [(kept.families.sub s q).mp member] at orphan
  cases orphan

/-- The sub threads have the thread for a parent and are on the run list. -/
theorem startSubs_family (off : ∀ s ∈ subs, frame.flag s .subList = false) (once : subs.Nodup) :
    ((frame.startSubs p subs).parent = fun s => if s ∈ subs then some p else frame.parent s) ∧
      ∀ t ∈ frame.runlist, t ∈ (frame.startSubs p subs).runlist := by
  induction subs generalizing frame with
  | nil => exact ⟨funext fun s => (if_neg not_mem_nil).symm, fun _ => id⟩
  | cons sub rest ih =>
    have added := InHand.addSubThread_eq (p := p) (off sub mem_cons_self)
    obtain ⟨new, later⟩ := nodup_cons.mp once
    have other (s : Nat) (member : s ∈ rest) : s ≠ sub := fun same => new (same ▸ member)
    obtain ⟨parent, runs⟩ := @ih ((frame.addSubThread p sub).insertRunable sub) (fun s member => by
      rw [added]
      simp only [insertRunable, setState, setFlag, check,
        update_of_ne (other s member)]
      exact off s (mem_cons_of_mem _ member)) later
    refine ⟨parent.trans (funext fun s => ?_), fun t member => runs t ?_⟩
    · change (if s ∈ rest then some p else (frame.addSubThread p sub).parent s) = _
      rw [added]
      dsimp only
      by_cases same : s = sub
      · subst same
        rw [if_neg new, update_self, if_pos mem_cons_self]
      · rw [update_of_ne same]
        simp only [mem_cons, same, false_or]
    · rw [added]
      exact mem_append_left _ member

variable {memory : List Bool}

/-- With all sub-threads made, they run and their parent is pended. -/
theorem execAllTask_forks (rests : frame.Rests) (other : frame.active ≠ frame.daemon)
    (some_ : memory.length ≠ 0) (all : (frame.createSubs memory []).2.2 = true) :
    let subs := (frame.createSubs memory []).2.1
    subs.length = memory.length ∧ subs.Nodup ∧ frame.active ∉ subs ∧
    (∀ s ∈ subs, frame.parent s = none ∧ s ∉ frame.runlist ∧ s ∉ frame.pendList) ∧
    ((frame.execAllTask memory).parent =
      fun s => if s ∈ subs then some frame.active else frame.parent s) ∧
    ∀ t ∈ frame.runlist,
      t ∈ (frame.execAllTask memory).runlist ∨ t = (frame.execAllTask memory).active := by
  have length := createSubs_length memory [] frame all
  obtain ⟨runlist, pendList⟩ := createSubs_lists memory [] frame
  have recruited := createSubs_recruited memory [] (rests.own other) (by rintro _ ⟨⟩)
  unfold execAllTask
  rw [if_neg some_]
  generalize frame.createSubs memory [] = result at *
  obtain ⟨frame', subs, _ | _⟩ := result
  · cases all
  have distinct : (frame.active :: subs).Nodup := by
    obtain ⟨location, kept, -⟩ := recruited.inHand.kept
    exact kept.distinct
  obtain ⟨alone, once⟩ := nodup_cons.mp distinct
  obtain ⟨parent, runs⟩ := @startSubs_family frame' subs frame'.active
    (fun s member => recruited.inHand.not_fostered (recruited.recruits s member).1) once
  have onward := onward_threadSchdule ((frame'.startSubs frame'.active subs).insertPend
    (frame'.startSubs frame'.active subs).active)
  refine ⟨length.trans (Nat.zero_add _), once, alone, fun s member => ?_, ?_, fun t member => ?_⟩
  · obtain ⟨location, kept, -⟩ := recruited.inHand.kept
    have held := mem_cons_of_mem frame.active member
    rw [← recruited.parent, ← runlist, ← pendList]
    have off {kind : ThreadFlag} {place : Place} (stands : kind.place = some place) :
        ¬ frame'.Listed kind s := kept.not_listed held stands
    exact ⟨(recruited.recruits s member).1, @off .runList _ rfl, @off .pendList _ rfl⟩
  · refine onward.parent.trans (parent.trans (funext fun s => ?_))
    rw [recruited.active, recruited.parent]
  · exact onward.runs t (runs t (runlist ▸ member))

/-- A thread is with the pool, or the pool has deleted it. -/
def Returned (frame : MtFrame) (t : Nat) : Prop := t ∈ frame.freelist ∨ t ∉ frame.threads

/-- A thread that is with the pool, or deleted, stays so. -/
theorem trimPool_returned (once : frame.threads.Nodup) (returned : frame.Returned s) :
    frame.trimPool.Returned s := by
  have cut {first : Nat} {rest : List Nat} (free : frame.freelist = first :: rest) :
      s ∈ rest ∨ s ∉ frame.threads.erase first := by
    rw [once.mem_erase_iff]
    rcases returned with member | gone
    · rw [free] at member
      rcases mem_cons.mp member with rfl | later
      · exact .inr fun both => both.1 rfl
      · exact .inl later
    · exact .inr fun both => gone both.2
  unfold trimPool
  split
  · exact returned
  next first rest free =>
    dsimp only
    split_ifs
    · exact cut free
    · exact cut free
    · exact returned

theorem freeThread_returned (once : frame.threads.Nodup) (returned : frame.Returned s ∨ s = t) :
    (frame.freeThread t).Returned s := by
  refine trimPool_returned once ?_
  rcases returned with (free | gone) | rfl
  · exact .inl (mem_append_left _ free)
  · exact .inr gone
  · exact .inl (mem_append_right _ mem_cons_self)

/-- Sub-threads that are freed are with the pool, or deleted. -/
theorem InHand.freeSubs_returned (inHand : InHand frame none (hand ++ subs))
    (orphans : ∀ s ∈ subs, frame.parent s = none) (returned : frame.Returned s ∨ s ∈ subs) :
    (subs.foldl MtFrame.freeThread frame).Returned s := by
  induction subs generalizing frame with
  | nil => exact returned.resolve_right not_mem_nil
  | cons sub rest ih =>
    have once : frame.threads.Nodup := by
      obtain ⟨location, kept, -⟩ := inHand.kept
      exact kept.populated.once
    obtain ⟨served, freed⟩ := (inHand.perm perm_middle).freeThread
      (orphans sub mem_cons_self) (by rintro ⟨⟩)
    refine ih freed (fun s member => ?_) ?_
    · exact (congrFun served.parent s).trans (orphans s (mem_cons_of_mem _ member))
    · rcases returned with already | member
      · exact .inl (freeThread_returned once (.inl already))
      · exact (mem_cons.mp member).imp_left fun same => freeThread_returned once (.inr same)

theorem freeSubs_runlist (subs : List Nat) (frame : MtFrame) :
    (subs.foldl MtFrame.freeThread frame).runlist = frame.runlist := by
  induction subs generalizing frame with
  | nil => rfl
  | cons sub rest ih => exact (ih _).trans (freeThread_runlist frame sub)

/-- There is no thread for a task when no thread is free. -/
theorem createSubs_short (memory : List Bool) (subs : List Nat) (frame : MtFrame)
    (short : (frame.createSubs memory subs).2.2 = false) :
    (frame.createSubs memory subs).1.freelist = [] := by
  induction memory generalizing frame subs with
  | nil => cases short
  | cons memory rest ih =>
    have empty : (frame.allocThread memory).2 = none →
        (frame.allocThread memory).1.freelist = [] := by
      unfold allocThread
      split
      · rintro ⟨⟩
      next free =>
        dsimp only
        split_ifs
        · exact fun _ => free
        · exact fun _ => free
        · rintro ⟨⟩
        · rintro ⟨⟩
    unfold createSubs createThread at short ⊢
    generalize frame.allocThread memory = result at short empty ⊢
    obtain ⟨frame', _ | t⟩ := result
    · exact empty rfl
    · exact ih _ _ short

/-- Below the limit, a thread that is freed is kept. -/
theorem freeThread_freelist (fits : frame.freelist.length < frame.defaultThreadNum) :
    (frame.freeThread t).freelist = frame.freelist ++ [t] ∧
      (frame.freeThread t).defaultThreadNum = frame.defaultThreadNum := by
  have small : ¬ (frame.freelist ++ [t]).length > frame.defaultThreadNum := by
    rw [length_append, length_singleton]
    omega
  unfold freeThread trimPool
  dsimp only
  split
  · exact ⟨rfl, rfl⟩
  · rw [if_neg fun both => small both.1]
    exact ⟨rfl, rfl⟩

/-- The pool keeps as many threads as it should have. -/
theorem freeSubs_freelist (fits : frame.freelist.length + subs.length ≤ frame.defaultThreadNum) :
    (subs.foldl MtFrame.freeThread frame).freelist = frame.freelist ++ subs := by
  induction subs generalizing frame with
  | nil => exact (append_nil _).symm
  | cons sub rest ih =>
    rw [length_cons] at fits
    obtain ⟨freelist, size⟩ := freeThread_freelist (t := sub)
      (show frame.freelist.length < frame.defaultThreadNum by omega)
    rw [foldl_cons, ih, freelist, append_assoc]
    · rfl
    · rw [freelist, length_append, length_singleton]
      omega

/-- If one cannot be made, the others are returned and the caller goes on. -/
theorem execAllTask_fails (rests : frame.Rests) (other : frame.active ≠ frame.daemon)
    (some_ : memory.length ≠ 0) (short : (frame.createSubs memory []).2.2 = false) :
    (frame.execAllTask memory).active = frame.active ∧ Onward frame (frame.execAllTask memory) ∧
      (∀ s ∈ (frame.createSubs memory []).2.1, (frame.execAllTask memory).Returned s) ∧
      ((frame.createSubs memory []).2.1.length ≤ (frame.createSubs memory []).1.defaultThreadNum →
        (frame.execAllTask memory).freelist = (frame.createSubs memory []).2.1) := by
  obtain ⟨runlist, pendList⟩ := createSubs_lists memory [] frame
  have empty := createSubs_short memory [] frame short
  have recruited := createSubs_recruited memory [] (rests.own other) (by rintro _ ⟨⟩)
  unfold execAllTask
  rw [if_neg some_]
  generalize frame.createSubs memory [] = result at *
  obtain ⟨frame', subs, _ | _⟩ := result
  · dsimp only at runlist pendList recruited empty ⊢
    have whole : InHand frame' none ([frame.active] ++ subs) := recruited.inHand
    have orphans (s : Nat) (member : s ∈ subs) : frame'.parent s = none :=
      (recruited.recruits s member).1
    obtain ⟨-, served⟩ := whole.freeSubs orphans
    refine ⟨served.active.trans recruited.active, ⟨served.parent.trans recruited.parent, ?_⟩,
      fun s member => whole.freeSubs_returned orphans (.inr member), fun fits => ?_⟩
    · rw [freeSubs_runlist, runlist]
      exact fun _ => .inl
    · rw [freeSubs_freelist (by rwa [empty, length_nil, Nat.zero_add]), empty, nil_append]
  · cases short

end Fork

section End

/-- A thread that ends leaves its family, and the parent is put on the run list with the last of its
sub threads. -/
theorem InHand.wakeupParent_family (inHand : InHand frame none hand) (t : Nat) :
    (frame.wakeupParent t).parent = update frame.parent t none ∧
    (∀ u ∈ frame.runlist, u ∈ (frame.wakeupParent t).runlist) ∧
    ∀ p, frame.parent t = some p → (∀ s, s ≠ t → frame.parent s ≠ some p) →
      p ∈ (frame.wakeupParent t).runlist := by
  unfold MtFrame.wakeupParent
  cases child : frame.parent t with
  | none =>
    refine ⟨(update_eq_self_iff.mpr child.symm).symm, fun _ => id, by rintro _ ⟨⟩⟩
  | some p =>
    obtain ⟨location, kept, -⟩ := inHand.kept
    have on : frame.flag t .subList = true :=
      (kept.flags .subList t).mpr ⟨p, (kept.families.sub t p).mpr child⟩
    have removed := removeSubThread_eq (p := p) on
    dsimp only
    rw [removed]
    split_ifs with empty
    · refine ⟨rfl, fun u => mem_append_left _, ?_⟩
      rintro _ ⟨⟩ -
      exact mem_append_right _ mem_cons_self
    · refine ⟨rfl, fun _ => id, ?_⟩
      rintro _ ⟨⟩ last
      dsimp only at empty
      rw [update_self] at empty
      refine absurd (eq_nil_iff_forall_not_mem.mpr fun s member => ?_) empty
      obtain ⟨ne, inside⟩ := (kept.families.nodup p).mem_erase_iff.mp member
      exact last s ne ((kept.families.sub s p).mp inside)

/-- A thread that ends leaves its parent, and wakes it if it was the last child. -/
theorem finish_family (rests : frame.Rests) (other : frame.active ≠ frame.daemon) :
    frame.finish.parent = update frame.parent frame.active none ∧
    (∀ t ∈ frame.runlist, t ∈ frame.finish.runlist ∨ t = frame.finish.active) ∧
    ∀ p, frame.parent frame.active = some p →
      (∀ s, s ≠ frame.active → frame.parent s ≠ some p) →
      p ∈ frame.finish.runlist ∨ p = frame.finish.active := by
  have own := rests.own other
  have leave {frame' : MtFrame} (inHand : InHand frame' none [frame.active])
      (orphan : frame'.parent frame.active = none) :
      Onward frame' (frame'.freeThread frame.active).threadSchdule := by
    obtain ⟨served, -⟩ := inHand.freeThread orphan (by rintro ⟨⟩)
    refine Gathers.trans_onward ⟨served.parent, fun t => ?_⟩ (onward_threadSchdule _)
    rw [freeThread_runlist]
    exact id
  unfold finish
  dsimp only
  split_ifs with sub
  · obtain ⟨woken, orphan⟩ := own.wakeupParent frame.active
    obtain ⟨parent, runs, last⟩ := own.wakeupParent_family frame.active
    have onward := leave woken orphan
    rw [(wakeupParent_calm frame frame.active).1]
    exact ⟨onward.parent.trans parent, fun t member => onward.runs t (runs t member),
      fun p child alone => onward.runs p (last p child alone)⟩
  · have orphan := own.orphan sub
    have onward := leave own orphan
    refine ⟨onward.parent.trans ?_, onward.runs, fun p child => ?_⟩
    · exact (update_eq_self_iff.mpr orphan.symm).symm
    · rw [orphan] at child
      cases child

end End

end FStack.Micro.MtFrame
