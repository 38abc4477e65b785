import FStack.Micro.Scheduling
import FStack.Micro.Timer

/-!
# Time-outs

`WakeupTimeout` and `check_expired` stop at the first entry at the top of their heap that is
not due. They release everything that is due if the heap is in order, and only then. A
deletion from the middle of the heap may put the order out: a cancelled timer, or a thread
that is woken up before its time.
-/

namespace FStack.Micro

open HeapList MtFrame Steps

namespace MtFrame

variable {frame frame' : MtFrame} {t fuel : Nat}

/-- The sleep heap is in order of the wake-up times. -/
def Timely (frame : MtFrame) : Prop := frame.sleeplist.heap.Ordered frame.wakeupTime

section

variable (timely : frame.Timely)

include timely

theorem Timely.calm (tidy : frame.Tidy) (calm : Calm frame frame') : frame'.Timely := by
  unfold Timely
  rw [calm.sleeplist]
  exact Heap.Ordered.congr timely tidy.sleeplist calm.wakeupTime

section

variable (rests : frame.Rests) (other : frame.active ≠ frame.daemon)

include rests other

theorem Timely.setWakeupTime (time : Nat) : (frame.setWakeupTime frame.active time).Timely := by
  have awake : ¬ frame.Listed .sleepList frame.active := (rests.own other).not_listed rfl
  exact timely.calm rests.tidy (Calm.setWakeupTime awake time)

theorem Timely.sleep (ms : Int) : (frame.sleep ms).Timely := by
  unfold Timely MtFrame.sleep
  rw [threadSchdule_sleeplist, threadSchdule_wakeupTime]
  exact heapPush_ordered (timely.setWakeupTime rests other _)

theorem Timely.waitNotify (timeout : Int) : (frame.waitNotify timeout).Timely := by
  unfold Timely MtFrame.waitNotify
  rw [threadSchdule_sleeplist, threadSchdule_wakeupTime]
  exact heapPush_ordered (timely.setWakeupTime rests other _)

theorem Timely.kqueueSchedule (timeout : Int) (added : Bool) :
    (frame.kqueueSchedule timeout added).Timely := by
  cases added with
  | false => exact timely.setWakeupTime rests other _
  | true => exact timely.waitNotify rests other timeout

end

/-- A thread is woken up before its time, and nothing is put out of order. -/
theorem Timely.removeIoWait (tidy : frame.Tidy)
    (settles : frame.sleeplist.Settles frame.wakeupTime t) : (frame.removeIoWait t).Timely :=
  heapDelete_ordered tidy.sleeplist timely fun _ => settles

variable (tidy : frame.Tidy)
  (settles : frame.flag t .ioList = true → frame.sleeplist.Settles frame.wakeupTime t)

include tidy settles

theorem Timely.notifyOwner : (frame.notifyOwner t).Timely := by
  unfold MtFrame.notifyOwner
  split_ifs with waits
  · exact timely.removeIoWait tidy (settles waits)
  · exact timely

theorem Timely.notifyThread : (frame.notifyThread t).Timely := by
  unfold MtFrame.notifyThread
  dsimp only
  split_ifs with waits
  · exact timely.removeIoWait tidy (settles waits)
  · exact timely.removeIoWait tidy (settles waits)
  · exact timely

end

section

variable (frame : MtFrame) (t : Nat)

theorem wakeup_sleeplist :
    (frame.wakeup t).sleeplist = (frame.sleeplist.heapDelete frame.wakeupTime t).1 := by
  unfold wakeup
  split_ifs <;> rfl

theorem wakeup_wakeupTime : (frame.wakeup t).wakeupTime = frame.wakeupTime := by
  unfold wakeup
  split_ifs <;> rfl

theorem wakeup_lastClock : (frame.wakeup t).lastClock = frame.lastClock := by
  unfold wakeup
  split_ifs <;> rfl

end

/-- Waking up changes no wake-up time. -/
theorem wakeupLoop_wakeupTime (fuel : Nat) (frame : MtFrame) :
    (wakeupLoop fuel frame).wakeupTime = frame.wakeupTime := by
  induction fuel generalizing frame with
  | zero => rfl
  | succ fuel ih =>
    unfold wakeupLoop
    cases frame.sleeplist.heapTop with
    | none => rfl
    | some t =>
      dsimp only
      split_ifs
      · rw [ih, wakeup_wakeupTime]
      · rfl

/-- What is left in the sleep heap is what is not due. -/
theorem wakeupLoop_members (rests : frame.Rests) (timely : frame.Timely)
    (enough : frame.sleeplist.heap.count ≤ fuel) :
    (wakeupLoop fuel frame).Timely ∧
    ∀ t, t ∈ (wakeupLoop fuel frame).sleeplist.heap.members ↔
      t ∈ frame.sleeplist.heap.members ∧ frame.lastClock < frame.wakeupTime t := by
  have valid := rests.tidy.sleeplist
  induction fuel generalizing frame with
  | zero =>
    refine ⟨timely, fun t => (and_iff_left_of_imp fun sleeps => ?_).symm⟩
    have := valid.placed t sleeps
    omega
  | succ fuel ih =>
    unfold wakeupLoop
    cases top : frame.sleeplist.heapTop with
    | none =>
      refine ⟨timely, fun t => (and_iff_left_of_imp fun sleeps => ?_).symm⟩
      exact absurd sleeps (heapTop_none valid top t)
    | some first =>
      have least (t : Nat) (sleeps : t ∈ frame.sleeplist.heap.members) :
          frame.wakeupTime first ≤ frame.wakeupTime t :=
        heapTop_le valid timely top sleeps
      dsimp only
      split_ifs with due
      · have sleeps := heapTop_mem rests.tidy top
        have index := heapTop_some valid top
        have settles : frame.sleeplist.Settles frame.wakeupTime first := fun inner => by omega
        obtain ⟨-, deleted⟩ : _ ∧ HeapList.Deleted frame.sleeplist
            (frame.sleeplist.heapDelete frame.wakeupTime first).1 first :=
          heapDelete_spec valid sleeps
        have woken : (frame.wakeup first).Rests :=
          (InHand.wakeup rests sleeps).rests (wakeup_active ..) (wakeup_daemon ..)
        have ordered : (frame.wakeup first).Timely := by
          unfold Timely
          rw [wakeup_sleeplist, wakeup_wakeupTime]
          exact heapDelete_ordered valid timely fun _ => settles
        have fewer : (frame.wakeup first).sleeplist.heap.count ≤ fuel := by
          have count := deleted.count
          rw [wakeup_sleeplist]
          omega
        obtain ⟨kept, left⟩ := ih woken ordered fewer woken.tidy.sleeplist
        refine ⟨kept, fun t => (left t).trans ?_⟩
        rw [wakeup_sleeplist, wakeup_wakeupTime, wakeup_lastClock, deleted.members, Set.mem_sdiff]
        constructor
        · rintro ⟨⟨sleeps, -⟩, later⟩
          exact ⟨sleeps, later⟩
        · rintro ⟨sleeps, later⟩
          refine ⟨⟨sleeps, ?_⟩, later⟩
          rintro rfl
          omega
      · refine ⟨timely, fun t => (and_iff_left_of_imp fun sleeps => ?_).symm⟩
        exact (not_le.mp due).trans_le (least t sleeps)

/-- A move that deletes an entry from the middle of the sleep heap leaves it in order. -/
def Settling (frame : MtFrame) : Move → Prop
  | .notifyThread t | .notifyOwner t =>
    frame.flag t .ioList = true → frame.sleeplist.Settles frame.wakeupTime t
  | _ => True

instance (frame : MtFrame) : ∀ move, Decidable (frame.Settling move)
  | .notifyThread _ | .notifyOwner _ => inferInstanceAs (Decidable (_ → _))
  | .createThread _ | .execAllTask _ | .wait | .sleep _ | .waitNotify _ | .kqueueSchedule .. | .finish
  | .swapDaemonThread | .setLastClock _ | .wakeupTimeout | .switchContext =>
    inferInstanceAs (Decidable True)

/-- Settling moves keep sleepers ordered by time. -/
theorem Timely.step (timely : frame.Timely) (rests : frame.Rests) {move : Move}
    (settling : frame.Settling move) : (frame.step move).Timely := by
  unfold MtFrame.step
  split_ifs with idle
  · exact timely
  have other (own : move.own = true) : frame.active ≠ frame.daemon := fun ruling =>
    idle ⟨own, ruling⟩
  have tidy := rests.tidy
  cases move with
  | createThread memory => exact timely.calm tidy (rests.createThread memory).2
  | execAllTask memory => exact timely.calm tidy (rests.execAllTask (other rfl) memory).2
  | wait =>
    have calm : Calm frame (frame.insertPend frame.active) := ⟨rfl, fun _ _ => rfl⟩
    exact timely.calm tidy (calm.trans (threadSchdule_calm _))
  | sleep ms => exact timely.sleep rests (other rfl) ms
  | waitNotify timeout => exact timely.waitNotify rests (other rfl) timeout
  | kqueueSchedule timeout added => exact timely.kqueueSchedule rests (other rfl) timeout added
  | finish => exact timely.calm tidy (rests.finish (other rfl)).2
  | swapDaemonThread =>
    refine timely.calm tidy ?_
    unfold carry swapDaemonThread
    split_ifs <;> exact ⟨rfl, fun _ _ => rfl⟩
  | notifyThread thread => exact timely.notifyThread tidy settling
  | notifyOwner thread => exact timely.notifyOwner tidy settling
  | setLastClock clock => exact timely
  | wakeupTimeout => exact (wakeupLoop_members rests timely le_rfl).1
  | switchContext =>
    unfold carry
    split_ifs
    · exact timely.calm tidy (threadSchdule_calm frame)
    · exact timely

theorem allocThread_sleeplist (frame : MtFrame) (memory : Bool) :
    (frame.allocThread memory).1.sleeplist = frame.sleeplist := by
  unfold allocThread
  cases frame.freelist with
  | nil =>
    dsimp only
    split_ifs <;> rfl
  | cons first rest => rfl

/-- At the start nobody sleeps. -/
theorem initFrame_timely {defaultThreadNum made clock : Nat} {maxNum : Int}
    (started : initFrame defaultThreadNum made maxNum clock = some frame) : frame.Timely := by
  unfold initFrame at started
  dsimp only at started
  split_ifs at started
  have same := allocThread_sleeplist { initialPool defaultThreadNum made maxNum with
    sleeplist := (initialPool defaultThreadNum made maxNum).sleeplist.heapResize
      (maxNum * 2).toNat } true
  generalize allocThread _ true = answer at started same
  obtain ⟨frame', _ | t⟩ := answer
  · cases started
  · cases started
    intro p p1 bounded
    have heap : frame'.sleeplist.heap = (new 0 fun _ => 0).heap :=
      (congrArg heap same).trans (heapResize_heap _)
    have empty : frame'.sleeplist.heap.count = 0 := congrArg Heap.count heap
    have inside : p ≤ frame'.sleeplist.heap.count := bounded
    omega

end MtFrame

/-- The frame with its timers. -/
structure Timing where
  frame : MtFrame
  timer : CTimerMng

namespace Timing

variable {state : Timing}

/-- `InitFrame` makes the timers, too. -/
def init (defaultThreadNum made : Nat) (maxNum : Int) (clock : Nat) : Option Timing :=
  (initFrame defaultThreadNum made maxNum clock).map fun frame =>
    ⟨frame, .new (maxNum * 2).toNat⟩

inductive Input
  | move (move : MtFrame.Move)
  | startTimer (timer interval : Nat)
  | stopTimer (timer : Nat)
  | checkExpired (callbacks : List (List CTimerMng.Start))

def step (state : Timing) : Input → Timing
  | .move move => { state with frame := state.frame.step move }
  | .startTimer timer interval =>
    { state with timer := (state.timer.startTimer state.frame.lastClock timer interval).1 }
  | .stopTimer timer => { state with timer := state.timer.stopTimer timer }
  | .checkExpired callbacks =>
    { state with timer := (state.timer.checkExpired state.frame.lastClock callbacks).1 }

/-- Deletions settle, and only timers are started that are not queued; from callbacks, for a
time that is still to come. -/
def Fair (state : Timing) : Input → Prop
  | .move move => state.frame.Settling move
  | .startTimer timer _ => ¬ state.timer.Queued timer
  | .stopTimer timer =>
    state.timer.Queued timer → state.timer.heap.Settles state.timer.expired timer
  | .checkExpired callbacks =>
    CTimerMng.LaterOnly state.frame.lastClock (state.timer.rounds callbacks) state.timer

instance (state : Timing) : ∀ input, Decidable (state.Fair input)
  | .move move => inferInstanceAs (Decidable (state.frame.Settling move))
  | .startTimer .. => inferInstanceAs (Decidable (¬ _))
  | .stopTimer _ => inferInstanceAs (Decidable (_ → _))
  | .checkExpired callbacks => CTimerMng.LaterOnly.decidable _ (state.timer.rounds callbacks) _

/-- `WakeupTimeout` leaves the threads in the sleep heap whose time has not come, and only
those. `check_expired` notifies the timers whose time has come, and only those, in order. -/
def Punctual (state : Timing) : Input → Prop
  | .move .wakeupTimeout =>
    (∀ t, (state.frame.step .wakeupTimeout).wakeupTime t = state.frame.wakeupTime t) ∧
    ∀ t, t ∈ (state.frame.step .wakeupTimeout).sleeplist.heap.members ↔
      t ∈ state.frame.sleeplist.heap.members ∧
        state.frame.lastClock < state.frame.wakeupTime t
  | .checkExpired callbacks =>
    CTimerMng.Notified state.frame.lastClock state.timer
      (state.timer.checkExpired state.frame.lastClock callbacks).2
  | _ => True

structure Ready (state : Timing) : Prop where
  rests : state.frame.Rests
  timely : state.frame.Timely
  inOrder : state.timer.InOrder

/-- A fair move is punctual, and the next one can be. -/
theorem Ready.step (ready : state.Ready) {input : Input} (fair : state.Fair input) :
    state.Punctual input ∧ (state.step input).Ready := by
  cases input with
  | move move =>
    refine ⟨?_, ready.rests.step move, ready.timely.step ready.rests fair, ready.inOrder⟩
    cases move with
    | wakeupTimeout =>
      exact ⟨congrFun (wakeupLoop_wakeupTime ..),
        (wakeupLoop_members ready.rests ready.timely le_rfl).2⟩
    | _ => trivial
  | startTimer timer interval =>
    exact ⟨trivial, ready.rests, ready.timely,
      (CTimerMng.startTimer_spec ready.inOrder fair _ interval).1⟩
  | stopTimer timer =>
    refine ⟨trivial, ready.rests, ready.timely, ?_⟩
    by_cases queued : state.timer.Queued timer
    · exact (CTimerMng.stopTimer_spec ready.inOrder queued (fair queued)).1
    · have same : state.timer.stopTimer timer = state.timer := by
        unfold CTimerMng.stopTimer
        rw [(heapDelete_free _ queued).1]
      exact (same.symm ▸ ready.inOrder : (state.timer.stopTimer timer).InOrder)
  | checkExpired callbacks =>
    obtain ⟨notified, left, -⟩ := CTimerMng.checkExpired_notified ready.inOrder fair
    exact ⟨notified, ready.rests, ready.timely, left⟩

/-- Along every run in which deletions settle and only timers are started that are not
queued, time-outs are punctual, if the sleep heap has room for the threads that were made: a
thread that finds none is in no list and never wakes up. -/
theorem punctual_of_fair {defaultThreadNum made clock : Nat} {maxNum : Int} {state : Timing}
    (started : init defaultThreadNum made maxNum clock = some state)
    (room : made < state.frame.sleeplist.max) {inputs : List Input}
    (fair : Along step Fair state inputs) : Along step Punctual state inputs := by
  obtain ⟨frame, initial, rfl⟩ := Option.map_eq_some_iff.mp started
  have rests := initFrame_rests_of_room initial (initFrame_sleeplist initial ▸ room)
  refine Along.imp Ready (fun state input ready fair => ready.step fair)
    ⟨rests, initFrame_timely initial, CTimerMng.new_inOrder _⟩ fair

/-- A timer is cancelled, and the last entry takes its place; the others are notified, and one
is started again. -/
def cancelRun : List Input :=
  [.startTimer 0 1, .startTimer 1 2, .startTimer 2 3, .stopTimer 1, .move (.setLastClock 3),
    .checkExpired [[⟨0, 5⟩]]]

theorem punctual_cancelRun :
    ∃ state, init 1 1 1 0 = some state ∧ Along step Fair state cancelRun ∧
      Along step Punctual state cancelRun := by
  have fair : Along step Fair ((init 1 1 1 0).get rfl) cancelRun := by decide +kernel
  exact ⟨_, (Option.some_get _).symm, fair,
    punctual_of_fair (Option.some_get _).symm (by decide +kernel) fair⟩

/-- Seven timers are queued, and one is cancelled. The last entry takes its place below an
entry that is due later, and is not notified when its time has come. -/
def lateRun : List Input :=
  [.startTimer 0 1, .startTimer 1 4, .startTimer 2 2, .startTimer 3 5, .startTimer 4 6,
    .startTimer 5 7, .startTimer 6 3, .stopTimer 3, .move (.setLastClock 3), .checkExpired []]

theorem not_punctual_lateRun :
    ∃ state, init 1 1 1 0 = some state ∧ ¬ Along step Punctual state lateRun := by
  refine ⟨(init 1 1 1 0).get rfl, (Option.some_get _).symm, fun along => ?_⟩
  obtain ⟨-, -, -, -, -, -, -, -, -, notified, -⟩ := along
  exact absurd ((notified.exactly 6).mpr (by decide +kernel)) (by decide +kernel)

end Timing

end FStack.Micro
