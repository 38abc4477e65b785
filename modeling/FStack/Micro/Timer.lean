import FStack.Micro.HeapList

/-!
# Timers

`CTimerMng` keeps timers in a heap by their expiry. `check_expired` notifies the timer at the
top while it is due; a callback may start timers again.

`start_timer` sets the expiry before it tries to queue the timer: one that is queued already keeps
its place, with another expiry.
-/

namespace FStack.Micro

open Function HeapList List

structure CTimerMng where
  heap : HeapList Nat
  expired : Nat → Nat

namespace CTimerMng

open Steps

variable {mng : CTimerMng} {now timer interval : Nat}

section Model

/-- `CTimerMng(max_item)`. -/
def new (maxItem : Nat) : CTimerMng where
  heap := .new (if maxItem < 100000 then 100000 else maxItem) fun _ => 0
  expired _ := 0

/-- `now_ms + interval` as a `utime64_t`. -/
def expiry (now interval : Nat) : Nat := (now + interval) % 18446744073709551616

def startTimer (mng : CTimerMng) (now timer interval : Nat) : CTimerMng × Bool :=
  let expired := update mng.expired timer (expiry now interval)
  let pushed := mng.heap.heapPush expired timer
  (⟨pushed.1, expired⟩, decide (0 ≤ pushed.2))

def stopTimer (mng : CTimerMng) (timer : Nat) : CTimerMng :=
  { mng with heap := (mng.heap.heapDelete mng.expired timer).1 }

/-- A call of `start_timer`. -/
structure Start where
  timer : Nat
  interval : Nat
  deriving DecidableEq, Repr

def start (now : Nat) (mng : CTimerMng) (call : Start) : CTimerMng :=
  (mng.startTimer now call.timer call.interval).1

/-- The loop of `check_expired`, with the timers it notifies. There is one list of calls for
each round: what `timer_notify` does. -/
def checkLoop (now : Nat) : List (List Start) → CTimerMng → CTimerMng × List Nat
  | [], mng => (mng, [])
  | calls :: rest, mng =>
    match mng.heap.heapTop with
    | none => (mng, [])
    | some timer =>
      if mng.expired timer ≤ now then
        let later := checkLoop now rest (calls.foldl (start now) (mng.stopTimer timer))
        (later.1, timer :: later.2)
      else (mng, [])

/-- Callbacks that have nothing to do come after those that are given. There are enough
rounds: each takes one timer from the heap, and each call puts in one at most. -/
def rounds (mng : CTimerMng) (callbacks : List (List Start)) : List (List Start) :=
  callbacks ++ replicate (mng.heap.heap.count + callbacks.flatten.length) []

def checkExpired (mng : CTimerMng) (now : Nat) (callbacks : List (List Start)) :
    CTimerMng × List Nat :=
  checkLoop now (mng.rounds callbacks) mng

end Model

section Order

/-- The heap is in order of the expiry. -/
structure InOrder (mng : CTimerMng) : Prop where
  valid : mng.heap.heap.Valid
  ordered : mng.heap.heap.Ordered mng.expired

def Queued (mng : CTimerMng) (timer : Nat) : Prop := timer ∈ mng.heap.heap.members

instance (mng : CTimerMng) (timer : Nat) : Decidable (mng.Queued timer) :=
  inferInstanceAs (Decidable (mng.heap.heap.index timer ≠ 0))

/-- A timer is queued, and its time has come. -/
def Due (mng : CTimerMng) (now timer : Nat) : Prop := mng.Queued timer ∧ mng.expired timer ≤ now

instance (mng : CTimerMng) (now timer : Nat) : Decidable (mng.Due now timer) :=
  inferInstanceAs (Decidable (_ ∧ _))

theorem new_inOrder (maxItem : Nat) : (new maxItem).InOrder :=
  ⟨new_valid .., fun p p1 bounded => by
    have none : p ≤ 0 := bounded
    omega⟩

/-- A stopped timer is no longer queued. The heap stays in order if what takes its place is
not less than the parent. -/
theorem stopTimer_spec (inOrder : mng.InOrder) (queued : mng.Queued timer)
    (settles : mng.heap.Settles mng.expired timer) :
    (mng.stopTimer timer).InOrder ∧
    (∀ other, (mng.stopTimer timer).Queued other ↔ mng.Queued other ∧ other ≠ timer) ∧
    (mng.stopTimer timer).heap.heap.count + 1 = mng.heap.heap.count := by
  obtain ⟨-, deleted⟩ : _ ∧ HeapList.Deleted mng.heap
      (mng.heap.heapDelete mng.expired timer).1 timer :=
    heapDelete_spec inOrder.valid queued
  refine ⟨⟨deleted.valid, heapDelete_ordered inOrder.valid inOrder.ordered
    fun _ => settles⟩, fun other => ?_, deleted.count⟩
  unfold Queued stopTimer
  rw [deleted.members]
  exact Iff.rfl

/-- A timer that is not queued is started, if there is room for it. -/
theorem startTimer_spec (inOrder : mng.InOrder) (free : ¬ mng.Queued timer) (now interval : Nat) :
    (mng.startTimer now timer interval).1.InOrder ∧
    (mng.startTimer now timer interval).1.heap.heap.count ≤ mng.heap.heap.count + 1 ∧
    ∀ other, (mng.startTimer now timer interval).1.Queued other ↔
      mng.Queued other ∨ mng.heap.heap.count < mng.heap.max ∧ other = timer := by
  have same (entry : Nat) (member : entry ∈ mng.heap.heap.members) :
      update mng.expired timer (expiry now interval) entry = mng.expired entry := by
    refine update_of_ne ?_ ..
    rintro rfl
    exact free member
  have ordered := inOrder.ordered.congr inOrder.valid same
  unfold startTimer
  dsimp only
  rcases Nat.lt_or_ge mng.heap.heap.count mng.heap.max with room | full
  · obtain ⟨-, pushed⟩ : _ ∧ HeapList.Pushed mng.heap
        (mng.heap.heapPush (update mng.expired timer (expiry now interval)) timer).1
        timer := heapPush_spec inOrder.valid free room
    refine ⟨⟨pushed.valid, heapPush_ordered ordered⟩, ?_, fun other => ?_⟩
    · exact pushed.count.le
    · unfold Queued
      rw [pushed.members, Set.mem_insert_iff, and_iff_right room, or_comm]
  · rw [(heapPush_refused _ (.inl full)).1]
    exact ⟨⟨inOrder.valid, ordered⟩, Nat.le_succ _, fun other =>
      (or_iff_left fun both => absurd both.1 (by omega)).symm⟩

/-- If `start_timer` fails, the queued timers, their expiry and the order are as before. -/
def FailsCleanly (mng : CTimerMng) (now timer interval : Nat) : Prop :=
  let result := mng.startTimer now timer interval
  result.2 = false →
    (∀ other, result.1.Queued other ↔ mng.Queued other) ∧
    (∀ other, mng.Queued other → result.1.expired other = mng.expired other) ∧
    (result.1.heap.heap.Ordered result.1.expired ↔ mng.heap.heap.Ordered mng.expired)

/-- A timer that is queued must be started again for the time at which it expires anyway. -/
theorem failsCleanly_iff (valid : mng.heap.heap.Valid) (now timer interval : Nat) :
    mng.FailsCleanly now timer interval ↔
      (mng.Queued timer → mng.expired timer = expiry now interval) := by
  have refused (fails : mng.heap.max ≤ mng.heap.heap.count ∨ mng.Queued timer) :=
    heapPush_refused (update mng.expired timer (expiry now interval)) fails
  unfold FailsCleanly startTimer
  dsimp only
  constructor
  · intro clean queued
    have kept := (clean (decide_eq_false (refused (.inr queued)).2.not_ge)).2.1 timer queued
    exact kept.symm.trans (update_self ..)
  · intro same failed
    have fails : mng.heap.max ≤ mng.heap.heap.count ∨ mng.Queued timer := by
      by_contra starts
      obtain ⟨room, free⟩ := not_or.mp starts
      exact of_decide_eq_false failed
        (heapPush_spec valid free (not_le.mp room)).1.ge
    have keys (other : Nat) (queued : mng.Queued other) :
        update mng.expired timer (expiry now interval) other = mng.expired other := by
      rcases eq_or_ne other timer with rfl | different
      · rw [update_self, same queued]
      · exact update_of_ne different ..
    rw [(refused fails).1]
    exact ⟨fun _ => Iff.rfl, keys, fun ordered => ordered.congr valid fun other queued =>
      (keys other queued).symm, fun ordered => ordered.congr valid keys⟩

/-- Two timers, due at `5` and `10`. -/
def twoTimers : CTimerMng := (((new 0).startTimer 0 1 5).1.startTimer 0 2 10).1

theorem failsCleanly_sameTime : twoTimers.FailsCleanly 0 1 5 :=
  (failsCleanly_iff (startTimer_spec (startTimer_spec (new_inOrder 0) (by decide) 0 5).1
    (by decide) 0 10).1.valid 0 1 5).mpr fun _ => by decide

/-- The timer at the top is started again, for a time after the other one. -/
theorem not_failsCleanly_again : ¬ twoTimers.FailsCleanly 0 1 20 := fun clean =>
  absurd ((clean (by decide)).2.1 1 (by decide)) (by decide)

end Order

section Notifications

/-- A timer is started that is not queued, for a time that is still to come. -/
def Later (now : Nat) (mng : CTimerMng) (call : Start) : Prop :=
  ¬ mng.Queued call.timer ∧ now < expiry now call.interval

instance (now : Nat) (mng : CTimerMng) (call : Start) : Decidable (Later now mng call) :=
  inferInstanceAs (Decidable (_ ∧ _))

/-- In every round the callback starts only timers that are not queued, for a time that is
still to come. -/
def LaterOnly (now : Nat) : List (List Start) → CTimerMng → Prop
  | [], _ => True
  | calls :: rest, mng =>
    match mng.heap.heapTop with
    | none => True
    | some timer =>
      mng.expired timer ≤ now →
        Along (start now) (Later now) (mng.stopTimer timer) calls ∧
        LaterOnly now rest (calls.foldl (start now) (mng.stopTimer timer))

instance LaterOnly.decidable (now : Nat) :
    ∀ (callbacks : List (List Start)) (mng : CTimerMng), Decidable (LaterOnly now callbacks mng)
  | [], _ => inferInstanceAs (Decidable True)
  | calls :: rest, mng =>
    match top : mng.heap.heapTop with
    | none => isTrue (by simp only [LaterOnly, top])
    | some timer =>
      have := LaterOnly.decidable now rest (calls.foldl (start now) (mng.stopTimer timer))
      decidable_of_iff (mng.expired timer ≤ now →
        Along (start now) (Later now) (mng.stopTimer timer) calls ∧
        LaterOnly now rest (calls.foldl (start now) (mng.stopTimer timer)))
        (by simp only [LaterOnly, top])

/-- What a callback leaves: the timers that are due are the same. -/
structure Waiting (now : Nat) (mng mng' : CTimerMng) : Prop where
  inOrder : mng'.InOrder
  due : ∀ timer, mng'.Due now timer ↔ mng.Due now timer
  expired : ∀ timer, mng.Due now timer → mng'.expired timer = mng.expired timer

/-- A timer that is started for later does not change which ones are due. -/
theorem start_waiting (inOrder : mng.InOrder) {call : Start} (later : Later now mng call) :
    Waiting now mng (start now mng call) ∧
      (start now mng call).heap.heap.count ≤ mng.heap.heap.count + 1 := by
  obtain ⟨free, future⟩ := later
  obtain ⟨kept, count, queued⟩ := startTimer_spec inOrder free now call.interval
  have same (timer : Nat) (other : timer ≠ call.timer) :
      (start now mng call).expired timer = mng.expired timer := update_of_ne other ..
  have others {timer : Nat} (due : mng.Due now timer) : timer ≠ call.timer := by
    rintro rfl
    exact free due.1
  refine ⟨⟨kept, fun timer => ⟨fun due => ?_, fun due => ?_⟩, fun timer due =>
    same timer (others due)⟩, count⟩
  · have different : timer ≠ call.timer := by
      rintro rfl
      have early : expiry now call.interval ≤ now :=
        (update_self call.timer (expiry now call.interval) mng.expired) ▸ due.2
      omega
    refine ⟨((queued timer).mp due.1).resolve_right fun both => different both.2, ?_⟩
    rw [← same timer different]
    exact due.2
  · refine ⟨(queued timer).mpr (.inl due.1), ?_⟩
    rw [same timer (others due)]
    exact due.2

/-- Nor do all the timers that a callback starts. -/
theorem callback_waiting (inOrder : mng.InOrder) {calls : List Start}
    (later : Along (start now) (Later now) mng calls) :
    Waiting now mng (calls.foldl (start now) mng) ∧
      (calls.foldl (start now) mng).heap.heap.count ≤ mng.heap.heap.count + calls.length := by
  induction calls generalizing mng with
  | nil => exact ⟨⟨inOrder, fun _ => Iff.rfl, fun _ _ => rfl⟩, le_rfl⟩
  | cons call rest ih =>
    obtain ⟨here, there⟩ := later
    obtain ⟨first, one⟩ := start_waiting inOrder here
    obtain ⟨others, more⟩ := ih first.inOrder there
    refine ⟨⟨others.inOrder, fun timer => (others.due timer).trans (first.due timer),
      fun timer due => ?_⟩, ?_⟩
    · rw [foldl_cons, others.expired timer ((first.due timer).mpr due),
        first.expired timer due]
    · rw [foldl_cons, length_cons]
      omega

/-- What `check_expired` notifies. -/
structure Notified (now : Nat) (mng : CTimerMng) (notified : List Nat) : Prop where
  exactly : ∀ timer, timer ∈ notified ↔ mng.Due now timer
  once : notified.Nodup
  ordered : notified.Pairwise fun first second => mng.expired first ≤ mng.expired second

theorem notified_none (none : ∀ timer, ¬ mng.Due now timer) : Notified now mng [] where
  exactly timer := iff_of_false not_mem_nil (none timer)
  once := nodup_nil
  ordered := Pairwise.nil

/-- The timer that is due first is notified before all others. -/
theorem notified_cons {mng' : CTimerMng} {first : Nat} {notified : List Nat}
    (due : mng.Due now first)
    (least : ∀ timer, mng.Queued timer → mng.expired first ≤ mng.expired timer)
    (others : ∀ timer, mng'.Due now timer ↔ mng.Due now timer ∧ timer ≠ first)
    (same : ∀ timer, mng'.Due now timer → mng'.expired timer = mng.expired timer)
    (later : Notified now mng' notified) : Notified now mng (first :: notified) := by
  have rest (timer : Nat) : timer ∈ notified ↔ mng.Due now timer ∧ timer ≠ first :=
    (later.exactly timer).trans (others timer)
  refine ⟨fun timer => ?_, nodup_cons.mpr ⟨fun again => ?_, later.once⟩,
    pairwise_cons.mpr ⟨fun timer member => ?_, ?_⟩⟩
  · rw [mem_cons, rest]
    constructor
    · rintro (rfl | ⟨soon, -⟩)
      · exact due
      · exact soon
    · intro soon
      rcases eq_or_ne timer first with same | different
      · exact .inl same
      · exact .inr ⟨soon, different⟩
  · exact ((rest first).mp again).2 rfl
  · exact least timer ((rest timer).mp member).1.1
  · refine later.ordered.imp_of_mem fun {a b} left right before => ?_
    rwa [same a ((later.exactly a).mp left), same b ((later.exactly b).mp right)] at before

variable {callbacks : List (List Start)}

/-- The loop notifies what is due, if there are enough rounds for all timers. -/
theorem checkLoop_notified (inOrder : mng.InOrder) (later : LaterOnly now callbacks mng)
    (enough : mng.heap.heap.count + callbacks.flatten.length ≤ callbacks.length) :
    Notified now mng (checkLoop now callbacks mng).2 ∧
    (checkLoop now callbacks mng).1.InOrder ∧
    ∀ timer, ¬ (checkLoop now callbacks mng).1.Due now timer := by
  induction callbacks generalizing mng with
  | nil =>
    have none (timer : Nat) : ¬ mng.Due now timer := fun due => by
      have := inOrder.valid.placed timer due.1
      simp only [length_nil] at enough
      omega
    exact ⟨notified_none none, inOrder, none⟩
  | cons calls rest ih =>
    unfold checkLoop
    unfold LaterOnly at later
    cases top : mng.heap.heapTop with
    | none =>
      have none (timer : Nat) : ¬ mng.Due now timer := fun due =>
        heapTop_none inOrder.valid top timer due.1
      exact ⟨notified_none none, inOrder, none⟩
    | some first =>
      rw [top] at later
      dsimp only at later ⊢
      have least (timer : Nat) (queued : mng.Queued timer) :
          mng.expired first ≤ mng.expired timer :=
        heapTop_le inOrder.valid inOrder.ordered top queued
      split_ifs with due
      · have index := heapTop_some inOrder.valid top
        have queued : mng.Queued first := fun none => by omega
        obtain ⟨stopped, others, fewer⟩ := stopTimer_spec inOrder queued fun inner =>
          absurd inner (by omega)
        obtain ⟨here, there⟩ := later due
        obtain ⟨waiting, more⟩ := callback_waiting stopped here
        rw [flatten_cons, length_append, length_cons] at enough
        obtain ⟨notified, left⟩ := ih waiting.inOrder there (by omega)
        have remain (timer : Nat) : (mng.stopTimer first).Due now timer ↔
            mng.Due now timer ∧ timer ≠ first := by
          rw [Due, others, and_right_comm]
          exact Iff.rfl
        exact ⟨notified_cons ⟨queued, due⟩ least
          (fun timer => (waiting.due timer).trans (remain timer))
          (fun timer soon => waiting.expired timer ((waiting.due timer).mp soon)) notified, left⟩
      · have none (timer : Nat) : ¬ mng.Due now timer := fun soon =>
          due ((least timer soon.1).trans soon.2)
        exact ⟨notified_none none, inOrder, none⟩

theorem rounds_enough (mng : CTimerMng) (callbacks : List (List Start)) :
    mng.heap.heap.count + (mng.rounds callbacks).flatten.length ≤ (mng.rounds callbacks).length := by
  have none (n : Nat) : (replicate n ([] : List Start)).flatten = [] := by
    rw [flatten_eq_nil_iff]
    exact fun list member => eq_of_mem_replicate member
  unfold rounds
  rw [flatten_append, none, append_nil, length_append, length_replicate]
  omega

/-- `check_expired` notifies the timers that are due, in order, and leaves none. -/
theorem checkExpired_notified (inOrder : mng.InOrder)
    (later : LaterOnly now (mng.rounds callbacks) mng) :
    Notified now mng (mng.checkExpired now callbacks).2 ∧
    (mng.checkExpired now callbacks).1.InOrder ∧
    ∀ timer, ¬ (mng.checkExpired now callbacks).1.Due now timer :=
  checkLoop_notified inOrder later (rounds_enough mng callbacks)

end Notifications

end CTimerMng

end FStack.Micro
