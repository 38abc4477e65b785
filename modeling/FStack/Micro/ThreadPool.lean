import FStack.Micro.Frame

/-!
# The thread pool

`AllocThread` takes a thread from the free list, or makes one; `FreeThread` puts it back at
the end, and deletes the one in front if there are too many. Any run of such calls keeps the
books: `_total_num` counts the threads in use and those that are free, and the thread that
`FreeThread` is called for is never the one that it deletes.
-/

namespace FStack.Micro

open List MtFrame

/-- A pool, with the threads that `AllocThread` has given out. -/
structure ThreadPool where
  frame : MtFrame
  used : List Nat

namespace ThreadPool

variable {pool : ThreadPool}

inductive Call
  | allocThread (memory : Bool)
  | freeThread (thread : Nat)

def step (pool : ThreadPool) : Call → ThreadPool
  | .allocThread memory =>
    let (frame, thread) := pool.frame.allocThread memory
    ⟨frame, thread.toList ++ pool.used⟩
  | .freeThread thread => ⟨pool.frame.freeThread thread, pool.used.erase thread⟩

/-- Only threads that are in use are freed. -/
def Proper (pool : ThreadPool) : Call → Prop
  | .allocThread _ => True
  | .freeThread thread => thread ∈ pool.used

/-- The books of the pool. -/
structure Accounted (pool : ThreadPool) : Prop where
  used : pool.used.length = pool.frame.useNum
  total : pool.used.length + pool.frame.freelist.length = pool.frame.totalNum
  apart : ∀ t ∈ pool.used, t ∉ pool.frame.freelist
  quota : ∀ memory, pool.frame.totalNum ≥ pool.frame.maxNum →
    (pool.frame.allocThread memory).1.threads = pool.frame.threads
  self : ∀ t ∈ pool.used, t ∈ (pool.frame.freeThread t).threads

/-- What calls keep: every thread of the pool is there, once. -/
structure Sound (pool : ThreadPool) : Prop where
  useNum : pool.frame.useNum = pool.used.length
  totalNum : pool.frame.totalNum = pool.used.length + pool.frame.freelist.length
  once : (pool.frame.freelist ++ pool.used).Nodup
  alive : ∀ t ∈ pool.frame.freelist ++ pool.used, t ∈ pool.frame.threads
  old : ∀ t ∈ pool.frame.threads, t < pool.frame.next

/-- At the start all threads are free. -/
theorem sound_initialPool (defaultThreadNum made : Nat) (maxNum : Int) :
    Sound ⟨.initialPool defaultThreadNum made maxNum, []⟩ where
  useNum := rfl
  totalNum := by simp [initialPool]
  once := by simpa [initialPool] using nodup_range
  alive := by simp [initialPool]
  old := by simp [initialPool]

/-- Deleting the thread in front of the free list. -/
theorem Sound.trimPool (sound : pool.Sound) : Sound ⟨pool.frame.trimPool, pool.used⟩ := by
  obtain ⟨useNum, totalNum, once, alive, old⟩ := sound
  unfold MtFrame.trimPool
  cases free : pool.frame.freelist with
  | nil => exact ⟨useNum, totalNum, once, alive, old⟩
  | cons first rest =>
    rw [free, cons_append, nodup_cons] at once
    rw [free] at totalNum alive
    have trimmed : Sound ⟨{ pool.frame with
        freelist := rest, threads := pool.frame.threads.erase first,
        totalNum := pool.frame.totalNum - 1 }, pool.used⟩ := by
      refine ⟨useNum, ?_, once.2, fun t there => ?_, fun t there => old t (mem_of_mem_erase there)⟩
      · simp only [totalNum, length_cons]
        omega
      · refine (mem_erase_of_ne ?_).mpr (alive t (mem_cons_of_mem _ there))
        rintro rfl
        exact once.1 there
    dsimp only
    split_ifs
    · exact ⟨useNum, trimmed.totalNum, trimmed.once, trimmed.alive, trimmed.old⟩
    · exact ⟨useNum, trimmed.totalNum, trimmed.once, trimmed.alive, trimmed.old⟩
    · exact ⟨useNum, by rw [free]; exact totalNum, by rw [free]; exact nodup_cons.mpr once,
        by rw [free]; exact alive, old⟩

/-- An allocation counts the thread as used. -/
theorem Sound.allocThread (sound : pool.Sound) (memory : Bool) :
    (pool.step (.allocThread memory)).Sound := by
  have ⟨useNum, totalNum, once, alive, old⟩ := sound
  unfold step MtFrame.allocThread
  cases free : pool.frame.freelist with
  | cons thread rest =>
    rw [free] at totalNum once alive
    refine ⟨?_, ?_, nodup_middle.mpr once, fun t there => alive t (perm_middle.mem_iff.mp there), old⟩
    · exact congrArg (· + 1) useNum
    · simp only [setFlag, check, totalNum, length_cons, Option.toList_some,
        cons_append, nil_append]
      omega
  | nil =>
    rw [free] at totalNum once alive
    have made : Sound ⟨{ pool.frame with
        threads := pool.frame.next :: pool.frame.threads, next := pool.frame.next + 1,
        totalNum := pool.frame.totalNum + 1, useNum := pool.frame.useNum + 1 },
        pool.frame.next :: pool.used⟩ := by
      refine ⟨congrArg (· + 1) useNum, ?_, ?_, ?_, ?_⟩
      · simp only [free, length_cons]
        omega
      · rw [free]
        exact nodup_cons.mpr ⟨fun there => (old _ (alive _ there)).false, once⟩
      · rw [free]
        exact fun t there => mem_cons.mpr ((mem_cons.mp there).imp_right (alive t))
      · rintro t (- | ⟨-, there⟩)
        · exact Nat.lt_succ_self _
        · exact (old t there).trans (Nat.lt_succ_self _)
    dsimp only
    split_ifs
    · exact sound
    · exact sound
    · exact ⟨made.useNum, made.totalNum, made.once, made.alive, made.old⟩
    · exact ⟨made.useNum, made.totalNum, made.once, made.alive, made.old⟩

/-- The thread is put at the end of the free list. -/
theorem Sound.freeThread (sound : pool.Sound) {t : Nat} (used : t ∈ pool.used) :
    (pool.step (.freeThread t)).Sound := by
  obtain ⟨useNum, totalNum, once, alive, old⟩ := sound
  have length := length_erase_of_mem used
  have positive := length_pos_of_mem used
  have moved : (pool.frame.freelist ++ [t] ++ pool.used.erase t).Perm
      (pool.frame.freelist ++ pool.used) := by
    rw [append_assoc]
    exact (perm_cons_erase used).symm.append_left _
  refine @Sound.trimPool ⟨_, pool.used.erase t⟩ ⟨?_, ?_, moved.nodup_iff.mpr once,
    fun u there => alive u (moved.mem_iff.mp there), old⟩
  · change pool.frame.useNum - 1 = ((pool.used.erase t).length : Int)
    omega
  · change pool.frame.totalNum =
      ((pool.used.erase t).length : Int) + (pool.frame.freelist ++ [t]).length
    rw [length_append, length_singleton]
    omega

/-- The last thread of the free list is never deleted. -/
theorem trimPool_last {frame : MtFrame} {t : Nat} (before : List Nat)
    (free : frame.freelist = before ++ [t]) (other : t ∉ before) (alive : t ∈ frame.threads) :
    t ∈ frame.trimPool.threads := by
  unfold trimPool
  cases before with
  | nil => simpa [free] using alive
  | cons first rest =>
    have erased : t ∈ frame.threads.erase first :=
      (mem_erase_of_ne (ne_of_not_mem_cons other)).mpr alive
    rw [free]
    dsimp only [cons_append]
    split_ifs
    · exact erased
    · exact erased
    · exact alive

/-- Every proper call keeps the counts. -/
theorem Sound.step (sound : pool.Sound) {call : Call} (proper : pool.Proper call) :
    (pool.step call).Sound := by
  cases call with
  | allocThread memory => exact sound.allocThread memory
  | freeThread thread => exact sound.freeThread proper

/-- Counts that are sound account for all threads. -/
theorem Sound.accounted (sound : pool.Sound) : pool.Accounted where
  used := sound.useNum.symm
  total := sound.totalNum.symm
  apart t used free := disjoint_of_nodup_append sound.once free used
  quota memory full := by
    unfold MtFrame.allocThread
    split
    · rfl
    · rw [if_pos full]
  self t used := by
    refine trimPool_last pool.frame.freelist rfl (fun free => ?_) ?_
    · exact disjoint_of_nodup_append sound.once free used
    · exact sound.alive t (mem_append_right _ used)

/-- After every run of proper calls, the counts account for all threads. -/
theorem accounted_run (defaultThreadNum made : Nat) (maxNum : Int) {calls : List Call}
    (proper : Steps.Along step Proper ⟨.initialPool defaultThreadNum made maxNum, []⟩ calls) :
    (calls.foldl step ⟨.initialPool defaultThreadNum made maxNum, []⟩).Accounted :=
  (proper.last Sound (fun _ _ sound => sound.step) (sound_initialPool ..)).accounted

/-- A pool of one thread: a second one is made, both are freed, and the first is deleted. -/
theorem accounted_trimmed :
    (foldl step ⟨.initialPool 1 1 2, []⟩ [.allocThread true, .allocThread false,
      .allocThread true, .freeThread 1, .freeThread 0]).Accounted :=
  accounted_run 1 1 2 ⟨trivial, trivial, trivial, .head _, .head _, trivial⟩

end ThreadPool

end FStack.Micro
