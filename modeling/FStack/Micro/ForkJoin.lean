import FStack.Micro.Kinship

/-!
# Forks are joined

A call of `mt_exec_all_task` is waiting, joined or failed. In a call that waits, each task is with one sub thread or
done; the thread that waits is pending as long as there are sub threads, and then on the run list.
-/

namespace FStack.Micro.TaskFrame

open Function (update update_apply update_eq_self_iff update_of_ne update_self)
open List Maps MtFrame Prod

variable {state after : TaskFrame} {call index s p : Nat} {task : Option Nat}
  {tasks : List (Option Nat)} {args : TaskArgs}

/-- How often `Process` of a task is to be called: not for a null pointer. -/
def due (task : Option Nat) : Nat := if task.isSome then 1 else 0

/-- A task of a call that waits is with a sub thread, or done. -/
inductive Progress (state : TaskFrame) (call index : Nat) (task : Option Nat) : Prop
  | running (s : Nat) (args : TaskArgs) (has : state.args s = some args) (same : args.call = call)
      (place : args.index = index)
      (begun : (state.history call).count (.begun call index) = if args.begun then due task else 0)
      (processed : (state.history call).count (.processed call index) = 0)
  | done (none : ∀ s args, state.args s = some args → args.call = call → args.index ≠ index)
      (begun : (state.history call).count (.begun call index) = due task)
      (processed : (state.history call).count (.processed call index) = due task)

/-- A call waits, has been joined, or has failed. -/
inductive Phase (state : TaskFrame) (call : Nat) (tasks : List (Option Nat)) : Prop
  | waiting (p : Nat) (waits : state.waits p = some call) (nonempty : tasks ≠ [])
      (inside : .resumed call ∉ state.history call ∧ ∀ rc, .returned call rc ∉ state.history call)
      (progress : ∀ index task, tasks[index]? = some task → state.Progress call index task)
  | joined (ended : ∀ p, state.waits p ≠ some call) (before : List TaskEvent)
      (history : state.history call = before ++ [.returned call 0])
      (once : ∀ rc, .returned call rc ∉ before)
      (resumed : before.count (.resumed call) = if tasks = [] then 0 else 1)
      (processed : ∀ index task, tasks[index]? = some task →
        before.count (.begun call index) = due task ∧
        before.count (.processed call index) = due task)
  | failed (ended : ∀ p, state.waits p ≠ some call)
      (history : state.history call = [.returned call (-1)])

/-- Sub threads and their tasks, threads and the calls they wait in. A thread that waits for no sub
thread is on the run list, or has just been switched to. -/
structure Sound (state : TaskFrame) : Prop where
  rests : state.frame.Rests
  child : ∀ {s args}, state.args s = some args →
    ∃ p, state.frame.parent s = some p ∧ state.waits p = some args.call
  parent : ∀ {s p}, state.frame.parent s = some p → ∃ args, state.args s = some args
  placed : ∀ {s args}, state.args s = some args →
    ∃ tasks, state.calls[args.call]? = some tasks ∧ tasks[args.index]? = some args.task
  distinct : ∀ {s t args other}, state.args s = some args → state.args t = some other →
    args.call = other.call → args.index = other.index → s = t
  known : ∀ {p call}, state.waits p = some call → call < state.calls.length
  single : ∀ {p q call}, state.waits p = some call → state.waits q = some call → p = q
  woken : ∀ {p call}, state.waits p = some call → (∀ s, state.frame.parent s ≠ some p) →
    p ∈ state.frame.runlist ∨ p = state.frame.active
  entered : ∀ {p call args}, state.waits p = some call → state.args p = some args →
    args.begun = true
  fresh : ∀ event ∈ state.log, event.call < state.calls.length
  phases : ∀ {call tasks}, state.calls[call]? = some tasks → state.Phase call tasks

/-- The thread that has been switched to has gone on. -/
structure Steady (state : TaskFrame) : Prop extends Sound state where
  free : state.waits state.frame.active = none
  begun : ∀ {args}, state.args state.frame.active = some args → args.begun = true

/-! ### Histories -/

theorem history_append {events : List TaskEvent} (log : after.log = state.log ++ events)
    (call : Nat) :
    after.history call = state.history call ++ events.filter (·.call == call) := by
  unfold history
  rw [log, filter_append]

/-- Nothing has happened in a call that has not been made. -/
theorem Sound.history_new (sound : state.Sound) : state.history state.calls.length = [] := by
  refine filter_eq_nil_iff.mpr fun event member => ?_
  rw [beq_iff_eq]
  exact (sound.fresh event member).ne

/-- The phase of a call depends on its history, its waits and its arguments only. -/
theorem Phase.of_same (phase : state.Phase call tasks)
    (history : after.history call = state.history call)
    (waits : ∀ p, after.waits p = some call ↔ state.waits p = some call)
    (args : ∀ s (args : TaskArgs), args.call = call →
      (after.args s = some args ↔ state.args s = some args)) : after.Phase call tasks := by
  cases phase with
  | waiting p waiting nonempty inside progress =>
    refine .waiting p ((waits p).mpr waiting) nonempty (history ▸ inside) fun index task member => ?_
    cases progress index task member with
    | running s args' has same place begun processed =>
      exact .running s args' ((args s args' same).mpr has) same place (history ▸ begun)
        (history ▸ processed)
    | done none begun processed =>
      refine .done (fun s args' has same => none s args' ((args s args' same).mp has) same)
        (history ▸ begun) (history ▸ processed)
  | joined ended before history' once resumed processed =>
    exact .joined (fun p => (waits p).not.mpr (ended p)) before (history.trans history') once resumed
      processed
  | failed ended history' =>
    exact .failed (fun p => (waits p).not.mpr (ended p)) (history.trans history')

theorem Phase.progress (phase : state.Phase call tasks) (waits : state.waits p = some call) :
    tasks ≠ [] ∧
    (.resumed call ∉ state.history call ∧ ∀ rc, .returned call rc ∉ state.history call) ∧
      ∀ index task, tasks[index]? = some task → state.Progress call index task := by
  cases phase with
  | waiting _ _ nonempty inside progress => exact ⟨nonempty, inside, progress⟩
  | joined ended | failed ended => exact absurd waits (ended p)

variable {event : Nat → Nat → TaskEvent} {frame : MtFrame} {subs : List Nat}

/-- A task has one event of a kind, in its own call. -/
theorem note_filter (kind : event = .begun ∨ event = .processed) :
    (args.note event).filter (·.call == call) =
      if args.call = call then args.note event else [] := by
  have of_call : (event args.call args.index).call = args.call := by
    rcases kind with rfl | rfl <;> rfl
  unfold TaskArgs.note
  split_ifs with some_ same same
  · rw [filter_singleton, of_call, same, beq_self_eq_true]
    rfl
  · rw [filter_singleton, of_call, beq_false_of_ne same]
    rfl
  · rfl
  · rfl

/-- What a task notes is in the history of its call. -/
theorem count_history_note (log : after.log = state.log ++ args.note event)
    (kind : event = .begun ∨ event = .processed) (other : TaskEvent) :
    (after.history args.call).count other =
      (state.history args.call).count other + (args.note event).count other := by
  rw [history_append log, note_filter kind, if_pos rfl, count_append]

theorem count_note (event : Nat → Nat → TaskEvent) :
    (args.note event).count (event args.call args.index) = due args.task := by
  unfold TaskArgs.note due
  split_ifs
  · exact count_singleton_self
  · rfl

theorem count_note_of_ne {other : TaskEvent} (ne : event args.call args.index ≠ other) :
    (args.note event).count other = 0 := by
  unfold TaskArgs.note
  split_ifs
  · rw [count_singleton, beq_false_of_ne ne]
    rfl
  · rfl

/-! ### The thread that is active -/

/-- It has no sub threads, and is not on the run list. -/
theorem childless_active (rests : frame.Rests) :
    (∀ s, frame.parent s ≠ some frame.active) ∧ frame.active ∉ frame.runlist := by
  obtain ⟨location, kept, ruling⟩ := MtFrame.InHand.kept rests
  have here : location frame.active = some .active ∨ location frame.active = some .daemon := by
    by_cases daemon : frame.active = frame.daemon
    · exact .inr (daemon ▸ ruling)
    · left
      rw [← kept.held, actives, if_neg daemon]
      exact mem_cons_self
  refine ⟨fun s child => ?_, fun listed => ?_⟩
  · rcases kept.families.waits s _ child with pends | owns
    · rw [pends] at here
      rcases here with ⟨⟨⟩⟩ | ⟨⟨⟩⟩
    · cases owns
  · rw [(kept.places .runList .runList rfl _).mp listed] at here
    rcases here with ⟨⟨⟩⟩ | ⟨⟨⟩⟩

section

variable (sound : state.Sound)

include sound

/-- The thread was waiting in a call. No sub thread of it is left, so every task is done. -/
theorem Sound.resume (waits : state.waits state.frame.active = some call) :
    Steady { state with
      waits := update state.waits state.frame.active none
      log := state.log ++ [.resumed call, .returned call 0] } := by
  obtain ⟨childless, -⟩ := childless_active sound.rests
  have ended (s : Nat) (args : TaskArgs) (has : state.args s = some args) : args.call ≠ call := by
    rintro rfl
    obtain ⟨p, child, waits'⟩ := sound.child has
    exact childless s (sound.single waits' waits ▸ child)
  refine { sound with
    child := fun {s _} has => ?_
    known := fun still => sound.known (update_none_iff.mp still).2
    single := fun still still' =>
      sound.single (update_none_iff.mp still).2 (update_none_iff.mp still').2
    woken := fun still => sound.woken (update_none_iff.mp still).2
    entered := fun still => sound.entered (update_none_iff.mp still).2
    fresh := ?_
    phases := fun {call' tasks} made => ?_
    free := update_self ..
    begun := sound.entered waits }
  · obtain ⟨p, child, waits'⟩ := sound.child has
    refine ⟨p, child, update_none_iff.mpr ⟨?_, waits'⟩⟩
    rintro rfl
    exact childless s child
  · have inside := sound.known waits
    simpa only [forall_mem_append, forall_mem_cons, not_mem_nil, IsEmpty.forall_iff, implies_true,
      and_true, TaskEvent.call, inside] using sound.fresh
  · have phase := sound.phases made
    have history := @history_append state { state with
      waits := update state.waits state.frame.active none
      log := state.log ++ [.resumed call, .returned call 0] } _ rfl call'
    by_cases same : call = call'
    · subst same
      obtain ⟨nonempty, ⟨unresumed, unreturned⟩, progress⟩ := phase.progress waits
      simp only [TaskEvent.call, beq_self_eq_true, filter_cons_of_pos]
        at history
      refine .joined (fun p still => ?_) (state.history call ++ [.resumed call])
        (history.trans (append_assoc _ [TaskEvent.resumed call] [.returned call 0]).symm)
        (fun rc member => ?_) ?_
        fun index task member => ?_
      · obtain ⟨other, still⟩ := update_none_iff.mp still
        exact other (sound.single still waits)
      · rcases mem_append.mp member with before | last
        · exact unreturned rc before
        · cases mem_singleton.mp last
      · rw [count_append, count_eq_zero.mpr unresumed, count_singleton_self, if_neg nonempty]
      · cases progress index task member with
        | running s args' has same => exact absurd same (ended s args' has)
        | done _ begun processed =>
          rw [count_append, count_append, begun, processed]
          exact ⟨rfl, rfl⟩
    · refine phase.of_same (history.trans ?_) (fun p => ?_) fun _ _ _ => .rfl
      · simp [TaskEvent.call, same]
      · refine update_none_iff.trans (and_iff_right_of_imp fun waits' => ?_)
        rintro rfl
        exact same (Option.some.inj (waits.symm.trans waits'))

/-- One thread goes on with its task: nothing changes for the other tasks. -/
theorem Sound.advance {t : Nat} (has : state.args t = some args)
    (kind : event = .begun ∨ event = .processed) (log : after.log = state.log ++ args.note event)
    (waits : after.waits = state.waits) (others : ∀ s, s ≠ t → after.args s = state.args s)
    (same : ∀ args', after.args t = some args' → args'.call = args.call ∧ args'.index = args.index)
    (own : after.Progress args.call args.index args.task) (made : state.calls[call]? = some tasks) :
    after.Phase call tasks := by
  have phase := sound.phases made
  by_cases its : args.call = call
  · subst its
    obtain ⟨p, -, waiting⟩ := sound.child has
    obtain ⟨nonempty, ⟨unresumed, unreturned⟩, progress⟩ := phase.progress waiting
    have silent (other : TaskEvent) (ne : event args.call args.index ≠ other) :
        (after.history args.call).count other = (state.history args.call).count other := by
      rw [count_history_note log kind, count_note_of_ne ne, Nat.add_zero]
    refine .waiting p (waits ▸ waiting) nonempty ⟨?_, fun rc => ?_⟩ fun index task member => ?_
    · rw [← count_eq_zero, silent _ (by rcases kind with rfl | rfl <;> rintro ⟨⟩)]
      exact count_eq_zero.mpr unresumed
    · rw [← count_eq_zero, silent _ (by rcases kind with rfl | rfl <;> rintro ⟨⟩)]
      exact count_eq_zero.mpr (unreturned rc)
    by_cases here : index = args.index
    · obtain ⟨tasks', made', member'⟩ := sound.placed has
      cases made.symm.trans made'
      rw [here] at member ⊢
      cases member.symm.trans member'
      exact own
    have apart : event args.call args.index ≠ .begun args.call index ∧
        event args.call args.index ≠ .processed args.call index := by
      constructor <;> intro equal <;> rcases kind with rfl | rfl <;> cases equal <;> exact here rfl
    cases progress index task member with
    | running s args' has' same' place begun processed =>
      have elsewhere : s ≠ t := by
        rintro rfl
        cases has.symm.trans has'
        exact here place.symm
      exact .running s args' ((others s elsewhere).trans has') same' place
        ((silent _ apart.1).trans begun) ((silent _ apart.2).trans processed)
    | done none begun processed =>
      refine .done (fun s args' has' same' place => ?_) ((silent _ apart.1).trans begun)
        ((silent _ apart.2).trans processed)
      by_cases it : s = t
      · subst it
        exact here (place.symm.trans (same args' has').2)
      · exact none s args' ((others s it).symm.trans has') same' place
  · have history : after.history call = state.history call := by
      rw [history_append log, note_filter kind, if_neg its, append_nil]
    refine phase.of_same history (fun p => by rw [waits]) fun s args' theirs => ?_
    by_cases it : s = t
    · subst it
      refine iff_of_false (fun has' => ?_) fun has' => ?_
      · exact its ((same args' has').1.symm.trans theirs)
      · cases has.symm.trans has'
        exact its theirs
    · rw [others s it]

section

variable (has : state.args s = some args)

include has

theorem Sound.call_lt : args.call < state.calls.length := by
  obtain ⟨p, -, waits⟩ := sound.child has
  exact sound.known waits

theorem Sound.note_fresh (kind : event = .begun ∨ event = .processed) :
    ∀ note ∈ state.log ++ args.note event, note.call < state.calls.length := by
  refine forall_mem_append.mpr ⟨sound.fresh, fun note member => ?_⟩
  unfold TaskArgs.note at member
  split_ifs at member
  · rw [mem_singleton.mp member]
    rcases kind with rfl | rfl <;> exact sound.call_lt has
  · cases member

/-- A task of a call that waits which a thread has. -/
theorem Sound.progress :
    (state.history args.call).count (.begun args.call args.index) =
        (if args.begun then due args.task else 0) ∧
      (state.history args.call).count (.processed args.call args.index) = 0 := by
  obtain ⟨p, -, waits⟩ := sound.child has
  obtain ⟨tasks, made, member⟩ := sound.placed has
  cases ((sound.phases made).progress waits).2.2 args.index args.task member with
  | running s' args' has' same place begun processed =>
    cases sound.distinct has has' same.symm place.symm
    cases has.symm.trans has'
    exact ⟨begun, processed⟩
  | done none => exact absurd rfl (none s args has rfl)

end

/-- A task that begins is noted once. -/
theorem Sound.begin (idle : state.waits state.frame.active = none)
    (has : state.args state.frame.active = some args) (new : args.begun = false) :
    Steady { state with
      args := update state.args state.frame.active (some { args with begun := true })
      log := state.log ++ args.note .begun } := by
  have origin {s : Nat} {new : TaskArgs}
      (has' : update state.args state.frame.active (some { args with begun := true }) s = some new) :
      ∃ old, state.args s = some old ∧ new.call = old.call ∧ new.index = old.index ∧
        new.task = old.task := by
    rcases update_some_iff.mp has' with ⟨rfl, rfl⟩ | ⟨-, had⟩
    · exact ⟨args, has, rfl, rfl, rfl⟩
    · exact ⟨new, had, rfl, rfl, rfl⟩
  refine { sound with
    child := fun has' => ?_
    parent := fun {s p} child => ?_
    placed := fun has' => ?_
    distinct := fun has' has'' same place => ?_
    entered := fun {p _ _} waits has' => ?_
    fresh := sound.note_fresh has (.inl rfl)
    phases := fun made => ?_
    free := idle
    begun := fun has' => ?_ }
  · obtain ⟨old, had, same, -⟩ := origin has'
    rw [same]
    exact sound.child had
  · obtain ⟨old, had⟩ := sound.parent child
    by_cases it : s = state.frame.active
    · subst it
      exact ⟨_, update_self ..⟩
    · exact ⟨old, (update_of_ne it ..).trans had⟩
  · obtain ⟨old, had, same, place, task⟩ := origin has'
    rw [same, place, task]
    exact sound.placed had
  · obtain ⟨old, had, same', place', -⟩ := origin has'
    obtain ⟨old', had', same'', place'', -⟩ := origin has''
    rw [same', same''] at same
    rw [place', place''] at place
    exact sound.distinct had had' same place
  · rcases update_some_iff.mp has' with ⟨rfl, -⟩ | ⟨-, had⟩
    · cases idle.symm.trans waits
    · exact sound.entered waits had
  · obtain ⟨begun, processed⟩ := sound.progress has
    refine sound.advance has (.inl rfl) rfl rfl (fun s ne => update_of_ne ne ..)
      (fun new has' => ?_) (.running state.frame.active _ (update_self ..) rfl rfl ?_ ?_) made
    · cases (update_self ..).symm.trans has'
      exact ⟨rfl, rfl⟩
    · refine (count_history_note rfl (.inl rfl) _).trans ?_
      rw [begun, new, count_note]
      exact Nat.zero_add _
    · refine (count_history_note rfl (.inl rfl) _).trans ?_
      rw [processed, count_note_of_ne (by rintro ⟨⟩)]
  · cases (update_self ..).symm.trans has'
    rfl

/-- The thread that runs next is about to begin its task, or returns from its call. -/
theorem Sound.goOn : state.goOn.Steady := by
  unfold TaskFrame.goOn
  dsimp only
  split
  next call waits => exact sound.resume waits
  next idle =>
    split
    next args has =>
      split_ifs with begun
      · refine { sound with free := idle, begun := fun has' => ?_ }
        cases has.symm.trans has'
        exact begun
      · exact sound.begin idle has (Bool.eq_false_iff.mpr begun)
    next none =>
      refine { sound with free := idle, begun := fun has => ?_ }
      rw [none] at has
      cases has

end

/-! ### Moves -/

/-- A thread that is on the run list, or would have to be active, is still there. -/
theorem Steady.runs (steady : state.Steady)
    (onward : ∀ t ∈ state.frame.runlist, t ∈ frame.runlist ∨ t = frame.active)
    (waits : state.waits p = some call) (alone : ∀ s, state.frame.parent s ≠ some p) :
    p ∈ frame.runlist ∨ p = frame.active := by
  rcases steady.woken waits alone with queued | active
  · exact onward p queued
  · rw [active, steady.free] at waits
    cases waits

/-- The frame makes a move that neither forks nor ends a thread. -/
theorem Steady.onward (steady : state.Steady) (rests : frame.Rests)
    (onward : MtFrame.Onward state.frame frame) : Sound { state with frame := frame } where
  rests := rests
  child has := by
    rw [onward.parent]
    exact steady.child has
  parent child := steady.parent (onward.parent ▸ child)
  placed := steady.placed
  distinct := steady.distinct
  known := steady.known
  single := steady.single
  woken waits alone := steady.runs onward.runs waits fun s child =>
    alone s ((congrFun onward.parent s).trans child)
  entered := steady.entered
  fresh := steady.fresh
  phases made := (steady.phases made).of_same rfl (fun _ => .rfl) fun _ _ _ => .rfl

/-- An entry of a longer list is an old one or the last. -/
theorem getElem?_concat_cases {α : Type} {list : List α} {last value : α} {position : Nat}
    (there : (list ++ [last])[position]? = some value) :
    list[position]? = some value ∨ position = list.length ∧ value = last := by
  rw [getElem?_append] at there
  split_ifs at there with old
  · exact .inl there
  · right
    obtain ⟨zero, same⟩ := List.getElem?_eq_some_iff.mp there
    rw [length_singleton] at zero
    rw [getElem_singleton] at same
    exact ⟨by omega, same.symm⟩

/-- A call that returns at once leaves the other calls alone. -/
theorem Sound.callReturns (sound : state.Sound) (tasks : List (Option Nat)) {rc : Int}
    (phase : ∀ after : TaskFrame, (∀ p, after.waits p ≠ some state.calls.length) →
      after.history state.calls.length = [.returned state.calls.length rc] →
      after.Phase state.calls.length tasks) :
    Sound { state with
      calls := state.calls ++ [tasks]
      log := state.log ++ [.returned state.calls.length rc] } := by
  have longer : state.calls.length < (state.calls ++ [tasks]).length := by
    rw [length_append]
    exact Nat.lt_succ_self _
  have history (call : Nat) := @history_append state { state with
    calls := state.calls ++ [tasks]
    log := state.log ++ [.returned state.calls.length rc] } _ rfl call
  refine { sound with placed := ?_, known := ?_, fresh := ?_, phases := ?_ }
  · intro s args has
    obtain ⟨tasks', made, member⟩ := sound.placed has
    refine ⟨tasks', ?_, member⟩
    rw [getElem?_append_left (sound.call_lt has), made]
  · exact fun waits => (sound.known waits).trans longer
  · refine forall_mem_append.mpr
      ⟨fun event member => (sound.fresh event member).trans longer, fun event member => ?_⟩
    rw [mem_singleton.mp member]
    exact longer
  · intro call tasks' made
    rcases getElem?_concat_cases made with old | ⟨rfl, rfl⟩
    · have ne : state.calls.length ≠ call :=
        (List.getElem?_eq_some_iff.mp old).1.ne'
      refine (sound.phases old).of_same ((history call).trans ?_) (fun _ => .rfl) fun _ _ _ => .rfl
      simp [TaskEvent.call, ne]
    · refine phase _ (fun p waits => (sound.known waits).ne rfl) ((history _).trans ?_)
      simp [TaskEvent.call, sound.history_new]

theorem give_of_not_mem (other : s ∉ subs) : state.give call tasks subs s = state.args s := by
  unfold give
  rw [idxOf?_eq_none_iff.mpr other]

theorem give_getElem (once : subs.Nodup) (index : Nat) (inside : index < subs.length) :
    state.give call tasks subs subs[index] = some ⟨call, index, tasks[index]?.join, false⟩ := by
  unfold give
  have found : subs.idxOf? subs[index] = some index := by
    refine idxOf?_eq_some_iff.mpr ⟨inside, rfl, fun earlier before same => ?_⟩
    exact before.ne (once.getElem_inj_iff.mp same)
  rw [found]

theorem give_cases (once : subs.Nodup) (has : state.give call tasks subs s = some args) :
    (∃ (index : Nat) (inside : index < subs.length), subs[index] = s ∧
      args = ⟨call, index, tasks[index]?.join, false⟩) ∨ s ∉ subs ∧ state.args s = some args := by
  by_cases member : s ∈ subs
  · obtain ⟨index, inside, rfl⟩ := getElem_of_mem member
    rw [give_getElem once index inside] at has
    exact .inl ⟨index, inside, rfl, (Option.some.inj has).symm⟩
  · rw [give_of_not_mem member] at has
    exact .inr ⟨member, has⟩

/-- A thread that waits is active, on the run list or on the pend list. -/
theorem Sound.busy (sound : state.Sound) (waits : state.waits p = some call) :
    p ∈ state.frame.runlist ∨ p = state.frame.active ∨ p ∈ state.frame.pendList := by
  by_cases alone : ∀ s, state.frame.parent s ≠ some p
  · exact (sound.woken waits alone).imp_right .inl
  · obtain ⟨s, child⟩ := not_forall_not.mp alone
    obtain ⟨location, kept, -⟩ := MtFrame.InHand.kept sound.rests
    rcases kept.families.waits s p child with pends | owns
    · exact .inr (.inr ((kept.places .pendList .pendList rfl p).mpr pends))
    · cases owns

/-- The active thread has made a call, and waits for the sub threads. -/
def forked (state : TaskFrame) (frame : MtFrame) (tasks : List (Option Nat)) (subs : List Nat) :
    TaskFrame :=
  { state with
    frame
    args := state.give state.calls.length tasks subs
    waits := update state.waits state.frame.active (some state.calls.length)
    calls := state.calls ++ [tasks] }

section

variable (steady : state.Steady)

include steady

/-- Nothing changes for the calls that have been made before. -/
theorem Steady.forked_phase_old {made : List (Option Nat)} (once : subs.Nodup)
    (new : ∀ s ∈ subs, state.frame.parent s = none) (other : state.calls.length ≠ call)
    (phase : state.Phase call made) : (state.forked frame tasks subs).Phase call made := by
  refine phase.of_same rfl (fun p => ?_) fun s args theirs => ?_ <;> dsimp only [forked]
  · rw [update_some_iff, or_iff_right fun both => other both.2]
    refine and_iff_right_of_imp ?_
    rintro waits rfl
    cases steady.free.symm.trans waits
  · by_cases member : s ∈ subs
    · obtain ⟨index, within, rfl⟩ := getElem_of_mem member
      rw [give_getElem once index within]
      refine iff_of_false (fun same => ?_) fun has => ?_
      · cases same
        exact other theirs
      · obtain ⟨p, child, -⟩ := steady.child has
        rw [new _ member] at child
        cases child
    · rw [give_of_not_mem member]

/-- Every task of the call is with its sub thread, and has not been begun. -/
theorem Steady.forked_phase_new (once : subs.Nodup) (nonempty : tasks ≠ [])
    (length : subs.length = tasks.length) :
    (state.forked frame tasks subs).Phase state.calls.length tasks := by
  have empty := steady.history_new
  refine .waiting state.frame.active (update_self ..) nonempty ?_ fun index task member => ?_
  · change _ ∉ state.history _ ∧ ∀ rc, _ ∉ state.history _
    rw [empty]
    exact ⟨not_mem_nil, fun _ => not_mem_nil⟩
  · have within : index < subs.length := length ▸ (List.getElem?_eq_some_iff.mp member).1
    exact .running subs[index] _ (give_getElem once index within) rfl rfl
      (congrArg (count _) empty) (congrArg (count _) empty)

/-- A call that made all its threads waits for them. -/
theorem Steady.fork (rests : frame.Rests) (nonempty : tasks ≠ [])
    (length : subs.length = tasks.length) (once : subs.Nodup) (apart : state.frame.active ∉ subs)
    (new : ∀ s ∈ subs, state.frame.parent s = none ∧ s ∉ state.frame.runlist ∧
      s ∉ state.frame.pendList)
    (parent : frame.parent =
      fun s => if s ∈ subs then some state.frame.active else state.frame.parent s)
    (runs : ∀ t ∈ state.frame.runlist, t ∈ frame.runlist ∨ t = frame.active) :
    (state.forked frame tasks subs).Sound := by
  change (state.forked frame tasks subs).frame.parent = _ at parent
  obtain ⟨childless, -⟩ := childless_active steady.rests
  have inside : state.calls.length < (state.calls ++ [tasks]).length := by
    rw [length_append]
    exact Nat.lt_succ_self _
  refine ⟨rests, ?_, ?_, ?_, ?_, ?_, ?_, ?_, ?_,
    fun event member => (steady.fresh event member).trans inside, ?_⟩
  · intro s args has
    rw [parent]
    rcases give_cases once has with ⟨index, within, rfl, rfl⟩ | ⟨old, had⟩
    · exact ⟨_, if_pos (getElem_mem within), update_self ..⟩
    · obtain ⟨p, child, waiting⟩ := steady.child had
      refine ⟨p, (if_neg old).trans child, (update_of_ne ?_ ..).trans waiting⟩
      rintro rfl
      exact childless s child
  · intro s p child
    rw [parent] at child
    by_cases member : s ∈ subs
    · obtain ⟨index, within, rfl⟩ := getElem_of_mem member
      exact ⟨_, give_getElem once index within⟩
    · obtain ⟨args, has⟩ := steady.parent ((if_neg member).symm.trans child)
      exact ⟨args, (give_of_not_mem member).trans has⟩
  · intro s args has
    rcases give_cases once has with ⟨index, within, rfl, rfl⟩ | ⟨-, had⟩
    · refine ⟨tasks, getElem?_concat_length .., ?_⟩
      rw [getElem?_eq_getElem (length ▸ within)]
      rfl
    · obtain ⟨tasks', made, member⟩ := steady.placed had
      exact ⟨tasks', (getElem?_append_left (steady.call_lt had)).trans made, member⟩
  · intro s t args other has has' same place
    rcases give_cases once has with ⟨index, within, rfl, rfl⟩ | ⟨-, had⟩ <;>
      rcases give_cases once has' with ⟨index', within', rfl, rfl⟩ | ⟨-, had'⟩
    · dsimp only at place
      subst place
      rfl
    · exact absurd same (steady.call_lt had').ne'
    · exact absurd same (steady.call_lt had).ne
    · exact steady.distinct had had' same place
  · intro p call waiting
    rcases update_some_iff.mp waiting with ⟨-, rfl⟩ | ⟨-, old⟩
    · exact inside
    · exact (steady.known old).trans inside
  · intro p q call waiting waiting'
    rcases update_some_iff.mp waiting with ⟨rfl, rfl⟩ | ⟨-, old⟩ <;>
      rcases update_some_iff.mp waiting' with ⟨rfl, same⟩ | ⟨-, old'⟩
    · rfl
    · exact absurd rfl (steady.known old').ne
    · exact absurd same (steady.known old).ne'
    · exact steady.single old old'
  · intro p call waiting alone
    rw [parent] at alone
    rcases update_some_iff.mp waiting with ⟨rfl, -⟩ | ⟨-, old⟩
    · have first : 0 < subs.length := length ▸ length_pos_of_ne_nil nonempty
      exact absurd (if_pos (getElem_mem first)) (alone subs[0])
    · refine steady.runs runs old fun s child => alone s ?_
      refine (if_neg fun member => ?_).trans child
      rw [(new s member).1] at child
      cases child
  · intro p call args waiting has
    rcases give_cases once has with ⟨index, within, rfl, rfl⟩ | ⟨-, had⟩
    · have sub := getElem_mem within
      rcases update_some_iff.mp waiting with ⟨it, -⟩ | ⟨other, old⟩
      · exact absurd (it ▸ sub) apart
      · obtain ⟨-, unqueued, unpended⟩ := new _ sub
        rcases steady.busy old with queued | active | pends
        · exact absurd queued unqueued
        · exact absurd active other
        · exact absurd pends unpended
    · rcases update_some_iff.mp waiting with ⟨rfl, -⟩ | ⟨-, old⟩
      · exact steady.begun had
      · exact steady.entered old had
  · intro call tasks' made
    rcases getElem?_concat_cases made with old | ⟨rfl, rfl⟩
    · exact steady.forked_phase_old once (fun s member => (new s member).1)
        (List.getElem?_eq_some_iff.mp old).1.ne' (steady.phases old)
    · exact steady.forked_phase_new once nonempty length

/-- The active thread ends, and has done its task. -/
theorem Steady.leave (rests : frame.Rests)
    (parent : frame.parent = update state.frame.parent state.frame.active none)
    (runs : ∀ t ∈ state.frame.runlist, t ∈ frame.runlist ∨ t = frame.active)
    (last : ∀ p, state.frame.parent state.frame.active = some p →
      (∀ s, s ≠ state.frame.active → state.frame.parent s ≠ some p) →
      p ∈ frame.runlist ∨ p = frame.active) (has : state.args state.frame.active = some args)
    (result : Nat → Int) :
    Sound { state with
      frame := frame
      args := update state.args state.frame.active none
      result := result
      log := state.log ++ args.note .processed } := by
  have origin {s : Nat} {old : TaskArgs}
      (has' : update state.args state.frame.active none s = some old) := update_none_iff.mp has'
  refine { steady with
    rests := rests
    child := fun has' => ?_
    parent := fun {s p} child => ?_
    placed := fun has' => steady.placed (origin has').2
    distinct := fun has' has'' => steady.distinct (origin has').2 (origin has'').2
    woken := fun {p _} waiting alone => ?_
    entered := fun waiting has' => steady.entered waiting (origin has').2
    fresh := steady.note_fresh has (.inr rfl)
    phases := fun made => ?_ }
  · obtain ⟨ne, had⟩ := origin has'
    rw [parent, update_of_ne ne]
    exact steady.child had
  · dsimp only at child ⊢
    rw [parent, update_none_iff] at child
    rw [update_of_ne child.1]
    exact steady.parent child.2
  · dsimp only at alone
    rw [parent] at alone
    have elsewhere (s : Nat) (ne : s ≠ state.frame.active) : state.frame.parent s ≠ some p := by
      rw [← update_of_ne ne none state.frame.parent]
      exact alone s
    by_cases child : state.frame.parent state.frame.active = some p
    · exact last p child elsewhere
    · refine steady.runs runs waiting fun s child' => ?_
      by_cases it : s = state.frame.active
      · exact child (it ▸ child')
      · exact elsewhere s it child'
  · obtain ⟨begun, processed⟩ := steady.progress has
    rw [steady.begun has, if_pos rfl] at begun
    refine steady.advance has (.inr rfl) rfl rfl (fun s ne => update_of_ne ne ..)
      (fun old has' => ?_) (.done (fun s old has' same place => ?_) ?_ ?_) made
    · exact absurd rfl (origin has').1
    · obtain ⟨ne, had⟩ := origin has'
      exact ne (steady.distinct had has same place)
    · refine (count_history_note rfl (.inr rfl) _).trans ?_
      rw [begun, count_note_of_ne (by rintro ⟨⟩), Nat.add_zero]
    · refine (count_history_note rfl (.inr rfl) _).trans ?_
      rw [processed, count_note, Nat.zero_add]

/-- `mt_exec_all_task` either waits for its tasks or returns at once. -/
theorem Steady.execAllTask (other : state.frame.active ≠ state.frame.daemon)
    (tasks : List (Option Nat × Bool)) : (state.execAllTask tasks).Steady := by
  unfold TaskFrame.execAllTask
  dsimp only
  split_ifs with none
  · have empty : tasks = [] := length_eq_zero_iff.mp none
    subst empty
    refine ⟨steady.callReturns [] fun after ended history => ?_, steady.free, steady.begun⟩
    exact .joined ended [] history (fun _ => not_mem_nil) rfl fun index task member => by
      cases member
  have some_ : (tasks.map snd).length ≠ 0 := by rwa [length_map]
  obtain ⟨rests, -⟩ := steady.rests.execAllTask other (tasks.map snd)
  split
  next _ subs made =>
    obtain ⟨length, once, apart, new, parent, runs⟩ :=
      execAllTask_forks steady.rests other some_ (by rw [made])
    rw [made] at length once apart new parent
    refine (steady.fork rests ?_ ?_ once apart new parent runs).goOn
    · exact fun empty => none (by rw [map_eq_nil_iff.mp empty]; rfl)
    · rw [length, length_map, length_map]
  next _ subs short =>
    obtain ⟨active, onward, -, -⟩ :=
      execAllTask_fails steady.rests other some_ (by rw [short])
    have moved := steady.onward rests onward
    refine ⟨moved.callReturns _ fun after ended history => .failed ended history, ?_, ?_⟩
    · dsimp only
      rw [active]
      exact steady.free
    · dsimp only
      rw [active]
      exact steady.begun

/-- A task that ends wakes the caller if it was the last. -/
theorem Steady.finish (other : state.frame.active ≠ state.frame.daemon) (rc : Int) :
    (state.finish rc).Steady := by
  obtain ⟨rests, -⟩ := steady.rests.finish other
  obtain ⟨parent, runs, last⟩ := finish_family steady.rests other
  unfold TaskFrame.finish
  dsimp only
  split
  next none =>
    refine (steady.onward rests ⟨parent.trans ?_, runs⟩).goOn
    refine update_eq_self_iff.mpr (Option.eq_none_iff_forall_ne_some.mpr fun p child => ?_).symm
    obtain ⟨args, has⟩ := steady.parent child
    rw [none] at has
    cases has
  next args has => exact (steady.leave rests parent runs last has _).goOn

/-- Every move keeps the calls in step with their threads. -/
theorem Steady.step (move : TaskMove) : (state.step move).Steady := by
  unfold TaskFrame.step
  cases move with
  | execAllTask tasks =>
    split_ifs with ruling
    · exact steady
    · exact steady.execAllTask ruling tasks
  | finish rc =>
    split_ifs with ruling
    · exact steady
    · exact steady.finish ruling rc
  | plain move =>
    have moved := steady.onward (steady.rests.step move) (step_onward steady.rests move.2)
    dsimp only
    split_ifs with same
    · refine ⟨moved, ?_, ?_⟩
      · dsimp only
        rw [same]
        exact steady.free
      · dsimp only
        rw [same]
        exact steady.begun
    · exact moved.goOn

theorem Steady.run (moves : List TaskMove) : (state.run moves).Steady := by
  induction moves generalizing state with
  | nil => exact steady
  | cons move rest ih => exact ih (steady.step move)

end

/-! ### Every run -/

theorem update_orphan {parent : Nat → Option Nat} (orphans : ∀ s, parent s = none) (t s : Nat) :
    update parent t none s = none := by
  rw [update_apply, orphans, ite_self]

/-- A thread from the pool has no parent. -/
theorem allocThread_orphans (orphans : ∀ s, frame.parent s = none) (memory : Bool) (s : Nat) :
    (frame.allocThread memory).1.parent s = none := by
  unfold allocThread
  split
  · exact orphans s
  · dsimp only
    split_ifs
    · exact orphans s
    · exact orphans s
    · exact update_orphan orphans frame.next s
    · exact update_orphan orphans frame.next s

/-- After `InitFrame`, no thread has a parent. -/
theorem initFrame_orphans {defaultThreadNum made clock : Nat} {maxNum : Int}
    (started : initFrame defaultThreadNum made maxNum clock = some frame) (s : Nat) :
    frame.parent s = none := by
  unfold initFrame at started
  dsimp only at started
  split_ifs at started
  split at started
  · cases started
  next frame' thread taken =>
    cases started
    refine update_orphan (fun s => ?_) _ s
    have frame_eq : frame' = _ := (congrArg fst taken).symm
    rw [frame_eq]
    exact allocThread_orphans (fun _ => rfl) true s

/-- With no call made yet, the frame is steady. -/
theorem new_steady (rests : frame.Rests) (orphans : ∀ s, frame.parent s = none) :
    (new frame).Steady where
  rests := rests
  child := by rintro _ _ ⟨⟩
  parent child := by
    rw [new, orphans] at child
    cases child
  placed := by rintro _ _ ⟨⟩
  distinct := by rintro _ _ _ _ ⟨⟩
  known := by rintro _ _ ⟨⟩
  single := by rintro _ _ _ ⟨⟩
  woken := by rintro _ _ ⟨⟩
  entered := by rintro _ _ _ ⟨⟩
  fresh := by rintro _ ⟨⟩
  phases := by rintro _ _ ⟨⟩
  free := rfl
  begun := by rintro _ ⟨⟩

/-- What a call of `mt_exec_all_task` does, in a state that a frame comes to. -/
structure ForkJoin (state : TaskFrame) : Prop where
  /-- It returns 0 as the last thing, after each task has been processed once and its thread has
  been resumed once. -/
  joined : ∀ call tasks, state.calls[call]? = some tasks → .returned call 0 ∈ state.log →
    ∃ before, state.history call = before ++ [.returned call 0] ∧
      (∀ index task, tasks[index]? = some (some task) →
        before.count (.begun call index) = 1 ∧ before.count (.processed call index) = 1) ∧
      before.count (.resumed call) = if tasks = [] then 0 else 1
  /-- Before that its thread waits, and is on the run list when its sub threads have ended. -/
  waiting : ∀ call tasks, state.calls[call]? = some tasks →
    (∀ rc, .returned call rc ∉ state.log) → ∃ p, state.waits p = some call ∧
      .resumed call ∉ state.log ∧ (state.frame.subList p = [] → p ∈ state.frame.runlist)
  /-- If it returns something else that is negative, and nothing else ever happens in it. -/
  failed : ∀ call rc, .returned call rc ∈ state.log → rc ≠ 0 →
    rc < 0 ∧ state.history call = [.returned call rc]
  /-- This is so if there is no thread for a task. The threads it has made are with the pool, all of
  them if the pool is to have so many. -/
  short : ∀ tasks, tasks ≠ [] → state.frame.active ≠ state.frame.daemon →
    (state.frame.createSubs (tasks.map snd) []).2.2 = false →
    (state.execAllTask tasks).log = state.log ++ [.returned state.calls.length (-1)] ∧
    (∀ s ∈ (state.frame.createSubs (tasks.map snd) []).2.1,
      (state.execAllTask tasks).frame.Returned s) ∧
    ((state.frame.createSubs (tasks.map snd) []).2.1.length ≤
      (state.frame.createSubs (tasks.map snd) []).1.defaultThreadNum →
      (state.execAllTask tasks).frame.freelist =
        (state.frame.createSubs (tasks.map snd) []).2.1)

theorem mem_history (event : TaskEvent) :
    event ∈ state.history event.call ↔ event ∈ state.log := by
  unfold history
  rw [mem_filter, beq_self_eq_true, and_iff_left rfl]

/-- In a steady frame, calls wait for exactly their tasks. -/
theorem Steady.forkJoin (steady : state.Steady) : state.ForkJoin where
  joined call tasks made member := by
    have inside := (mem_history (.returned call 0)).mpr member
    cases steady.phases made with
    | waiting _ _ _ unreturned => exact absurd inside (unreturned.2 0)
    | joined _ before history _ resumed processed =>
      exact ⟨before, history, fun index task there => processed index (some task) there, resumed⟩
    | failed _ history =>
      rw [TaskEvent.call, history] at inside
      cases mem_singleton.mp inside
  waiting call tasks made unreturned := by
    have outside (rc : Int) := (mem_history (.returned call rc)).not.mpr (unreturned rc)
    cases steady.phases made with
    | waiting p waits _ inside =>
      refine ⟨p, waits, (mem_history (.resumed call)).not.mp inside.1, fun alone => ?_⟩
      obtain ⟨location, kept, -⟩ := MtFrame.InHand.kept steady.rests
      have childless (s : Nat) (child : state.frame.parent s = some p) : False := by
        rw [← kept.families.sub, alone] at child
        cases child
      rcases steady.woken waits childless with queued | active
      · exact queued
      · rw [active, steady.free] at waits
        cases waits
    | joined _ before history =>
      refine absurd ?_ (outside 0)
      exact history ▸ mem_append_right before mem_cons_self
    | failed _ history =>
      refine absurd ?_ (outside (-1))
      exact history ▸ mem_cons_self
  failed call rc member bad := by
    have inside := (mem_history (.returned call rc)).mpr member
    rw [TaskEvent.call] at inside
    have made := getElem?_eq_getElem (steady.fresh _ member)
    cases steady.phases made with
    | waiting _ _ _ unreturned => exact absurd inside (unreturned.2 rc)
    | joined _ before history once =>
      rw [TaskEvent.call] at history once
      rw [history] at inside
      rcases mem_append.mp inside with early | last
      · exact absurd early (once rc)
      · cases mem_singleton.mp last
        exact absurd rfl bad
    | failed _ history =>
      rw [TaskEvent.call] at history
      rw [history] at inside
      cases mem_singleton.mp inside
      exact ⟨by decide, history⟩
  short tasks nonempty other short := by
    have some_ : tasks.length ≠ 0 := fun zero => nonempty (length_eq_zero_iff.mp zero)
    obtain ⟨-, -, returned, kept⟩ := execAllTask_fails steady.rests other
      (by rwa [length_map]) short
    have moved : state.execAllTask tasks = { state with
        frame := state.frame.execAllTask (tasks.map snd)
        calls := state.calls ++ [tasks.map fst]
        log := state.log ++ [.returned state.calls.length (-1)] } := by
      unfold TaskFrame.execAllTask
      rw [if_neg some_]
      generalize state.frame.createSubs (tasks.map snd) [] = result at short
      obtain ⟨frame, subs, _ | _⟩ := result
      · rfl
      · cases short
    rw [moved]
    exact ⟨rfl, returned, kept⟩

/-- However threads take turns and whatever they call, every call that they have made is joined,
waits, or has failed and has left nothing, if the sleep heap has room for the threads that were
made: a sub-thread that sleeps and finds none is in no list, and its parent waits for ever. -/
theorem forkJoin_of_run {defaultThreadNum made clock : Nat} {maxNum : Int} {frame : MtFrame}
    (started : initFrame defaultThreadNum made maxNum clock = some frame)
    (room : made < frame.sleeplist.max) (moves : List TaskMove) :
    ((new frame).run moves).ForkJoin := by
  have rests : frame.Rests := initFrame_rests_of_room started
    (initFrame_sleeplist started ▸ room)
  exact ((new_steady rests (initFrame_orphans started)).run moves).forkJoin

/-- A task makes a call of its own while another one sleeps. -/
def nestedCalls : List TaskMove :=
  [.execAllTask [(some 10, true), (some 11, true)], .execAllTask [(some 20, true)],
    .plain ⟨.sleep 5, rfl⟩, .finish 0, .finish 0, .plain ⟨.setLastClock 100, rfl⟩,
    .plain ⟨.wakeupTimeout, rfl⟩, .plain ⟨.switchContext, rfl⟩, .finish 0]

theorem forkJoin_nestedCalls :
    ∃ frame, initFrame 5 5 8 7 = some frame ∧
      ((new frame).run nestedCalls).log = [.begun 0 0, .begun 0 1, .begun 1 0, .processed 1 0,
        .resumed 1, .returned 1 0, .processed 0 0, .processed 0 1, .resumed 0, .returned 0 0] ∧
      ((new frame).run nestedCalls).ForkJoin :=
  ⟨_, rfl, by decide +kernel,
    forkJoin_of_run (rfl : initFrame 5 5 8 7 = some _) (by decide +kernel) nestedCalls⟩

/-- The threads of a call that fails are in the pool. -/
def BackInPool (state : TaskFrame) (tasks : List (Option Nat × Bool)) : Prop :=
  (state.frame.createSubs (tasks.map snd) []).2.2 = false →
    ∀ s ∈ (state.frame.createSubs (tasks.map snd) []).2.1,
      s ∈ (state.step (.execAllTask tasks)).frame.freelist

/-- A pool that is to have two threads deletes the first of three that come back. -/
theorem not_backInPool :
    ∃ frame, initFrame 2 2 4 7 = some frame ∧ ¬ (new frame).BackInPool
      [(some 10, true), (some 11, true), (some 12, true), (some 13, true)] := by
  refine ⟨_, rfl, fun back => ?_⟩
  have first := back (by decide +kernel) 1 (by decide +kernel)
  exact absurd first (by decide +kernel)

end FStack.Micro.TaskFrame
