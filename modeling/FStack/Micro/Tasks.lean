import FStack.Micro.Scheduling

/-!
# Tasks

`mt_exec_all_task` makes a sub thread for each task of a list, puts them all on the run list, and
pends until the last of them has ended. A task may do the same for a list of its own. The frame says
which thread runs; here is what the threads run: which task of which call, where a thread is inside
a call, and what has happened in each call so far.
-/

namespace FStack.Micro

open Function

/-- What has happened: `Process` of a task has been called or has returned, `Wait` has returned in
the thread that made a call, or the call has returned. -/
inductive TaskEvent
  | begun (call index : Nat)
  | processed (call index : Nat)
  | resumed (call : Nat)
  | returned (call : Nat) (rc : Int)
  deriving DecidableEq, Repr

def TaskEvent.call : TaskEvent → Nat
  | .begun call _ | .processed call _ | .resumed call | .returned call _ => call

/-- The argument of `mt_task_process` in a sub thread, with its place in the list of a call; a null
pointer is `none`. The thread has begun once it has been switched to. -/
structure TaskArgs where
  call : Nat
  index : Nat
  task : Option Nat
  begun : Bool
  deriving DecidableEq, Repr

/-- `mt_task_process` does nothing with a null pointer. -/
def TaskArgs.note (args : TaskArgs) (event : Nat → Nat → TaskEvent) : List TaskEvent :=
  if args.task.isSome then [event args.call args.index] else []

/-- The moves that neither fork nor end a thread. -/
def MtFrame.Move.plain : MtFrame.Move → Bool
  | .execAllTask _ | .finish => false
  | _ => true

/-- What the active thread or the daemon does. `mt_exec_all_task` has a list of tasks; with each
goes whether there is memory for a new thread. The function of a thread returns, with the result of
`Process` if it is a task. -/
inductive TaskMove
  | execAllTask (tasks : List (Option Nat × Bool))
  | finish (rc : Int)
  | plain (move : { move : MtFrame.Move // move.plain = true })

/-- The frame; the task of each sub thread; the call that a thread is waiting in; the lists of the
calls that have been made; the results of the tasks; what has happened. -/
structure TaskFrame where
  frame : MtFrame
  args : Nat → Option TaskArgs
  waits : Nat → Option Nat
  calls : List (List (Option Nat))
  result : Nat → Int
  log : List TaskEvent

namespace TaskFrame

/-- No call has been made. -/
def new (frame : MtFrame) : TaskFrame := ⟨frame, fun _ => none, fun _ => none, [], fun _ => 0, []⟩

variable (state : TaskFrame)

/-- What has happened in a call. -/
def history (call : Nat) : List TaskEvent := state.log.filter (·.call == call)

/-- A thread has been switched to. It goes on in the call that it is waiting in, which returns, or
with its task, which begins the first time. -/
def goOn : TaskFrame :=
  let thread := state.frame.active
  match state.waits thread with
  | some call =>
    { state with
      waits := update state.waits thread none
      log := state.log ++ [.resumed call, .returned call 0] }
  | none =>
    match state.args thread with
    | some args =>
      if args.begun then state
      else { state with
        args := update state.args thread (some { args with begun := true })
        log := state.log ++ args.note .begun }
    | none => state

/-- The sub threads have their tasks. -/
def give (call : Nat) (tasks : List (Option Nat)) (subs : List Nat) : Nat → Option TaskArgs :=
  fun thread =>
    match subs.idxOf? thread with
    | some index => some ⟨call, index, tasks[index]?.join, false⟩
    | none => state.args thread

/-- `mt_exec_all_task` of the active thread. -/
def execAllTask (tasks : List (Option Nat × Bool)) : TaskFrame :=
  let call := state.calls.length
  let list := tasks.map Prod.fst
  let memory := tasks.map Prod.snd
  let calls := state.calls ++ [list]
  let frame := state.frame.execAllTask memory
  if tasks.length = 0 then
    { state with calls := calls, log := state.log ++ [.returned call 0] }
  else
    match state.frame.createSubs memory [] with
    | (_, subs, true) =>
      goOn { state with
        frame := frame
        args := state.give call list subs
        waits := update state.waits state.frame.active (some call)
        calls := calls }
    | (_, _, false) =>
      { state with frame := frame, calls := calls, log := state.log ++ [.returned call (-1)] }

/-- The function of the active thread has returned; `mt_task_process` sets the result. -/
def finish (rc : Int) : TaskFrame :=
  let thread := state.frame.active
  let frame := state.frame.finish
  match state.args thread with
  | none => goOn { state with frame := frame }
  | some args =>
    goOn { state with
      frame := frame
      args := update state.args thread none
      result := match args.task with
        | some task => update state.result task rc
        | none => state.result
      log := state.log ++ args.note .processed }

def step : TaskMove → TaskFrame
  | .execAllTask tasks =>
    if state.frame.active = state.frame.daemon then state else state.execAllTask tasks
  | .finish rc => if state.frame.active = state.frame.daemon then state else state.finish rc
  | .plain move =>
    let frame := state.frame.step move
    if frame.active = state.frame.active then { state with frame := frame }
    else goOn { state with frame := frame }

def run (moves : List TaskMove) : TaskFrame := moves.foldl step state

end TaskFrame

end FStack.Micro
