import FStack.Micro.Waiting

/-!
# The time limit of a call

`read`, `write` and their siblings test the clock against the time at which they were called, but
every `KqueueSchedule` waits for the whole time-out from its own beginning. So a call that has
been notified, and must wait again, waits beyond its limit.

A thread that waits is released as soon as the clock reaches its wake-up time.
-/

namespace FStack.Micro

open Steps

/-- Where a call is: in its loop, in the scheduler up to a wake-up time, or back. -/
inductive CallPhase where
  | running (call : Call)
  | waiting (call : Call) (wakeup : Nat)
  | returned (value : Int)
deriving DecidableEq, Repr

/-- A call, and the clock of the frame. -/
structure TimedCall where
  start : Nat
  timeout : Nat
  clock : Nat
  phase : CallPhase
deriving DecidableEq, Repr

/-- The call goes on in its loop, with the answers of its system call and of `KqueueAdd`; the
clock moves on; or the thread is released by an event. -/
inductive TimedStep where
  | run (sys : Sys) (added : Bool)
  | tick (ms : Nat)
  | notify (sys : Sys)
deriving DecidableEq, Repr

namespace TimedCall

variable {timed : TimedCall} {next : TimedStep}

/-- A call at its beginning. -/
def begin (kind : CallKind) (fd : Int) (nbyte timeout clock : Nat) : TimedCall :=
  ⟨clock, timeout, clock, .running ⟨kind, fd, nbyte, 0, none⟩⟩

/-- `(int)(now - start) > timeout`. -/
def late (timed : TimedCall) : Bool :=
  decide ((BitVec.ofNat 32 (timed.clock - timed.start)).toInt > timed.timeout)

def step (timed : TimedCall) : TimedStep → TimedCall
  | .run sys added => match timed.phase with
      | .running call => match call.head timed.late sys with
          | .ret value => { timed with phase := .returned value }
          | .again call => { timed with phase := .running call }
          | .wait call =>
            if added then { timed with phase := .waiting call (timed.clock + timed.timeout) }
            else { timed with phase := .returned call.kind.unscheduled }
      | _ => timed
  | .tick ms =>
    let clock := timed.clock + ms
    match timed.phase with
    | .waiting call wakeup =>
      -- the time is over, and no event was received
      if wakeup ≤ clock then { timed with clock, phase := .returned call.kind.unscheduled }
      else { timed with clock }
    | _ => { timed with clock }
  | .notify sys => match timed.phase with
      | .waiting call _ => match call.tail sys with
          | .ret value => { timed with phase := .returned value }
          | .again call | .wait call => { timed with phase := .running call }
      | _ => timed

/-- The call waits although its time is over. -/
def Overdue (timed : TimedCall) : Prop :=
  timed.start + timed.timeout < timed.clock ∧ ∃ call wakeup, timed.phase = .waiting call wakeup

/-- A wait begins at the time of the call. -/
def Prompt (timed : TimedCall) : TimedStep → Prop
  | .run sys _ => match timed.phase with
      | .running call => match call.head timed.late sys with
          | .wait _ => timed.clock = timed.start
          | _ => True
      | _ => True
  | _ => True

/-- Who waits is released within the time of the call. -/
def InTime (timed : TimedCall) : Prop :=
  match timed.phase with
  | .waiting _ wakeup => timed.clock ≤ wakeup ∧ wakeup ≤ timed.start + timed.timeout
  | _ => True

theorem InTime.not_overdue (inTime : timed.InTime) : ¬ timed.Overdue := by
  rintro ⟨late, call, wakeup, waiting⟩
  rw [InTime, waiting] at inTime
  omega

/-- A prompt move leaves no call beyond its limit. -/
theorem InTime.step (inTime : timed.InTime) (prompt : timed.Prompt next) :
    (timed.step next).InTime := by
  obtain ⟨start, timeout, clock, phase⟩ := timed
  cases next with
  | run sys added =>
    cases phase with
    | running call =>
      unfold Prompt at prompt
      unfold TimedCall.step
      dsimp only at prompt ⊢
      cases head : call.head _ sys with
      | ret | again => trivial
      | wait call =>
        rw [head] at prompt
        have now : clock = start := prompt
        split_ifs
        · exact ⟨Nat.le_add_right .., now ▸ le_rfl⟩
        · trivial
    | waiting call wakeup => exact inTime
    | returned value => trivial
  | tick ms =>
    cases phase with
    | running | returned => trivial
    | waiting call wakeup =>
      unfold TimedCall.step
      dsimp only
      split_ifs with due
      · trivial
      · exact ⟨(not_le.mp due).le, inTime.2⟩
  | notify sys =>
    cases phase with
    | running | returned => trivial
    | waiting call wakeup =>
      unfold TimedCall.step
      dsimp only
      cases call.tail sys <;> trivial

/-- Along prompt runs, no call waits beyond its limit. -/
theorem not_overdue_of_prompt (kind : CallKind) (fd : Int) (nbyte timeout clock : Nat)
    {steps : List TimedStep} (along : Along step Prompt (begin kind fd nbyte timeout clock) steps) :
    ¬ (steps.foldl step (begin kind fd nbyte timeout clock)).Overdue :=
  have start : (begin kind fd nbyte timeout clock).InTime := trivial
  (along.last InTime (fun _ _ => InTime.step) start).not_overdue

/-- A `read` that is notified in time, and finds its data. -/
theorem not_overdue_oneWait :
    ¬ (List.foldl step (begin .read 5 100 10 0)
      [.run .eagain true, .tick 9, .notify .eagain, .run (.ok 3) true]).Overdue :=
  not_overdue_of_prompt .read 5 100 10 0 ⟨rfl, trivial, trivial, trivial, trivial⟩

/-- A `read` with a time-out of `10` that waits twice: at `14` it is not back. -/
theorem overdue_secondWait :
    (List.foldl step (begin .read 5 100 10 0)
      [.run .eagain true, .tick 9, .notify .eagain, .run .eagain true, .tick 5]).Overdue :=
  ⟨by decide, _, _, rfl⟩

end TimedCall

end FStack.Micro
