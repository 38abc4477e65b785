import FStack.Std.Steps
import Mathlib.Data.List.Basic

/-!
# Hooked system calls

The socket functions that a program with micro threads calls in place of those of Linux. A table of
descriptors tells which of them the hooks know; for those a call that would block is made in a loop
of the frame, and for the others most of the hooks call the function of Linux. Below that each call
goes to the stack that has the descriptor open, by what `ff_fdisused` answers.

A call is the list of what it asks the stacks to do: the function itself, as often as it is tried,
and the waits for a descriptor, which are made on the queue of F-Stack.
-/

namespace FStack.Micro.SysHook

open Function (update update_eq_self update_of_ne update_self)
open List

/-- Who carries out a call. -/
inductive Stack where
  | fstack
  | linux
deriving DecidableEq, Repr

inductive Call where
  | socket
  | accept
  | connect
  | read
  | write
  | sendto
  | recvfrom
  | recv
  | send
  | setsockopt
  | fcntl
  | ioctl
  | listen
  | bind
  | close
  /-- A wait of `KqueueSchedule`. -/
  | kevent
deriving DecidableEq, Repr

/-- A call that a stack is asked for. -/
structure Op where
  stack : Stack
  call : Call
  fd : Int
deriving DecidableEq, Repr

/-- `MtHookFd`: the flags `MT_FD_FLG_INUSE` and `MT_FD_FLG_UNBLOCK`, and the timeouts. -/
structure MtHookFd where
  inuse : Bool
  unblock : Bool
  readTimeout : Int
  writeTimeout : Int
deriving DecidableEq, Repr

/-- `MT_HOOK_MAX_FD`. -/
def mtHookMaxFd : Int := 131070

/-- The hook that a descriptor comes from. -/
inductive Way where
  | socket
  | accept
deriving DecidableEq, Repr

/-- The stack that has made a descriptor, and the hook. -/
structure Origin where
  creator : Stack
  way : Way
deriving DecidableEq, Repr

/-- The flags and the table of the hooks, with the stack that has a descriptor open. The origin of
the descriptors that the hooks have given and that are open is kept for the specification. -/
structure State where
  mtHookFlag : Bool
  ffHookFlag : Bool
  hookFdTab : Int → MtHookFd
  owner : Int → Option Stack
  origin : Int → Option Origin

/-- What comes of one try of a call in a loop of the frame: `done` with everything, `part` with some
of it, or an error. -/
inductive Answer where
  | done
  | part
  | interrupted
  | again
  | connected
  | failed
deriving DecidableEq, Repr

/-- One round of a loop: the answer of the call, whether the time is over, and whether the
descriptor got ready when it was waited for. -/
structure Round where
  answer : Answer
  late : Bool
  ready : Bool
deriving DecidableEq, Repr

/-- The calls that may block. -/
inductive Blocking where
  | connect
  | read
  | write
  | sendto
  | recvfrom
  | recv
  | send
deriving DecidableEq, Repr

def Blocking.call : Blocking → Call
  | connect => .connect
  | read => .read
  | write => .write
  | sendto => .sendto
  | recvfrom => .recvfrom
  | recv => .recv
  | send => .send

/-- A call of the program, with what the stacks answer. -/
inductive Event where
  | socket (domain type : Nat) (fd : Int)
  | accept (listener fd : Int)
  /-- With whether the arguments pass the check of the frame, and the rounds of its loop. -/
  | io (call : Blocking) (fd : Int) (valid : Bool) (rounds : List Round)
  | setsockopt (fd : Int) (level option : Nat) (timeout : Int)
  | fcntl (fd : Int) (setfl nonblock : Bool)
  | ioctl (fd : Int) (fionbio nonzero : Bool)
  | listen (fd : Int)
  | bind (fd : Int)
  | close (fd : Int)
  /-- A descriptor that the hooks have not given is opened or closed. -/
  | elsewhere (fd : Int) (owner : Option Stack)
deriving DecidableEq, Repr

def afInet : Nat := 2
def sockStream : Nat := 1
def sockDgram : Nat := 2
def solSocket : Nat := 1
def soRcvtimeo : Nat := 20
def soSndtimeo : Nat := 21

namespace State

variable (state : State)

/-- `mt_hook_find_fd`. -/
def mtHookFindFd (fd : Int) : Option MtHookFd :=
  if fd < 0 ∨ mtHookMaxFd ≤ fd then none
  else if (state.hookFdTab fd).inuse then some (state.hookFdTab fd) else none

theorem eq_of_mtHookFindFd {fd : Int} {hookFd : MtHookFd}
    (found : state.mtHookFindFd fd = some hookFd) :
    hookFd = state.hookFdTab fd ∧ (state.hookFdTab fd).inuse = true := by
  unfold mtHookFindFd at found
  split_ifs at found with outside used
  cases found
  exact ⟨rfl, used⟩

/-- An entry of the table is written, if there is one. -/
def setHookFd (fd : Int) (info : MtHookFd) : State :=
  if fd < 0 ∨ mtHookMaxFd ≤ fd then state
  else { state with hookFdTab := update state.hookFdTab fd info }

@[simp] theorem origin_setHookFd (fd : Int) (info : MtHookFd) :
    (state.setHookFd fd info).origin = state.origin := by
  unfold setHookFd
  split <;> rfl

@[simp] theorem owner_setHookFd (fd : Int) (info : MtHookFd) :
    (state.setHookFd fd info).owner = state.owner := by
  unfold setHookFd
  split <;> rfl

/-- `mt_hook_new_fd`. -/
def mtHookNewFd (fd : Int) : State := state.setHookFd fd ⟨true, false, 500, 500⟩

/-- `mt_hook_free_fd`. -/
def mtHookFreeFd (fd : Int) : State := state.setHookFd fd ⟨false, false, 0, 0⟩

/-- `ff_fdisused`. -/
def ffFdisused (fd : Int) : Bool := state.owner fd = some .fstack

/-- `ff_hook_connect` and its like. -/
def ffHook (call : Call) (fd : Int) : Op := ⟨if state.ffFdisused fd then .fstack else .linux, call, fd⟩

/-- The stack that `ff_hook_socket` asks. -/
def ffHookSocket (domain type : Nat) : Stack :=
  if domain ≠ afInet ∨ (type ≠ sockStream ∧ type ≠ sockDgram) then .linux else .fstack

/-- A wait in a loop of the frame. -/
def wait (fd : Int) : Op := ⟨.fstack, .kevent, fd⟩

/-- `MtFrame::connect`, `MtFrame::read` and `MtFrame::sendto`: the call comes first. -/
def callFirst (call : Call) (fd : Int) : List Round → List Op
  | [] => []
  | round :: rest => state.ffHook call fd ::
      match round.answer with
      | .done | .part => []
      | .interrupted => if round.late then [] else callFirst call fd rest
      | .again =>
        if round.late then []
        else wait fd :: if round.ready then callFirst call fd rest else []
      | .connected | .failed => []

/-- `MtFrame::write` and `MtFrame::send`: until everything is written. -/
def writeAll (call : Call) (fd : Int) : List Round → List Op
  | [] => []
  | round :: rest =>
    if round.late then []
    else state.ffHook call fd ::
      match round.answer with
      | .done => []
      | .interrupted => writeAll call fd rest
      | .again | .part => wait fd :: if round.ready then writeAll call fd rest else []
      | .connected | .failed => []

/-- `MtFrame::recv` and `MtFrame::recvfrom`: the wait comes first. -/
def waitFirst (call : Call) (fd : Int) : List Round → List Op
  | [] => []
  | round :: rest =>
    if round.late then []
    else wait fd ::
      if !round.ready then []
      else state.ffHook call fd ::
        match round.answer with
        | .done | .part => []
        | .interrupted | .again => waitFirst call fd rest
        | .connected | .failed => []

/-- The loop of the frame for a call. -/
def frame : Blocking → Int → List Round → List Op
  | .connect => state.callFirst .connect
  | .read => state.callFirst .read
  | .write => state.writeAll .write
  | .sendto => state.callFirst .sendto
  | .recvfrom => state.waitFirst .recvfrom
  | .recv => state.waitFirst .recv
  | .send => state.writeAll .send

/-- `connect`, `read`, `write`, `sendto`, `recvfrom`, `recv` and `send`. -/
def io (call : Blocking) (fd : Int) (valid : Bool) (rounds : List Round) : List Op :=
  match state.mtHookFindFd fd with
  | none => [⟨.linux, call.call, fd⟩]
  | some hookFd =>
    if !state.mtHookFlag || !state.ffHookFlag then [⟨.linux, call.call, fd⟩]
    else if hookFd.unblock then [state.ffHook call.call fd]
    else if valid then state.frame call fd rounds
    else []

/-- `socket`. -/
def socket (domain type : Nat) (fd : Int) : State × List Op :=
  if !state.ffHookFlag then
    if fd < 0 then (state, [⟨.linux, .socket, fd⟩])
    else
      ({ state with
        owner := update state.owner fd (some .linux)
        origin := update state.origin fd (some ⟨.linux, .socket⟩) },
        [⟨.linux, .socket, fd⟩])
  else
    let stack := ffHookSocket domain type
    if fd < 0 then (state, [⟨stack, .socket, fd⟩])
    else
      let made : State := { state with
        owner := update state.owner fd (some stack)
        origin := update state.origin fd (some ⟨stack, .socket⟩) }
      let known := made.mtHookNewFd fd
      (known, [⟨stack, .socket, fd⟩, known.ffHook .ioctl fd])

/-- `accept`. -/
def accept (listener fd : Int) : State × List Op :=
  let op := if !state.ffHookFlag then ⟨.linux, .accept, listener⟩ else state.ffHook .accept listener
  if fd < 0 then (state, [op])
  else
    ({ state with
      owner := update state.owner fd (some op.stack)
      origin := update state.origin fd (some ⟨op.stack, .accept⟩) }, [op])

/-- `close`. -/
def close (fd : Int) : State × List Op :=
  if !state.ffHookFlag then
    ({ state with
      owner := if state.owner fd = some .linux then update state.owner fd none
        else state.owner
      origin := if state.owner fd = some .linux then update state.origin fd none
        else state.origin }, [⟨.linux, .close, fd⟩])
  else
    let freed := state.mtHookFreeFd fd
    ({ freed with
      owner := update freed.owner fd none
      origin := update freed.origin fd none }, [freed.ffHook .close fd])

/-- `setsockopt`, with the timeout in milliseconds. -/
def setsockopt (fd : Int) (level option : Nat) (timeout : Int) : State × List Op :=
  match state.mtHookFindFd fd with
  | none => (state, [⟨.linux, .setsockopt, fd⟩])
  | some hookFd =>
    if !state.mtHookFlag || !state.ffHookFlag then (state, [⟨.linux, .setsockopt, fd⟩])
    else
      let next :=
        if level = solSocket then
          if option = soRcvtimeo then state.setHookFd fd { hookFd with readTimeout := timeout }
          else if option = soSndtimeo then
            state.setHookFd fd { hookFd with writeTimeout := timeout }
          else state
        else state
      (next, [state.ffHook .setsockopt fd])

/-- `fcntl`. -/
def fcntl (fd : Int) (setfl nonblock : Bool) : State × List Op :=
  match state.mtHookFindFd fd with
  | none => (state, [⟨.linux, .fcntl, fd⟩])
  | some hookFd =>
    if !state.mtHookFlag || !state.ffHookFlag then (state, [⟨.linux, .fcntl, fd⟩])
    else
      (if setfl && nonblock then state.setHookFd fd { hookFd with unblock := true } else state,
        [state.ffHook .fcntl fd])

/-- `ioctl`, which goes to the stack of the descriptor in any case. -/
def ioctl (fd : Int) (fionbio nonzero : Bool) : State × List Op :=
  match state.mtHookFindFd fd with
  | none => (state, [state.ffHook .ioctl fd])
  | some hookFd =>
    if !state.mtHookFlag || !state.ffHookFlag then (state, [state.ffHook .ioctl fd])
    else
      (if fionbio && nonzero then state.setHookFd fd { hookFd with unblock := true } else state,
        [state.ffHook .ioctl fd])

/-- `listen` and `bind`. -/
def plain (call : Call) (fd : Int) : List Op :=
  [if !state.ffHookFlag then ⟨.linux, call, fd⟩ else state.ffHook call fd]

/-- One call. -/
def run : Event → State × List Op
  | .socket domain type fd => state.socket domain type fd
  | .accept listener fd => state.accept listener fd
  | .io call fd valid rounds => (state, state.io call fd valid rounds)
  | .setsockopt fd level option timeout => state.setsockopt fd level option timeout
  | .fcntl fd setfl nonblock => state.fcntl fd setfl nonblock
  | .ioctl fd fionbio nonzero => state.ioctl fd fionbio nonzero
  | .listen fd => (state, state.plain .listen fd)
  | .bind fd => (state, state.plain .bind fd)
  | .close fd => state.close fd
  | .elsewhere fd owner => ({ state with owner := update state.owner fd owner }, [])

def step (event : Event) : State := (state.run event).1

def ops (event : Event) : List Op := (state.run event).2

end State

open State

/-- A new descriptor is not in use in any of the stacks, and only hooks close the descriptors that
hooks have given. -/
def Possible (state : State) : Event → Prop
  | .socket _ _ fd => 0 ≤ fd → state.owner fd = none
  | .accept _ fd => 0 ≤ fd → state.owner fd = none
  | .elsewhere fd _ => state.origin fd = none
  | _ => True

instance (state : State) : DecidablePred (Possible state)
  | .socket .. | .accept .. => inferInstanceAs (Decidable (_ → _))
  | .elsewhere .. => inferInstanceAs (Decidable (_ = _))
  | .io .. | .setsockopt .. | .fcntl .. | .ioctl .. | .listen .. | .bind .. | .close .. =>
    inferInstanceAs (Decidable True)

/-- An operation on a descriptor that hooks have given is asked of the stack that has made it. -/
def Carried (state : State) (op : Op) : Prop :=
  ∀ origin ∈ state.origin op.fd, op.stack = origin.creator

instance (state : State) : DecidablePred (Carried state) := fun op =>
  inferInstanceAs (Decidable (∀ origin ∈ state.origin op.fd, op.stack = origin.creator))

/-- Every call is carried out by the stack of its descriptor, before and after the call. -/
def Routed (state : State) (event : Event) : Prop :=
  ∀ op ∈ state.ops event, Carried state op ∧ Carried (state.step event) op

/-- Likewise for the calls themselves, without the waits for a descriptor. -/
def CallsRouted (state : State) (event : Event) : Prop :=
  ∀ op ∈ state.ops event, op.call ≠ .kevent → Carried state op ∧ Carried (state.step event) op

instance (state : State) : DecidablePred (Routed state) := fun event =>
  inferInstanceAs (Decidable (∀ op ∈ state.ops event, _))

instance (state : State) : DecidablePred (CallsRouted state) := fun event =>
  inferInstanceAs (Decidable (∀ op ∈ state.ops event, _))

/-- The hooks are active and have given no descriptor; the stacks may have some open. -/
def initial (owner : Int → Option Stack) : State :=
  ⟨true, true, fun _ => ⟨false, false, 0, 0⟩, owner, fun _ => none⟩

/-! ## The condition -/

/-- A descriptor of F-Stack that hooks have given is one that the table has. -/
def Known (state : State) (fd : Int) : Prop :=
  state.origin fd ≠ some ⟨.fstack, .accept⟩ ∧
    (state.origin fd = some ⟨.fstack, .socket⟩ → fd < mtHookMaxFd)

instance (state : State) (fd : Int) : Decidable (Known state fd) :=
  inferInstanceAs (Decidable (_ ∧ _))

/-- The calls that look into the table are made for descriptors that it has. -/
def Covered (state : State) : Event → Prop
  | .io _ fd _ _ => Known state fd
  | .setsockopt fd _ _ _ => Known state fd
  | .fcntl fd _ _ => Known state fd
  | _ => True

instance (state : State) : DecidablePred (Covered state)
  | .io .. | .setsockopt .. | .fcntl .. => inferInstanceAs (Decidable (Known _ _))
  | .socket .. | .accept .. | .ioctl .. | .listen .. | .bind .. | .close .. | .elsewhere .. =>
    inferInstanceAs (Decidable True)

/-- The loop of a call may come to a wait. -/
def Blocking.waits (rounds : List Round) : Blocking → Bool
  | connect | read | sendto => rounds.any fun round => round.answer = .again
  | write | send => rounds.any fun round => round.answer = .again || round.answer = .part
  | recv | recvfrom => true

/-- A call for a socket of Linux does not wait. -/
def Waitless (state : State) : Event → Prop
  | .io call fd _ rounds => state.origin fd = some ⟨.linux, .socket⟩ →
      (state.hookFdTab fd).unblock = true ∨ call.waits rounds = false
  | _ => True

/-! ## What is kept -/

/-- The hooks are active, the descriptors they have given are open in the stack that has made them,
and the table has those of `socket`. -/
structure Linked (state : State) : Prop where
  mtActive : state.mtHookFlag = true
  ffActive : state.ffHookFlag = true
  opened : ∀ {fd origin}, state.origin fd = some origin → state.owner fd = some origin.creator
  nonneg : ∀ {fd origin}, state.origin fd = some origin → 0 ≤ fd
  table : ∀ fd, (state.hookFdTab fd).inuse = true ↔
    fd < mtHookMaxFd ∧ ∃ creator, state.origin fd = some ⟨creator, .socket⟩

theorem initial_linked (owner : Int → Option Stack) : Linked (initial owner) where
  mtActive := rfl
  ffActive := rfl
  opened found := by cases found
  nonneg found := by cases found
  table fd := iff_of_false Bool.false_ne_true (by rintro ⟨-, _, found⟩; cases found)

namespace Linked

variable {state : State} {fd : Int} (linked : Linked state)

include linked

theorem origin_none (free : state.owner fd = none) : state.origin fd = none := by
  cases found : state.origin fd with
  | none => rfl
  | some origin =>
    rw [linked.opened found] at free
    cases free

/-- A call that asks `ff_fdisused` gets to the stack of its descriptor. -/
theorem ffHook_stack (call : Call) {origin : Origin} (found : state.origin fd = some origin) :
    (state.ffHook call fd).stack = origin.creator := by
  have owner := linked.opened found
  unfold ffHook ffFdisused
  rw [owner]
  obtain ⟨creator, way⟩ := origin
  cases creator <;> rfl

theorem mtHookFindFd_eq (nonneg : 0 ≤ fd) :
    state.mtHookFindFd fd =
      if (state.hookFdTab fd).inuse then some (state.hookFdTab fd) else none := by
  unfold mtHookFindFd
  by_cases large : mtHookMaxFd ≤ fd
  · rw [if_pos (.inr large), if_neg]
    intro used
    have below := ((linked.table fd).mp used).1
    omega
  · rw [if_neg (by omega)]

theorem unused (free : state.origin fd = none) : ¬ (state.hookFdTab fd).inuse = true := by
  intro used
  obtain ⟨-, creator, found⟩ := (linked.table fd).mp used
  rw [free] at found
  cases found

/-- What is known of one descriptor is written anew. -/
theorem replace (fd : Int) (info : MtHookFd) (owner : Option Stack) (origin : Option Origin)
    (opened : ∀ given, origin = some given → owner = some given.creator ∧ 0 ≤ fd)
    (entry : info.inuse = true ↔ fd < mtHookMaxFd ∧ ∃ creator, origin = some ⟨creator, .socket⟩) :
    Linked { state with
      hookFdTab := update state.hookFdTab fd info
      owner := update state.owner fd owner
      origin := update state.origin fd origin } := by
  refine ⟨linked.mtActive, linked.ffActive, ?_, ?_, ?_⟩
  all_goals
    intro other
    dsimp only
    by_cases same : other = fd
  · subst same
    rw [update_self, update_self]
    exact fun there => (opened _ there).1
  · rw [update_of_ne same, update_of_ne same]
    exact linked.opened
  · subst same
    rw [update_self]
    exact fun there => (opened _ there).2
  · rw [update_of_ne same]
    exact linked.nonneg
  · subst same
    rw [update_self, update_self]
    exact entry
  · rw [update_of_ne same, update_of_ne same]
    exact linked.table other

/-- Writing an entry that stays in use keeps everything. -/
theorem setHookFd {info : MtHookFd} (used : info.inuse = true)
    (there : (state.hookFdTab fd).inuse = true) : Linked (state.setHookFd fd info) := by
  unfold State.setHookFd
  split
  · exact linked
  · have kept := linked.replace fd info (state.owner fd) (state.origin fd)
      (fun _ found => ⟨linked.opened found, linked.nonneg found⟩)
      ((iff_of_true used there).trans (linked.table fd))
    rwa [update_eq_self, update_eq_self] at kept

theorem not_off : ¬ (!state.ffHookFlag) = true := by
  rw [linked.ffActive]
  decide

theorem not_inactive : ¬ (!state.mtHookFlag || !state.ffHookFlag) = true := by
  rw [linked.mtActive, linked.ffActive]
  decide

/-- A descriptor of `socket` is open in the stack that has made it. -/
theorem socket (domain type : Nat) (fresh : 0 ≤ fd → state.owner fd = none) :
    Linked (state.socket domain type fd).1 := by
  unfold State.socket State.mtHookNewFd State.setHookFd
  rw [if_neg linked.not_off]
  by_cases failed : fd < 0
  · rw [if_pos failed]
    exact linked
  have nonneg : 0 ≤ fd := by omega
  have opened : ∀ given, some ⟨ffHookSocket domain type, .socket⟩ = some given →
      some (ffHookSocket domain type) = some (Origin.creator given) ∧ 0 ≤ fd := by
    rintro _ ⟨⟩
    exact ⟨rfl, nonneg⟩
  rw [if_neg failed]
  dsimp only
  by_cases large : mtHookMaxFd ≤ fd
  · -- there is no entry for it, and the table stays as it is
    rw [if_pos (.inr large)]
    have unused := linked.unused (linked.origin_none (fresh nonneg))
    have kept := linked.replace fd (state.hookFdTab fd) _ _ opened
      (iff_of_false unused (by omega))
    rwa [update_eq_self] at kept
  · rw [if_neg (by omega)]
    exact linked.replace fd ⟨true, false, 500, 500⟩ _ _ opened
      (iff_of_true rfl ⟨by omega, _, rfl⟩)

/-- A descriptor of `accept` is open in the stack of its listener. -/
theorem accept {listener : Int} (fresh : 0 ≤ fd → state.owner fd = none) :
    Linked (state.accept listener fd).1 := by
  unfold State.accept
  rw [if_neg linked.not_off]
  by_cases failed : fd < 0
  · rw [if_pos failed]
    exact linked
  have nonneg : 0 ≤ fd := by omega
  have unused := linked.unused (linked.origin_none (fresh nonneg))
  have kept := linked.replace fd (state.hookFdTab fd) (some (state.ffHook .accept listener).stack)
    (some ⟨(state.ffHook .accept listener).stack, .accept⟩)
    (by rintro _ ⟨⟩; exact ⟨rfl, nonneg⟩)
    (iff_of_false unused (by rintro ⟨-, _, found⟩; cases found))
  rw [update_eq_self] at kept
  rw [if_neg failed]
  exact kept

/-- After `close` the descriptor has no stack and no entry. -/
theorem close (fd : Int) : Linked (state.close fd).1 := by
  unfold State.close State.mtHookFreeFd State.setHookFd
  rw [if_neg linked.not_off]
  have nothing : ∀ given : Origin, none = some given →
      none = some given.creator ∧ 0 ≤ fd := by rintro _ ⟨⟩
  by_cases outside : fd < 0 ∨ mtHookMaxFd ≤ fd
  · rw [if_pos outside]
    have unused : ¬ (state.hookFdTab fd).inuse = true := by
      intro used
      obtain ⟨below, _, found⟩ := (linked.table fd).mp used
      have nonneg := linked.nonneg found
      omega
    have kept := linked.replace fd (state.hookFdTab fd) none none nothing
      (iff_of_false unused (by rintro ⟨-, _, found⟩; cases found))
    rwa [update_eq_self] at kept
  · rw [if_neg outside]
    exact linked.replace fd ⟨false, false, 0, 0⟩ none none nothing
      (iff_of_false Bool.false_ne_true (by rintro ⟨-, _, found⟩; cases found))

theorem elsewhere (other : state.origin fd = none) (owner : Option Stack) :
    Linked { state with owner := update state.owner fd owner } := by
  have kept := linked.replace fd (state.hookFdTab fd) owner (state.origin fd)
    (by rw [other]; rintro _ ⟨⟩) (linked.table fd)
  rwa [update_eq_self, update_eq_self] at kept

end Linked

/-! ## The loops of the frame -/

namespace State

variable (state : State) {call : Call} {fd : Int} {op : Op} {rounds : List Round}

theorem asked_cons {first : Op} {blocks : Round → Bool} (round : Round)
    (asked : op = first ∨ op = wait fd ∧ rounds.any blocks = true) :
    op = first ∨ op = wait fd ∧ (round :: rounds).any blocks = true :=
  asked.imp_right fun ⟨same, waits⟩ => ⟨same, by rw [any_cons, waits, Bool.or_true]⟩

/-- Who tries first waits only after being told to try again. -/
theorem mem_callFirst (there : op ∈ state.callFirst call fd rounds) :
    op = state.ffHook call fd ∨
      op = wait fd ∧ (rounds.any fun round => round.answer = .again) = true := by
  induction rounds with
  | nil => cases there
  | cons round rest ih =>
    rcases mem_cons.mp there with same | there
    · exact .inl same
    · cases answer : round.answer <;> rw [answer] at there
      case done | part | connected | failed => cases there
      case interrupted =>
        dsimp only at there
        split_ifs at there
        · cases there
        · exact asked_cons round (ih there)
      case again =>
        split_ifs at there with late ready
        · cases there
        · rcases mem_cons.mp there with same | there
          · exact .inr ⟨same, by simp [answer]⟩
          · exact asked_cons round (ih there)
        · exact .inr ⟨mem_singleton.mp there, by simp [answer]⟩

/-- A write waits only after a part or a refusal. -/
theorem mem_writeAll (there : op ∈ state.writeAll call fd rounds) :
    op = state.ffHook call fd ∨ op = wait fd ∧
      (rounds.any fun round => round.answer = .again || round.answer = .part) = true := by
  induction rounds with
  | nil => cases there
  | cons round rest ih =>
    unfold writeAll at there
    by_cases late : round.late = true
    · rw [if_pos late] at there
      cases there
    rw [if_neg late] at there
    rcases mem_cons.mp there with same | there
    · exact .inl same
    · cases answer : round.answer <;> rw [answer] at there
      case done | connected | failed => cases there
      case interrupted => exact asked_cons round (ih there)
      case again | part =>
        rcases mem_cons.mp there with same | there
        · exact .inr ⟨same, by simp [answer]⟩
        · split_ifs at there
          · exact asked_cons round (ih there)
          · cases there

/-- Who waits first waits for its own descriptor. -/
theorem mem_waitFirst (there : op ∈ state.waitFirst call fd rounds) :
    op = state.ffHook call fd ∨ op = wait fd := by
  induction rounds with
  | nil => cases there
  | cons round rest ih =>
    unfold waitFirst at there
    by_cases late : round.late = true
    · rw [if_pos late] at there
      cases there
    rw [if_neg late] at there
    rcases mem_cons.mp there with same | there
    · exact .inr same
    split_ifs at there with ready
    · cases there
    rcases mem_cons.mp there with same | there
    · exact .inl same
    · cases answer : round.answer <;> rw [answer] at there
      case done | part | connected | failed => cases there
      case interrupted | again => exact ih there

/-- A loop calls its function or waits, and it waits only if the call may. -/
theorem mem_frame {call : Blocking} (there : op ∈ state.frame call fd rounds) :
    op = state.ffHook call.call fd ∨ op = wait fd ∧ call.waits rounds = true := by
  cases call with
  | connect | read | sendto => exact state.mem_callFirst there
  | write | send => exact state.mem_writeAll there
  | recv | recvfrom => exact (state.mem_waitFirst there).imp_right fun same => ⟨same, rfl⟩

end State

/-! ## Routing -/

/-- What a call comes to: everything it asks for is carried out by the stack of its descriptor. -/
structure Sound (state : State) (result : State × List Op) : Prop where
  linked : Linked result.1
  carried : ∀ op ∈ result.2, Carried state op ∧ Carried result.1 op

theorem Sound.single {state next : State} {op : Op}
    (kept : Linked next ∧ next.origin = state.origin) (carried : Carried state op) :
    Sound state (next, [op]) := by
  refine ⟨kept.1, forall_mem_singleton.mpr ⟨carried, ?_⟩⟩
  unfold Carried
  rw [kept.2]
  exact carried

namespace Linked

variable {state : State} {fd : Int} (linked : Linked state)

include linked

/-- Flags and timeouts of an entry are written. -/
theorem changed {hookFd info : MtHookFd} (found : state.mtHookFindFd fd = some hookFd)
    (used : info.inuse = hookFd.inuse) : Linked (state.setHookFd fd info) ∧
      (state.setHookFd fd info).origin = state.origin := by
  obtain ⟨rfl, there⟩ := state.eq_of_mtHookFindFd found
  exact ⟨linked.setHookFd (used.trans there) there, state.origin_setHookFd fd info⟩

/-- A descriptor that the table does not have is one of Linux. -/
theorem creator_of_not_found (known : Known state fd) (missing : state.mtHookFindFd fd = none)
    {origin : Origin} (found : state.origin fd = some origin) : origin.creator = .linux := by
  obtain ⟨creator, way⟩ := origin
  cases creator with
  | linux => rfl
  | fstack =>
    cases way with
    | accept => exact absurd found known.1
    | socket =>
      have used := (linked.table fd).mpr ⟨known.2 found, _, found⟩
      rw [linked.mtHookFindFd_eq (linked.nonneg found), if_pos used] at missing
      cases missing

theorem ffHook_carried (call : Call) (fd : Int) : Carried state (state.ffHook call fd) :=
  fun _ found => linked.ffHook_stack call found

theorem linux_carried (call : Call) (known : Known state fd)
    (missing : state.mtHookFindFd fd = none) : Carried state ⟨.linux, call, fd⟩ :=
  fun _ found => (linked.creator_of_not_found known missing found).symm

/-- What a blocking call asks for: all of it is carried out by the right stack, but for waits. -/
theorem io_carried {call : Blocking} {valid : Bool} {rounds : List Round} (known : Known state fd)
    {op : Op} (there : op ∈ state.io call fd valid rounds) :
    Carried state op ∨
      op = wait fd ∧ state.origin fd = some ⟨.linux, .socket⟩ ∧
        (state.hookFdTab fd).unblock = false ∧ call.waits rounds = true := by
  unfold io at there
  cases found : state.mtHookFindFd fd with
  | none =>
    rw [found] at there
    cases mem_singleton.mp there
    exact .inl (linked.linux_carried _ known found)
  | some hookFd =>
    have entry := state.eq_of_mtHookFindFd found
    rw [found] at there
    dsimp only at there
    split_ifs at there with off unblock ok
    · exact absurd off linked.not_inactive
    · cases mem_singleton.mp there
      exact .inl (linked.ffHook_carried _ _)
    · rcases state.mem_frame there with rfl | ⟨same, waits⟩
      · exact .inl (linked.ffHook_carried _ _)
      · obtain ⟨-, creator, given⟩ := (linked.table fd).mp entry.2
        cases creator with
        | fstack =>
          left
          rw [same]
          intro origin found
          cases given.symm.trans found
          rfl
        | linux => exact .inr ⟨same, given, entry.1 ▸ Bool.eq_false_iff.mpr unblock, waits⟩
    · cases there

/-- Options go to the stack that has the descriptor. -/
theorem setsockopt (known : Known state fd) (level option : Nat) (timeout : Int) :
    Sound state (state.setsockopt fd level option timeout) := by
  unfold State.setsockopt
  split
  next missing => exact .single ⟨linked, rfl⟩ (linked.linux_carried _ known missing)
  next hookFd found =>
    rw [if_neg linked.not_inactive]
    refine .single ?_ (linked.ffHook_carried _ _)
    split_ifs
    · exact linked.changed found rfl
    · exact linked.changed found rfl
    · exact ⟨linked, rfl⟩
    · exact ⟨linked, rfl⟩

/-- Flags go to the stack that has the descriptor. -/
theorem fcntl (known : Known state fd) (setfl nonblock : Bool) :
    Sound state (state.fcntl fd setfl nonblock) := by
  unfold State.fcntl
  split
  next missing => exact .single ⟨linked, rfl⟩ (linked.linux_carried _ known missing)
  next hookFd found =>
    rw [if_neg linked.not_inactive]
    refine .single ?_ (linked.ffHook_carried _ _)
    split_ifs
    · exact linked.changed found rfl
    · exact ⟨linked, rfl⟩

/-- Requests go to the stack that has the descriptor. -/
theorem ioctl (fd : Int) (fionbio nonzero : Bool) :
    Sound state (state.ioctl fd fionbio nonzero) := by
  unfold State.ioctl
  split
  next missing => exact .single ⟨linked, rfl⟩ (linked.ffHook_carried _ _)
  next hookFd found =>
    rw [if_neg linked.not_inactive]
    refine .single ?_ (linked.ffHook_carried _ _)
    split_ifs
    · exact linked.changed found rfl
    · exact ⟨linked, rfl⟩

theorem plain (call : Call) (fd : Int) : Sound state (state, state.plain call fd) := by
  unfold State.plain
  rw [if_neg linked.not_off]
  exact .single ⟨linked, rfl⟩ (linked.ffHook_carried _ _)

/-- The new socket is set to non-blocking by the stack that has made it. -/
theorem socket_carried (domain type : Nat) (fresh : 0 ≤ fd → state.owner fd = none) :
    ∀ op ∈ (state.socket domain type fd).2,
      Carried state op ∧ Carried (state.socket domain type fd).1 op := by
  have after := linked.socket domain type fresh
  unfold State.socket at after ⊢
  rw [if_neg linked.not_off] at after ⊢
  by_cases failed : fd < 0
  · have nothing : Carried state ⟨ffHookSocket domain type, .socket, fd⟩ := by
      intro origin found
      have nonneg : 0 ≤ fd := linked.nonneg found
      omega
    rw [if_pos failed]
    exact forall_mem_singleton.mpr ⟨nothing, nothing⟩
  have free := linked.origin_none (fresh (by omega))
  have before (op : Op) (same : op.fd = fd) : Carried state op := by
    intro origin found
    rw [same, free] at found
    cases found
  rw [if_neg failed] at after ⊢
  refine forall_mem_cons.mpr ⟨⟨before _ rfl, ?_⟩,
    forall_mem_singleton.mpr ⟨before _ rfl, after.ffHook_carried _ _⟩⟩
  intro origin found
  unfold mtHookNewFd at found
  rw [origin_setHookFd] at found
  dsimp only at found
  rw [update_self] at found
  cases found
  rfl

/-- What `accept` asks for is asked of the stack of the descriptor. -/
theorem accept_carried (listener fd : Int) :
    ∀ op ∈ (state.accept listener fd).2,
      Carried state op ∧ Carried (state.accept listener fd).1 op := by
  have carried := linked.ffHook_carried .accept listener
  unfold State.accept
  rw [if_neg linked.not_off]
  split_ifs with failed
  · exact forall_mem_singleton.mpr ⟨carried, carried⟩
  refine forall_mem_singleton.mpr ⟨carried, ?_⟩
  intro origin found
  dsimp only at found
  by_cases same : listener = fd
  · rw [show (state.ffHook .accept listener).fd = fd from same, update_self] at found
    cases found
    rfl
  · rw [update_of_ne (show (state.ffHook .accept listener).fd ≠ fd from same)] at found
    exact carried origin found

/-- What `close` asks for is asked of the stack of the descriptor. -/
theorem close_carried (fd : Int) :
    ∀ op ∈ (state.close fd).2, Carried state op ∧ Carried (state.close fd).1 op := by
  unfold State.close
  rw [if_neg linked.not_off]
  have same : (state.mtHookFreeFd fd).ffHook .close fd = state.ffHook .close fd := by
    unfold ffHook ffFdisused mtHookFreeFd
    rw [owner_setHookFd]
  refine forall_mem_singleton.mpr ⟨same ▸ linked.ffHook_carried _ _, ?_⟩
  intro origin found
  rw [show ((state.mtHookFreeFd fd).ffHook .close fd).fd = fd from rfl] at found
  dsimp only at found
  rw [update_self] at found
  cases found

variable {event : Event}

/-- Everything a call asks for is carried out by the right stack, but for a wait for a socket of
Linux. -/
theorem carried_or_waits (possible : Possible state event) (covered : Covered state event) :
    ∀ op ∈ state.ops event, (Carried state op ∧ Carried (state.step event) op) ∨
      op.call = .kevent ∧ ¬ Waitless state event := by
  intro op there
  cases event with
  | socket domain type fd => exact .inl (linked.socket_carried domain type possible op there)
  | accept listener fd => exact .inl (linked.accept_carried listener fd op there)
  | io call fd valid rounds =>
    rcases linked.io_carried covered there with carried | ⟨rfl, given, blocking, waits⟩
    · exact .inl ⟨carried, carried⟩
    · refine .inr ⟨rfl, fun waitless => ?_⟩
      rcases waitless given with unblock | quiet
      · rw [blocking] at unblock
        cases unblock
      · rw [waits] at quiet
        cases quiet
  | setsockopt fd level option timeout =>
    exact .inl ((linked.setsockopt covered level option timeout).carried op there)
  | fcntl fd setfl nonblock => exact .inl ((linked.fcntl covered setfl nonblock).carried op there)
  | ioctl fd fionbio nonzero => exact .inl ((linked.ioctl fd fionbio nonzero).carried op there)
  | listen | bind => exact .inl ((linked.plain _ _).carried op there)
  | close fd => exact .inl (linked.close_carried fd op there)
  | elsewhere fd owner => cases there

/-- Every possible event keeps table and stacks in step, where the hooks cover it. -/
theorem step (possible : Possible state event) (covered : Covered state event) :
    Linked (state.step event) := by
  cases event with
  | socket domain type fd => exact linked.socket domain type possible
  | accept listener fd => exact linked.accept possible
  | io | listen | bind => exact linked
  | setsockopt fd level option timeout => exact (linked.setsockopt covered _ _ _).linked
  | fcntl fd setfl nonblock => exact (linked.fcntl covered _ _).linked
  | ioctl fd fionbio nonzero => exact (linked.ioctl fd _ _).linked
  | close fd => exact linked.close fd
  | elsewhere fd owner => exact linked.elsewhere possible owner

/-- A call for a descriptor that is not in the table changes nothing. -/
theorem step_of_possible (possible : Possible state event) : Linked (state.step event) := by
  have known {fd hookFd} (found : state.mtHookFindFd fd = some hookFd) : Known state fd := by
    obtain ⟨below, creator, given⟩ := (linked.table fd).mp (state.eq_of_mtHookFindFd found).2
    exact ⟨by simp [given], fun _ => below⟩
  cases event with
  | setsockopt fd | fcntl fd =>
    cases found : state.mtHookFindFd fd with
    | none => simpa [State.step, run, State.setsockopt, State.fcntl, found] using linked
    | some hookFd => exact linked.step possible (known found)
  | io => exact linked
  | _ => exact linked.step possible trivial

end Linked

open Steps

/-- In every run in which the calls that look into the table are made for descriptors of Linux, or
for descriptors of F-Stack that come from `socket` and that the table has room for, every call is
carried out by the stack that has made its descriptor. That goes for the waits in a call as well, if
calls for sockets of Linux do not wait. -/
theorem routed_of_covered (owner : Int → Option Stack) {events : List Event}
    (covered : Along step (fun state event => Possible state event ∧ Covered state event)
      (initial owner) events) :
    Along step (fun state event => CallsRouted state event ∧
      (Waitless state event → Routed state event)) (initial owner) events := by
  refine Along.imp Linked ?_ (initial_linked owner) covered
  rintro state event linked ⟨possible, known⟩
  have all := linked.carried_or_waits possible known
  refine ⟨⟨fun op there call => ?_, fun waitless op there => ?_⟩, linked.step possible known⟩
  · exact (all op there).resolve_right fun ⟨wait, _⟩ => call wait
  · exact (all op there).resolve_right fun ⟨_, waits⟩ => waits waitless

/-- A stream socket of F-Stack is connected, written to and read from, and closed; a local socket of
Linux is made non-blocking and read from. -/
def twoSockets : List Event :=
  [.socket 2 1 1000, .io .connect 1000 true [⟨.again, false, true⟩, ⟨.connected, false, true⟩],
    .io .write 1000 true [⟨.part, false, true⟩, ⟨.done, false, true⟩],
    .io .recv 1000 true [⟨.done, false, true⟩], .socket 1 1 5, .fcntl 5 true true,
    .io .recv 5 true [], .close 1000, .close 5]

/-- Linux has its standard streams open. -/
def streams (fd : Int) : Option Stack := if 0 ≤ fd ∧ fd ≤ 2 then some .linux else none

theorem routed_twoSockets :
    Along step (fun state event => CallsRouted state event ∧
      (Waitless state event → Routed state event)) (initial streams) twoSockets :=
  routed_of_covered streams (by decide +kernel)

/-- The table of the hooks has the sockets that are open and nothing else, and the stack that has
made a descriptor has it open. -/
theorem table_of_possible (owner : Int → Option Stack) {events : List Event}
    (possible : Along step Possible (initial owner) events) (fd : Int) :
    let state := events.foldl step (initial owner)
    ((state.hookFdTab fd).inuse = true ↔
      fd < mtHookMaxFd ∧ ∃ creator, state.origin fd = some ⟨creator, .socket⟩) ∧
    ∀ origin, state.origin fd = some origin → state.owner fd = some origin.creator := by
  have linked := possible.last Linked (fun _ _ linked => linked.step_of_possible)
    (initial_linked owner)
  exact ⟨linked.table fd, fun _ => linked.opened⟩

theorem table_twoSockets :
    (((twoSockets.take 6).foldl step (initial streams)).hookFdTab 1000).inuse = true :=
  (table_of_possible streams (by decide +kernel) 1000).1.mpr ⟨by decide, .fstack, by decide +kernel⟩

/-- A connection is accepted and read from. -/
def acceptedRead : List Event :=
  [.socket 2 1 1000, .bind 1000, .listen 1000, .accept 1000 1001, .io .read 1001 true []]

/-- A connection accepted by F-Stack is read from by Linux; and a call for a socket of Linux waits
on the queue of F-Stack. -/
theorem not_routed_acceptedRead :
    Along step Possible (initial streams) acceptedRead ∧
    ¬ Along step CallsRouted (initial streams) acceptedRead ∧
    Along step Possible (initial streams) [.socket 1 1 5, .io .recv 5 true [⟨.done, false, true⟩]] ∧
    ¬ Along step Routed (initial streams)
      [.socket 1 1 5, .io .recv 5 true [⟨.done, false, true⟩]] := by
  decide +kernel

end FStack.Micro.SysHook
