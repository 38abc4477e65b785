import FStack.Ipc.Server
import FStack.Std.Custody
import FStack.Std.Steps

/-!
# Where the messages are

Any number of tools and F-Stack processes pass messages on. A tool takes a message from
the pool, sends it to the in-ring of a process and waits for it on the out-ring of its
type; a process takes a message from its in-ring, handles it and puts it into an
out-ring. Operations on rings and the pool are single steps.

When a wait times out, the tool puts its message back into the pool although it is still
queued; and a tool that finds another message on its out-ring puts that one back as well,
though another tool waits for it.
-/

namespace FStack.Ipc

open Custody Function List Steps

/-- Where a tool is in a call. A tool that waits may hold a message that is not its own
and that it is about to free. -/
inductive Phase where
  | idle
  | filling (msg : Nat)
  | waiting (msg proc : Nat) (kind : MsgKind) (request : Nat) (foreign : Option Nat)
  | answered (msg request : Nat)
deriving DecidableEq, Repr

/-- The pool, the tools, the processes with their rings and the message that each of them
handles, and the messages. Requests are numbered; `request` is the one that a message
carries, `answer` the one that its result is for. -/
structure System where
  pool : List Nat
  phase : Nat → Phase
  ring : Nat → Fin ffMsgNum → List Nat
  server : Nat → Option Nat
  msgs : Nat → FfMsg
  globals : Nat → Globals
  request : Nat → Nat
  answer : Nat → Option Nat
  requests : Nat

namespace System

def setPhase (tool : Nat) (phase : Phase) (sys : System) : System :=
  { sys with phase := update sys.phase tool phase }

def setRing (proc : Nat) (index : Fin ffMsgNum) (ring : List Nat) (sys : System) : System :=
  { sys with
    ring := update sys.ring proc (update (sys.ring proc) index ring) }

def setPool (pool : List Nat) (sys : System) : System := { sys with pool := pool }

def setServer (proc : Nat) (msg : Option Nat) (sys : System) : System :=
  { sys with server := update sys.server proc msg }

/-- `ff_ipc_msg_free`. -/
def free (msg : Nat) (sys : System) : System := sys.setPool (msg :: sys.pool)

/-- A tool writes a new request into a message. -/
def fill (msg : Nat) (content : FfMsg) (sys : System) : System :=
  { sys with
    msgs := update sys.msgs msg content
    request := update sys.request msg sys.requests
    answer := update sys.answer msg none
    requests := sys.requests + 1 }

/-- A process has handled the request in a message. -/
def handled (proc msg : Nat) (content : FfMsg) (globals : Globals) (sys : System) : System :=
  { sys with
    msgs := update sys.msgs msg content
    globals := update sys.globals proc globals
    answer := update sys.answer msg (some (sys.request msg)) }

end System

open Ipc.System

/-- The out-ring of a type. -/
def MsgKind.ring (kind : MsgKind) : Fin ffMsgNum :=
  ⟨kind.number.toNat, by cases kind <;> decide⟩

/-- A step of a tool or of a process. -/
inductive Action where
  | alloc (tool index : Nat)
  | refuse (tool : Nat)
  | send (tool proc : Nat) (kind : MsgKind) (msg : FfMsg) (lookup : Bool)
  | receive (tool : Nat)
  | release (tool : Nat)
  | timeOut (tool : Nat)
  | finish (tool : Nat)
  | take (proc : Nat)
  | reply (proc : Nat) (stack : Stack)

namespace System

/-- `ff_ipc_msg_alloc`, with the place in the pool that the message is taken from. -/
def alloc (tool index : Nat) (sys : System) : System :=
  match sys.phase tool, sys.pool[index]? with
  | .idle, some msg => (sys.setPool (sys.pool.eraseIdx index)).setPhase tool (.filling msg)
  | _, _ => sys

/-- A check of the request fails. -/
def refuse (tool : Nat) (sys : System) : System :=
  match sys.phase tool with
  | .filling msg => (sys.free msg).setPhase tool .idle
  | _ => sys

/-- The message is filled in, and `ff_ipc_send` puts it into the in-ring, if that is found
and has room. -/
def send (tool proc : Nat) (kind : MsgKind) (content : FfMsg) (lookup : Bool) (sys : System) :
    System :=
  match sys.phase tool with
  | .filling msg =>
    let sys := sys.fill msg { content with msgType := kind.number }
    if lookup = true ∧ (sys.ring proc ringIn).length < msgRingCapacity then
      (sys.setRing proc ringIn (sys.ring proc ringIn ++ [msg])).setPhase tool
        (.waiting msg proc kind (sys.request msg) none)
    else (sys.free msg).setPhase tool .idle
  | _ => sys

/-- `ff_ipc_recv` finds a message, which is compared with the one that was sent. -/
def receive (tool : Nat) (sys : System) : System :=
  match sys.phase tool with
  | .waiting msg proc kind request none =>
    match sys.ring proc kind.ring with
    | [] => sys
    | retmsg :: rest =>
      (sys.setRing proc kind.ring rest).setPhase tool
        (if retmsg = msg then .answered msg request
        else .waiting msg proc kind request (some retmsg))
  | _ => sys

/-- A message that is not the one that was sent is freed. -/
def release (tool : Nat) (sys : System) : System :=
  match sys.phase tool with
  | .waiting msg proc kind request (some foreign) =>
    (sys.free foreign).setPhase tool (.waiting msg proc kind request none)
  | _ => sys

/-- `ff_ipc_recv` gives up, and the message that was sent is freed. -/
def timeOut (tool : Nat) (sys : System) : System :=
  match sys.phase tool with
  | .waiting msg _ _ _ none => (sys.free msg).setPhase tool .idle
  | _ => sys

/-- The result is read and the message is freed. -/
def finish (tool : Nat) (sys : System) : System :=
  match sys.phase tool with
  | .answered msg _ => (sys.free msg).setPhase tool .idle
  | _ => sys

/-- `process_msg_ring` takes a message. -/
def take (proc : Nat) (sys : System) : System :=
  match sys.server proc, sys.ring proc ringIn with
  | none, msg :: rest =>
    (sys.setRing proc ringIn rest).setServer proc (some msg)
  | _, _ => sys

/-- `handle_msg` for the message that was taken. A message that is put into a full ring
is lost; an index outside the array does not occur. -/
def reply (build : Build) (proc : Nat) (stack : Stack) (sys : System) : System :=
  match sys.server proc with
  | some msg =>
    let (content, globals) := handle stack build (sys.msgs msg) (sys.globals proc)
    if inside : content.msgType.toNat < ffMsgNum then
      let index : Fin ffMsgNum := ⟨content.msgType.toNat, inside⟩
      ((sys.handled proc msg content globals).setServer proc none).setRing proc index
        (ringEnqueue (sys.ring proc index) msg)
    else sys
  | none => sys

def step (build : Build) (sys : System) : Action → System
  | .alloc tool index => sys.alloc tool index
  | .refuse tool => sys.refuse tool
  | .send tool proc kind msg lookup => sys.send tool proc kind msg lookup
  | .receive tool => sys.receive tool
  | .release tool => sys.release tool
  | .timeOut tool => sys.timeOut tool
  | .finish tool => sys.finish tool
  | .take proc => sys.take proc
  | .reply proc stack => sys.reply build proc stack

def run (build : Build) (sys : System) (actions : List Action) : System :=
  actions.foldl (step build) sys

/-- All messages are in the pool. -/
def initial (pool : List Nat) (msgs : Nat → FfMsg) (globals : Nat → Globals) : System where
  pool := pool
  phase _ := .idle
  ring _ _ := []
  server _ := none
  msgs := msgs
  globals := globals
  request _ := 0
  answer _ := none
  requests := 0

end System

/-- Where a message can be. -/
inductive Place where
  | pool
  | tool (tool : Nat)
  | ring (proc : Nat) (index : Fin ffMsgNum)
  | server (proc : Nat)
deriving DecidableEq

/-- The messages that a tool has in its hands. -/
def Phase.held : Phase → List Nat
  | .idle => []
  | .filling msg => [msg]
  | .waiting _ _ _ _ foreign => foreign.toList
  | .answered msg _ => [msg]

def System.contents (sys : System) : Place → List Nat
  | .pool => sys.pool
  | .tool tool => (sys.phase tool).held
  | .ring proc index => sys.ring proc index
  | .server proc => (sys.server proc).toList

/-- Every message is in one place, and the result that a tool reads is for its own request. -/
structure System.Exact (objs : List Nat) (sys : System) : Prop where
  linear : Linear objs sys.contents
  own : ∀ tool msg request, sys.phase tool = .answered msg request → sys.answer msg = some request

/-- A tool waits for an answer on a ring. -/
def System.WaitsOn (sys : System) (tool proc : Nat) (kind : MsgKind) : Prop :=
  ∃ msg request foreign, sys.phase tool = .waiting msg proc kind request foreign

/-- No wait times out, and no two tools wait on one ring. -/
def System.Orderly (sys : System) : Action → Prop
  | .timeOut tool => ∀ proc kind, ¬ sys.WaitsOn tool proc kind
  | .send _ proc kind _ _ => ∀ other, ¬ sys.WaitsOn other proc kind
  | _ => True

section Contents

variable (sys : System)

@[simp] theorem contents_setPool (pool : List Nat) :
    (sys.setPool pool).contents = update sys.contents .pool pool := by
  funext place
  cases place <;> simp [contents, setPool]

@[simp] theorem contents_setPhase (tool : Nat) (phase : Phase) :
    (sys.setPhase tool phase).contents = update sys.contents (.tool tool) phase.held := by
  funext place
  cases place with
  | tool other => by_cases same : other = tool <;> simp [contents, setPhase, same]
  | pool | ring | server => simp [contents, setPhase]

@[simp] theorem contents_setRing (proc : Nat) (index : Fin ffMsgNum) (ring : List Nat) :
    (sys.setRing proc index ring).contents =
      update sys.contents (.ring proc index) ring := by
  funext place
  cases place with
  | ring proc' index' =>
    by_cases same : proc' = proc
    · subst same
      by_cases index' = index <;> simp [contents, setRing, *]
    · simp [contents, setRing, same]
  | pool | tool | server => simp [contents, setRing]

@[simp] theorem contents_setServer (proc : Nat) (msg : Option Nat) :
    (sys.setServer proc msg).contents =
      update sys.contents (.server proc) msg.toList := by
  funext place
  cases place with
  | server other => by_cases same : other = proc <;> simp [contents, setServer, same]
  | pool | tool | ring => simp [contents, setServer]

end Contents

/-- What else holds between calls: a tool that waits holds no message, the messages in
rings and processes are those that tools wait for, and an out-ring has the answer that is
waited for. -/
structure System.Talks (sys : System) : Prop where
  alone : ∀ tool msg proc kind request foreign,
    sys.phase tool = .waiting msg proc kind request foreign → foreign = none
  asked : ∀ proc msg, msg ∈ sys.ring proc ringIn ∨ sys.server proc = some msg →
    ∃ tool kind, sys.phase tool = .waiting msg proc kind (sys.request msg) none ∧
      (sys.msgs msg).msgType = kind.number
  replied : ∀ proc index msg, index ≠ ringIn → msg ∈ sys.ring proc index →
    ∃ tool kind request, kind.ring = index ∧
      sys.phase tool = .waiting msg proc kind request none ∧ sys.answer msg = some request
  exclusive : ∀ tool other proc kind, sys.WaitsOn tool proc kind → sys.WaitsOn other proc kind →
    tool = other
  own : ∀ tool msg request, sys.phase tool = .answered msg request → sys.answer msg = some request

/-- The invariant of orderly runs. -/
structure System.Sound (objs : List Nat) (sys : System) : Prop where
  linear : Linear objs sys.contents
  talks : sys.Talks

section Steps

variable {objs : List Nat} {sys : System} {tool proc msg : Nat} {kind : MsgKind} {phase : Phase}

theorem MsgKind.ring_inj {other : MsgKind} (same : kind.ring = other.ring) : kind = other := by
  have numbers : kind.number.toNat = other.number.toNat :=
    congrArg (fun ring : Fin ffMsgNum => ring.val) same
  have found := ofNumber?_eq_some_iff.mpr (UInt32.toNat_inj.mp numbers)
  exact Option.some.inj (found.symm.trans (ofNumber?_eq_some_iff.mpr rfl))

theorem MsgKind.ring_ne_ringIn (kind : MsgKind) : kind.ring ≠ ringIn := by
  cases kind <;> decide

/-- A tool that does not wait. -/
def Phase.Quiet : Phase → Prop
  | .waiting _ _ _ _ _ => False
  | _ => True

theorem setPhase_eq_iff {target : Phase} {other : Nat} :
    (sys.setPhase tool phase).phase other = target ↔
      other = tool ∧ phase = target ∨ other ≠ tool ∧ sys.phase other = target := by
  rw [setPhase]
  dsimp only
  rcases eq_or_ne other tool with rfl | different
  · rw [update_self]
    simp
  · rw [update_of_ne different]
    simp [different]

variable {msg proc' : Nat} {index other : Fin ffMsgNum} {ring : List Nat}

/-- A tool that does not wait leaves the others waiting. -/
theorem setPhase_waiting_iff (was : (sys.phase tool).Quiet) (quiet : phase.Quiet) {other proc : Nat}
    {request : Nat} {foreign : Option Nat} :
    (sys.setPhase tool phase).phase other = .waiting msg proc kind request foreign ↔
      sys.phase other = .waiting msg proc kind request foreign := by
  rw [setPhase_eq_iff]
  constructor
  · rintro (⟨-, waits⟩ | ⟨-, waits⟩)
    · rw [waits] at quiet
      exact quiet.elim
    · exact waits
  · intro waits
    refine .inr ⟨?_, waits⟩
    rintro rfl
    rw [waits] at was
    exact was

namespace System.Talks

theorem setPool (talks : sys.Talks) (pool : List Nat) : (sys.setPool pool).Talks :=
  ⟨talks.alone, talks.asked, talks.replied, talks.exclusive, talks.own⟩

/-- A tool that did not wait goes on without waiting. -/
theorem setPhase (talks : sys.Talks) {phase : Phase} (was : (sys.phase tool).Quiet)
    (quiet : phase.Quiet)
    (own : ∀ msg request, phase = .answered msg request → sys.answer msg = some request) :
    (sys.setPhase tool phase).Talks where
  alone other msg proc kind request foreign waits :=
    talks.alone other msg proc kind request foreign ((setPhase_waiting_iff was quiet).mp waits)
  asked proc msg queued := by
    obtain ⟨other, kind, waits, type⟩ := talks.asked proc msg queued
    exact ⟨other, kind, (setPhase_waiting_iff was quiet).mpr waits, type⟩
  replied proc index msg outgoing queued := by
    obtain ⟨other, kind, request, ring, waits, answer⟩ := talks.replied proc index msg outgoing queued
    exact ⟨other, kind, request, ring, (setPhase_waiting_iff was quiet).mpr waits, answer⟩
  exclusive first second proc kind := by
    simp only [WaitsOn, setPhase_waiting_iff was quiet]
    exact talks.exclusive first second proc kind
  own other msg request answered := by
    rcases setPhase_eq_iff.mp answered with ⟨-, now⟩ | ⟨-, before⟩
    · exact own msg request now
    · exact talks.own other msg request before

end System.Talks

/-- A message that one tool holds is not on its way, and no other tool has it. -/
theorem apart_of_held (linear : Linear objs sys.contents) (held : (sys.phase tool).held = [msg]) :
    (∀ proc index, msg ∉ sys.ring proc index) ∧ (∀ proc, sys.server proc ≠ some msg) ∧
      ∀ other, msg ∈ (sys.phase other).held → other = tool := by
  have here : msg ∈ sys.contents (.tool tool) := by
    rw [contents, held]
    exact mem_singleton_self msg
  refine ⟨fun proc index there => ?_, fun proc there => ?_, fun other there => ?_⟩
  · cases linear.place_eq here (show msg ∈ sys.contents (.ring proc index) from there)
  · have there : msg ∈ sys.contents (.server proc) := Option.mem_toList.mpr there
    cases linear.place_eq here there
  · cases linear.place_eq here (show msg ∈ sys.contents (.tool other) from there)
    rfl

/-- A message in a ring is in no other ring, in no process and in the hands of no tool. -/
theorem apart_of_ring (linear : Linear objs sys.contents) (queued : msg ∈ sys.ring proc index) :
    (∀ proc' index', msg ∈ sys.ring proc' index' → proc' = proc ∧ index' = index) ∧
      (∀ proc', sys.server proc' ≠ some msg) ∧ ∀ tool, msg ∉ (sys.phase tool).held := by
  have here : msg ∈ sys.contents (.ring proc index) := queued
  refine ⟨fun proc' index' there => ?_, fun proc' there => ?_, fun tool there => ?_⟩
  · cases linear.place_eq here (show msg ∈ sys.contents (.ring proc' index') from there)
    exact ⟨rfl, rfl⟩
  · have there : msg ∈ sys.contents (.server proc') := Option.mem_toList.mpr there
    cases linear.place_eq here there
  · cases linear.place_eq here (show msg ∈ sys.contents (.tool tool) from there)

/-- A request may be written into a message that is in no ring or process and that no tool
is about to read. -/
theorem System.Talks.fill (talks : sys.Talks) (content : FfMsg)
    (rings : ∀ proc index, msg ∉ sys.ring proc index) (servers : ∀ proc, sys.server proc ≠ some msg)
    (unread : ∀ tool request, sys.phase tool ≠ .answered msg request) :
    (sys.fill msg content).Talks where
  alone := talks.alone
  asked proc other queued := by
    have different : other ≠ msg := by
      rintro rfl
      exact queued.elim (rings proc ringIn) (servers proc)
    obtain ⟨tool, kind, waits, type⟩ := talks.asked proc other queued
    refine ⟨tool, kind, ?_, ?_⟩
    · simp only [System.fill, update_of_ne different]
      exact waits
    · simp only [System.fill, update_of_ne different]
      exact type
  replied proc index other outgoing queued := by
    have different : other ≠ msg := fun same => rings proc index (same ▸ queued)
    obtain ⟨tool, kind, request, ring, waits, answer⟩ :=
      talks.replied proc index other outgoing queued
    refine ⟨tool, kind, request, ring, waits, ?_⟩
    simp only [System.fill, update_of_ne different]
    exact answer
  exclusive := talks.exclusive
  own tool other request answered := by
    have different : other ≠ msg := by
      rintro rfl
      exact unread tool request answered
    simp only [System.fill, update_of_ne different]
    exact talks.own tool other request answered

theorem mem_setRing_self : msg ∈ (sys.setRing proc index ring).ring proc index ↔ msg ∈ ring := by
  rw [setRing]
  dsimp only
  rw [update_self, update_self]

/-- A message in a ring that was set is new or was there. -/
theorem mem_setRing_cases (queued : msg ∈ (sys.setRing proc index ring).ring proc' other) :
    (proc' = proc ∧ other = index) ∧ msg ∈ ring ∨
      ¬(proc' = proc ∧ other = index) ∧ msg ∈ sys.ring proc' other := by
  by_cases here : proc' = proc ∧ other = index
  · obtain ⟨rfl, rfl⟩ := here
    exact .inl ⟨⟨rfl, rfl⟩, mem_setRing_self.mp queued⟩
  · refine .inr ⟨here, ?_⟩
    rw [setRing] at queued
    dsimp only at queued
    by_cases same : proc' = proc
    · rw [same, update_self,
        update_of_ne fun same' => here ⟨same, same'⟩] at queued
      rwa [same]
    · rwa [update_of_ne same] at queued

theorem mem_of_setRing (subset : ring ⊆ sys.ring proc index)
    (queued : msg ∈ (sys.setRing proc index ring).ring proc' other) :
    msg ∈ sys.ring proc' other := by
  rcases mem_setRing_cases queued with ⟨⟨rfl, rfl⟩, member⟩ | ⟨-, member⟩
  · exact subset member
  · exact member

theorem mem_of_setRing_append {msg' : Nat} (different : msg' ≠ msg)
    (queued : msg' ∈ (sys.setRing proc index (sys.ring proc index ++ [msg])).ring proc' other) :
    msg' ∈ sys.ring proc' other := by
  rcases mem_setRing_cases queued with ⟨⟨rfl, rfl⟩, member⟩ | ⟨-, member⟩
  · refine (mem_append.mp member).resolve_right fun last => ?_
    exact different (mem_singleton.mp last)
  · exact member

namespace System.Sound

section

variable (sound : sys.Sound objs)

include sound

/-- A tool gives a message that it holds back to the pool. -/
theorem giveBack (held : (sys.phase tool).held = [msg]) (quiet : (sys.phase tool).Quiet) :
    ((sys.free msg).setPhase tool .idle).Sound objs where
  linear := by
    have apart : Place.tool tool ≠ .pool := nofun
    rw [contents_setPhase, free, contents_setPool, update_comm apart.symm]
    refine sound.linear.transfer msg apart ?_ (.refl _)
    rw [contents, held]
    exact .refl _
  talks := (sound.talks.setPool _).setPhase quiet trivial nofun

/-- A message from the pool has one holder. -/
theorem alloc (tool index : Nat) : (sys.alloc tool index).Sound objs := by
  unfold System.alloc
  split
  case h_1 msg idle found =>
    refine ⟨?_, (sound.talks.setPool _).setPhase (by rw [setPool, idle]; trivial) trivial nofun⟩
    have apart : Place.pool ≠ .tool tool := nofun
    rw [contents_setPhase, contents_setPool]
    refine sound.linear.transfer msg apart ?_ ?_
    · obtain ⟨inside, rfl⟩ := List.getElem?_eq_some_iff.mp found
      exact (getElem_cons_eraseIdx_perm inside).symm
    · rw [contents, idle]
      exact .refl _
  case h_2 => exact sound

variable (tool : Nat)

theorem refuse : (sys.refuse tool).Sound objs := by
  unfold System.refuse
  split
  case h_1 msg filling =>
    exact sound.giveBack (by rw [filling]; rfl) (by rw [filling]; trivial)
  case h_2 => exact sound

theorem finish : (sys.finish tool).Sound objs := by
  unfold System.finish
  split
  case h_1 msg request answered =>
    exact sound.giveBack (by rw [answered]; rfl) (by rw [answered]; trivial)
  case h_2 => exact sound

/-- No tool that waits has a message to release. -/
theorem release : (sys.release tool).Sound objs := by
  unfold System.release
  split
  case h_1 msg proc kind request foreign waits =>
    exact absurd (sound.talks.alone _ _ _ _ _ _ waits) nofun
  case h_2 => exact sound

theorem timeOut (never : ∀ proc kind, ¬ sys.WaitsOn tool proc kind) :
    (sys.timeOut tool).Sound objs := by
  unfold System.timeOut
  split
  case h_1 msg proc kind request waits => exact absurd ⟨_, _, _, waits⟩ (never proc kind)
  case h_2 => exact sound

end

variable {msg tool proc request : Nat} {kind : MsgKind}

section

variable (sound : sys.Sound objs)

include sound

section

variable (filling : sys.phase tool = .filling msg)

include filling

theorem fill (content : FfMsg) : (sys.fill msg content).Sound objs := by
  obtain ⟨rings, servers, others⟩ := apart_of_held sound.linear (by rw [filling]; rfl)
  refine ⟨sound.linear, sound.talks.fill content rings servers fun other request answered => ?_⟩
  obtain rfl := others other (by rw [answered]; exact mem_singleton_self msg)
  cases filling.symm.trans answered

theorem linear_enqueue (proc : Nat) (kind : MsgKind) (request : Nat) :
    Linear objs ((sys.setRing proc ringIn (sys.ring proc ringIn ++ [msg])).setPhase tool
      (.waiting msg proc kind request none)).contents := by
  have apart : Place.tool tool ≠ .ring proc ringIn := nofun
  rw [contents_setPhase, contents_setRing, update_comm apart.symm]
  refine sound.linear.transfer msg apart ?_ (perm_append_singleton ..)
  rw [contents, filling]
  exact .refl _

/-- A tool sends a message that it has filled in, to a process from which no tool waits for
an answer of this type. -/
theorem enqueue (type : (sys.msgs msg).msgType = kind.number)
    (free : ∀ other, ¬ sys.WaitsOn other proc kind) :
    ((sys.setRing proc ringIn (sys.ring proc ringIn ++ [msg])).setPhase tool
      (.waiting msg proc kind (sys.request msg) none)).Sound objs := by
  have linear := sound.linear_enqueue filling proc kind (sys.request msg)
  have queued : msg ∈ ((sys.setRing proc ringIn (sys.ring proc ringIn ++ [msg])).setPhase tool
      (.waiting msg proc kind (sys.request msg) none)).ring proc ringIn :=
    mem_setRing_self.mpr (mem_append_right _ (mem_singleton_self msg))
  obtain ⟨rings, servers, -⟩ := apart_of_ring linear queued
  -- whoever waited still waits, since this tool did not
  have still {other msg' proc' : Nat} {kind' : MsgKind} {request : Nat} {foreign : Option Nat}
      (waits : sys.phase other = .waiting msg' proc' kind' request foreign) :
      update sys.phase tool (.waiting msg proc kind (sys.request msg) none) other =
        .waiting msg' proc' kind' request foreign := by
    rw [update_of_ne, waits]
    rintro rfl
    cases filling.symm.trans waits
  have waitsOn {other proc' : Nat} {kind' : MsgKind}
      (waits : ((sys.setRing proc ringIn (sys.ring proc ringIn ++ [msg])).setPhase tool
        (.waiting msg proc kind (sys.request msg) none)).WaitsOn other proc' kind') :
      other = tool ∧ proc' = proc ∧ kind' = kind ∨ sys.WaitsOn other proc' kind' := by
    obtain ⟨msg', request, foreign, waits⟩ := waits
    rcases setPhase_eq_iff.mp waits with ⟨rfl, now⟩ | ⟨-, before⟩
    · cases now
      exact .inl ⟨rfl, rfl, rfl⟩
    · exact .inr ⟨msg', request, foreign, before⟩
  refine ⟨linear, ?_, ?_, ?_, ?_, ?_⟩
  · intro other msg' proc' kind' request foreign waits
    rcases setPhase_eq_iff.mp waits with ⟨-, now⟩ | ⟨-, before⟩
    · cases now
      rfl
    · exact sound.talks.alone _ _ _ _ _ _ before
  · intro proc' msg' queued'
    rcases eq_or_ne msg' msg with rfl | different
    · have same : proc' = proc := queued'.elim (fun there => (rings _ _ there).1)
        (fun there => absurd there (servers proc'))
      subst same
      exact ⟨tool, kind, update_self .., type⟩
    · obtain ⟨other, kind', waits, type'⟩ := sound.talks.asked proc' msg'
        (queued'.imp_left (mem_of_setRing_append different))
      exact ⟨other, kind', still waits, type'⟩
  · intro proc' index msg' outgoing there
    have different : msg' ≠ msg := by
      rintro rfl
      exact outgoing (rings proc' index there).2
    obtain ⟨other, kind', request, ring, waits, answer⟩ :=
      sound.talks.replied proc' index msg' outgoing (mem_of_setRing_append different there)
    exact ⟨other, kind', request, ring, still waits, answer⟩
  · intro first second proc' kind' one two
    rcases waitsOn one with ⟨rfl, rfl, rfl⟩ | before
    · rcases waitsOn two with ⟨rfl, -, -⟩ | before
      · rfl
      · exact absurd before (free second)
    · rcases waitsOn two with ⟨-, rfl, rfl⟩ | before'
      · exact absurd before (free first)
      · exact sound.talks.exclusive first second proc' kind' before before'
  · intro other msg' request answered
    rcases setPhase_eq_iff.mp answered with ⟨-, now⟩ | ⟨-, before⟩
    · cases now
    · exact sound.talks.own other msg' request before

end

/-- A message that is sent is the server's. -/
theorem send (content : FfMsg) (lookup : Bool) (free : ∀ other, ¬ sys.WaitsOn other proc kind) :
    (sys.send tool proc kind content lookup).Sound objs := by
  unfold System.send
  split
  case h_1 msg filling =>
    have filled := sound.fill filling { content with msgType := kind.number }
    dsimp only
    split_ifs
    · refine filled.enqueue filling ?_ free
      simp only [System.fill, update_self]
    · exact filled.giveBack (by rw [System.fill, filling]; rfl) (by rw [System.fill, filling]; trivial)
  case h_2 => exact sound

section

variable (waits : sys.phase tool = .waiting msg proc kind request none)

include waits

/-- The tool that waits on an out-ring gets its own message, with its own answer. -/
theorem first_reply {retmsg : Nat} (queued : retmsg ∈ sys.ring proc kind.ring) :
    retmsg = msg ∧ sys.answer msg = some request := by
  obtain ⟨other, kind', request', ring, waits', answer⟩ :=
    sound.talks.replied proc kind.ring retmsg kind.ring_ne_ringIn queued
  obtain rfl := MsgKind.ring_inj ring
  obtain rfl := sound.talks.exclusive other tool proc kind' ⟨_, _, _, waits'⟩ ⟨_, _, _, waits⟩
  cases waits.symm.trans waits'
  exact ⟨rfl, answer⟩

variable {rest : List Nat}

theorem linear_dequeue (found : sys.ring proc kind.ring = msg :: rest) :
    Linear objs
      ((sys.setRing proc kind.ring rest).setPhase tool (.answered msg request)).contents := by
  have apart : Place.ring proc kind.ring ≠ .tool tool := nofun
  rw [contents_setPhase, contents_setRing]
  refine sound.linear.transfer msg apart (.of_eq found) ?_
  rw [contents, waits]
  exact .refl _

/-- A tool takes its answer from an out-ring. -/
theorem dequeue (found : sys.ring proc kind.ring = msg :: rest)
    (answer : sys.answer msg = some request) :
    ((sys.setRing proc kind.ring rest).setPhase tool (.answered msg request)).Sound objs := by
  have linear := sound.linear_dequeue waits found
  have held : (((sys.setRing proc kind.ring rest).setPhase tool (.answered msg request)).phase
      tool).held = [msg] := by
    change (update sys.phase tool (.answered msg request) tool).held = [msg]
    rw [update_self]
    rfl
  obtain ⟨rings, servers, -⟩ := apart_of_held linear held
  have fewer : rest ⊆ sys.ring proc kind.ring := by
    rw [found]
    exact subset_cons_self msg rest
  have still {other msg' proc' : Nat} {kind' : MsgKind} {request' : Nat} {foreign : Option Nat}
      (different : msg' ≠ msg)
      (waits' : sys.phase other = .waiting msg' proc' kind' request' foreign) :
      update sys.phase tool (.answered msg request) other =
        .waiting msg' proc' kind' request' foreign := by
    rw [update_of_ne, waits']
    rintro rfl
    cases waits.symm.trans waits'
    exact different rfl
  have before {other msg' proc' : Nat} {kind' : MsgKind} {request' : Nat} {foreign : Option Nat}
      (waits' : (sys.setPhase tool (.answered msg request)).phase other =
        .waiting msg' proc' kind' request' foreign) :
      sys.phase other = .waiting msg' proc' kind' request' foreign := by
    rcases setPhase_eq_iff.mp waits' with ⟨-, now⟩ | ⟨-, before⟩
    · cases now
    · exact before
  refine ⟨linear, fun _ _ _ _ _ _ waits' => sound.talks.alone _ _ _ _ _ _ (before waits'), ?_, ?_,
    ?_, ?_⟩
  · intro proc' msg' queued
    have different : msg' ≠ msg := by
      rintro rfl
      exact queued.elim (rings proc' ringIn) (servers proc')
    obtain ⟨other, kind', waits', type⟩ := sound.talks.asked proc' msg'
      (queued.imp_left (mem_of_setRing fewer))
    exact ⟨other, kind', still different waits', type⟩
  · intro proc' index msg' outgoing queued
    have different : msg' ≠ msg := fun same => rings proc' index (same ▸ queued)
    obtain ⟨other, kind', request', ring, waits', answer'⟩ :=
      sound.talks.replied proc' index msg' outgoing (mem_of_setRing fewer queued)
    exact ⟨other, kind', request', ring, still different waits', answer'⟩
  · rintro first second proc' kind' ⟨_, _, _, one⟩ ⟨_, _, _, two⟩
    exact sound.talks.exclusive first second proc' kind' ⟨_, _, _, before one⟩ ⟨_, _, _, before two⟩
  · intro other msg' request' answered
    rcases setPhase_eq_iff.mp answered with ⟨-, now⟩ | ⟨-, before⟩
    · cases now
      exact answer
    · exact sound.talks.own other msg' request' before

end

/-- A message that is received is the tool's again. -/
theorem receive (tool : Nat) : (sys.receive tool).Sound objs := by
  unfold System.receive
  split
  case h_1 msg proc kind request waits =>
    split
    case h_1 => exact sound
    case h_2 retmsg rest found =>
      obtain ⟨rfl, answer⟩ := sound.first_reply waits (by rw [found]; exact mem_cons_self)
      rw [if_pos rfl]
      exact sound.dequeue waits found answer
  case h_2 => exact sound

/-- A message that is taken is served. -/
theorem take (proc : Nat) : (sys.take proc).Sound objs := by
  unfold System.take
  split
  case h_1 msg rest idle found =>
    have fewer : rest ⊆ sys.ring proc ringIn := by
      rw [found]
      exact subset_cons_self msg rest
    refine ⟨?_, sound.talks.alone, ?_, ?_, sound.talks.exclusive, sound.talks.own⟩
    · have apart : Place.ring proc ringIn ≠ .server proc := nofun
      rw [contents_setServer, contents_setRing]
      refine sound.linear.transfer msg apart (.of_eq found) ?_
      rw [contents, idle]
      exact .refl _
    · intro proc' msg' queued
      refine sound.talks.asked proc' msg' ?_
      rcases queued with inRing | inServer
      · exact .inl (mem_of_setRing fewer inRing)
      · change update sys.server proc (some msg) proc' = some msg' at inServer
        rcases Maps.update_some_iff.mp inServer with ⟨rfl, rfl⟩ | ⟨-, inServer⟩
        · rw [found]
          exact .inl mem_cons_self
        · exact .inr inServer
    · intro proc' index msg' outgoing queued
      exact sound.talks.replied proc' index msg' outgoing (mem_of_setRing fewer queued)
  case h_2 => exact sound

/-- While a message is being handled, the out-ring for its answer is empty. -/
theorem ring_eq_nil (busy : sys.server proc = some msg)
    (waits : sys.phase tool = .waiting msg proc kind request none) :
    sys.ring proc kind.ring = [] := by
  refine eq_nil_iff_forall_not_mem.mpr fun retmsg queued => ?_
  obtain ⟨rfl, -⟩ := sound.first_reply waits queued
  exact (apart_of_ring sound.linear queued).2.1 proc busy

section

variable (busy : sys.server proc = some msg)
  (waits : sys.phase tool = .waiting msg proc kind (sys.request msg) none) (content : FfMsg)
  (globals : Globals)

include busy waits

/-- A message that is answered is in its reply ring only. -/
theorem linear_answer :
    Linear objs (((sys.handled proc msg content globals).setServer proc none).setRing
      proc kind.ring [msg]).contents := by
  have apart : Place.server proc ≠ .ring proc kind.ring := nofun
  rw [contents_setRing, contents_setServer]
  refine sound.linear.transfer msg apart ?_ ?_
  · rw [contents, busy]
    exact .refl _
  · rw [contents, sound.ring_eq_nil busy waits]

/-- A process puts the message that it has handled into the out-ring of its type, which was
empty. -/
theorem answer :
    (((sys.handled proc msg content globals).setServer proc none).setRing proc kind.ring
      [msg]).Sound objs := by
  have linear := sound.linear_answer busy waits content globals
  obtain ⟨rings, servers, tools⟩ := apart_of_ring linear
    (mem_setRing_self.mpr (mem_singleton_self msg))
  refine ⟨linear, sound.talks.alone, ?_, ?_, sound.talks.exclusive, ?_⟩
  · intro proc' msg' queued
    have different : msg' ≠ msg := by
      rintro rfl
      exact queued.elim (fun there => kind.ring_ne_ringIn.symm (rings _ _ there).2) (servers proc')
    have before : msg' ∈ sys.ring proc' ringIn ∨ sys.server proc' = some msg' := by
      refine queued.imp (fun there => ?_) fun inServer => ?_
      · rcases mem_setRing_cases there with ⟨⟨-, same⟩, -⟩ | ⟨-, before⟩
        · exact absurd same kind.ring_ne_ringIn.symm
        · exact before
      exact (Maps.update_none_iff.mp inServer).2
    obtain ⟨other, kind', waits', type⟩ := sound.talks.asked proc' msg' before
    refine ⟨other, kind', waits', ?_⟩
    change (update sys.msgs msg content msg').msgType = _
    rwa [update_of_ne different]
  · intro proc' index msg' outgoing queued
    rcases mem_setRing_cases queued with ⟨⟨rfl, rfl⟩, member⟩ | ⟨elsewhere, before⟩
    · obtain rfl := mem_singleton.mp member
      exact ⟨tool, kind, _, rfl, waits, update_self ..⟩
    · have different : msg' ≠ msg := fun same => elsewhere (rings proc' index (same ▸ queued))
      obtain ⟨other, kind', request, ring, waits', answer⟩ :=
        sound.talks.replied proc' index msg' outgoing before
      refine ⟨other, kind', request, ring, waits', ?_⟩
      change update sys.answer msg _ msg' = _
      rwa [update_of_ne different]
  · intro other msg' request answered
    have different : msg' ≠ msg := by
      rintro rfl
      refine tools other ?_
      rw [answered]
      exact mem_singleton_self msg'
    change update sys.answer msg _ msg' = _
    rw [update_of_ne different]
    exact sound.talks.own other msg' request answered

end

/-- A reply goes to the tool that asked. -/
theorem reply (build : Build) (proc : Nat) (stack : Stack) :
    (sys.reply build proc stack).Sound objs := by
  unfold System.reply
  split
  case h_1 msg busy =>
    obtain ⟨tool, kind, waits, type⟩ := sound.talks.asked proc msg (.inr busy)
    have handled := (msgType_handle build stack (sys.msgs msg) (sys.globals proc)).trans type
    dsimp only
    split_ifs with inside
    · have index : (⟨_, inside⟩ : Fin ffMsgNum) = kind.ring :=
        Fin.ext (congrArg UInt32.toNat handled)
      rw [index, sound.ring_eq_nil busy waits]
      exact sound.answer busy waits _ _
    · exact sound
  case h_2 => exact sound

/-- Every orderly action keeps one holder for each message. -/
theorem step (build : Build) (action : Action) (orderly : sys.Orderly action) :
    (sys.step build action).Sound objs := by
  cases action with
  | alloc tool index => exact sound.alloc tool index
  | refuse tool => exact sound.refuse tool
  | send tool proc kind msg lookup => exact sound.send msg lookup orderly
  | receive tool => exact sound.receive tool
  | release tool => exact sound.release tool
  | timeOut tool => exact sound.timeOut tool orderly
  | finish tool => exact sound.finish tool
  | take proc => exact sound.take proc
  | reply proc stack => exact sound.reply build proc stack

end

/-- At the start every message is in the pool. -/
theorem initial {pool : List Nat} (nodup : pool.Nodup) (msgs : Nat → FfMsg)
    (globals : Nat → Globals) : (System.initial pool msgs globals).Sound pool := by
  refine ⟨?_, nofun, ?_, ?_, ?_, nofun⟩
  · have contents : (System.initial pool msgs globals).contents =
        update (fun _ => []) .pool pool := by
      funext place
      cases place <;> rfl
    rw [contents]
    exact .start nodup Place.pool
  · rintro proc msg (queued | busy)
    · exact absurd queued not_mem_nil
    · cases busy
  · exact fun _ _ _ _ queued => absurd queued not_mem_nil
  · rintro _ _ _ _ ⟨_, _, _, waits⟩
    cases waits

end System.Sound

end Steps

/-- As long as no wait times out and no two tools wait on one ring, every message is in
one place and every tool reads the answer to its own request, after every step. -/
theorem linear_of_orderly (build : Build) {pool : List Nat} (nodup : pool.Nodup)
    (msgs : Nat → FfMsg) (globals : Nat → Globals) {actions : List Action}
    (orderly : Along (step build) System.Orderly (.initial pool msgs globals) actions) :
    Along (step build) (fun sys action => (sys.step build action).Exact pool)
      (.initial pool msgs globals) actions := by
  refine Along.imp (System.Sound pool) (fun sys action sound orderly => ?_)
    (System.Sound.initial nodup msgs globals) orderly
  have next := sound.step build action orderly
  exact ⟨⟨next.linear, next.talks.own⟩, next⟩

/-- A reply ring has at most one message. -/
theorem System.Sound.outRing {objs : List Nat} {sys : System} (sound : sys.Sound objs) {proc : Nat}
    {index : Fin ffMsgNum} (out : index ≠ ringIn) : (sys.ring proc index).length ≤ 1 := by
  -- two answers in the ring would be waited for by one tool
  have same {msg other : Nat} (here : msg ∈ sys.ring proc index)
      (there : other ∈ sys.ring proc index) : msg = other := by
    obtain ⟨tool, kind, _, ring, waits, -⟩ := sound.talks.replied proc index msg out here
    obtain ⟨tool', kind', _, ring', waits', -⟩ := sound.talks.replied proc index other out there
    obtain rfl := MsgKind.ring_inj (ring.trans ring'.symm)
    obtain rfl := sound.talks.exclusive tool tool' proc kind ⟨_, _, _, waits⟩ ⟨_, _, _, waits'⟩
    cases waits.symm.trans waits'
    rfl
  have once : (sys.ring proc index).Nodup := sound.linear.nodup (.ring proc index)
  generalize sys.ring proc index = ring at same once
  cases ring with
  | nil => exact Nat.zero_le 1
  | cons first rest =>
    exact (once.subperm fun msg here => mem_singleton.mpr (same here mem_cons_self)).length_le

/-- In such runs an out-ring has no more than one message, so that there is room for every answer. -/
theorem outRing_of_orderly (build : Build) {pool : List Nat} (nodup : pool.Nodup)
    (msgs : Nat → FfMsg) (globals : Nat → Globals) {actions : List Action}
    (orderly : Along (step build) System.Orderly (.initial pool msgs globals) actions)
    (proc : Nat) {index : Fin ffMsgNum} (out : index ≠ ringIn) :
    (((System.initial pool msgs globals).run build actions).ring proc index).length ≤ 1 :=
  (orderly.last (System.Sound pool) (fun _ action sound => sound.step build action)
    (System.Sound.initial nodup msgs globals)).outRing out

/-- A system with some messages, all in the pool. -/
def freshSystem (pool : List Nat) : System :=
  .initial pool (fun _ => plainMsg 0) fun _ => ⟨0, ⟨0, 0, 0, 0, 0⟩, ⟨0, 0, 0, 0⟩, 0⟩

/-- A tool takes a message and sends a `sysctl` request to the first process. -/
def asks (tool : Nat) : List Action := [.alloc tool 0, .send tool 0 .sysctl (plainMsg 0) true]

/-- The first process answers one message. -/
def answers : List Action := [.take 0, .reply 0 quietStack]

/-- Two tools wait for answers of different types, and get them in the other order. -/
def twoTools : List Action :=
  asks 0 ++ [.alloc 1 0, .send 1 0 .top (plainMsg 0) true] ++ answers ++ answers ++
    [.receive 1, .receive 0]

/-- Two tools ask at once, and each is answered. -/
theorem linear_twoTools :
    ((freshSystem [0, 1]).run allFeatures twoTools).phase 0 = .answered 0 0 ∧
      ((freshSystem [0, 1]).run allFeatures twoTools).phase 1 = .answered 1 1 ∧
      Along (step allFeatures) (fun sys action => (sys.step allFeatures action).Exact [0, 1])
        (freshSystem [0, 1]) (twoTools ++ [.finish 0, .finish 1]) := by
  refine ⟨by decide, by decide, linear_of_orderly allFeatures (by decide) _ _ ?_⟩
  refine ⟨trivial, ?_, trivial, ?_, trivial, trivial, trivial, trivial, trivial, trivial, trivial,
    trivial, trivial⟩
  · rintro other ⟨msg, request, foreign, waits⟩
    change update (fun _ => Phase.idle) 0 (.filling 0) other = _ at waits
    rcases eq_or_ne other 0 with rfl | different
    · cases waits
    · rw [update_of_ne different] at waits
      cases waits
  · rintro other ⟨msg, request, foreign, waits⟩
    change update (update (update (fun _ => Phase.idle) 0 (.filling 0)) 0
      (.waiting 0 0 .sysctl 0 none)) 1 (.filling 1) other = _ at waits
    rcases eq_or_ne other 1 with rfl | notSecond
    · cases waits
    · rw [update_of_ne notSecond] at waits
      rcases eq_or_ne other 0 with rfl | notFirst
      · cases waits
      · rw [update_of_ne notFirst, update_of_ne notFirst] at waits
        cases waits

/-- One tool asks, and is answered. -/
theorem outRing_oneRequest : (((freshSystem [0]).run allFeatures (asks 0 ++ answers)).ring 0
    MsgKind.sysctl.ring).length ≤ 1 := by
  refine @outRing_of_orderly allFeatures [0] (nodup_singleton 0) _ _ (asks 0 ++ answers) ?_ 0 _
    (MsgKind.ring_ne_ringIn _)
  refine ⟨trivial, ?_, trivial, trivial, trivial⟩
  rintro other ⟨msg, request, foreign, waits⟩
  change update (fun _ => Phase.idle) 0 (.filling 0) other = _ at waits
  rw [update_apply] at waits
  split at waits <;> cases waits

/-- Three tools ask the same process: the second frees the message of the first, the third
sends it again, and the first takes the answer to that for its own. -/
def crossed : List Action :=
  asks 0 ++ asks 1 ++ answers ++ [.receive 1, .release 1] ++ asks 2 ++ answers ++ [.receive 1] ++
    answers ++ [.receive 0]

/-- After a time-out a message is in the pool and in the in-ring; and without one a tool
may read the answer to the request of another. -/
theorem not_linear_timeOut_crossed :
    (((freshSystem [0]).run allFeatures (asks 0 ++ [.timeOut 0])).pool = [0] ∧
      ((freshSystem [0]).run allFeatures (asks 0 ++ [.timeOut 0])).ring 0 ringIn = [0] ∧
      ¬ Along (step allFeatures) (fun sys action => (sys.step allFeatures action).Exact [0])
        (freshSystem [0]) (asks 0 ++ [.timeOut 0])) ∧
    (((freshSystem [0, 1]).run allFeatures crossed).phase 0 = .answered 0 0 ∧
      ((freshSystem [0, 1]).run allFeatures crossed).answer 0 = some 2 ∧
      ¬ Along (step allFeatures)
        (fun sys action => (sys.step allFeatures action).Exact [0, 1]) (freshSystem [0, 1])
        crossed) := by
  refine ⟨⟨by decide, by decide, ?_⟩, by decide, by decide, ?_⟩
  · rintro ⟨-, -, exact, -⟩
    have inPool : 0 ∈ ((freshSystem [0]).run allFeatures (asks 0 ++ [.timeOut 0])).contents
        .pool := by decide
    have inRing : 0 ∈ ((freshSystem [0]).run allFeatures (asks 0 ++ [.timeOut 0])).contents
        (.ring 0 ringIn) := by decide
    cases exact.linear.place_eq inPool inRing
  · rintro ⟨-, -, -, -, -, -, -, -, -, -, -, -, -, -, -, exact, -⟩
    exact absurd (exact.own 0 0 0 (by decide)) (by decide)

end FStack.Ipc
