import FStack.Micro.Waiting

/-!
# A socket that sessions share

All sessions of a `UdpSessionNtfy` send and receive on its socket. Each has a `SessionProxy`, which
is added to the kqueue and deleted from it in place of the socket: an interest in reading changes
nothing, since the socket is listened to from its creation on, and an interest in writing is passed
to the notifier, which also keeps the list of the proxies that wait to write.

The notifier drops the write event as soon as one proxy is deleted, and the kqueue proxy drops the
read filter when the write event is added. Nothing sets `_flag` of a proxy before it is read for the
first time.
-/

namespace FStack.Micro

open Event (Filter has has_or)
open Function KqueueProxy List Steps

/-- `UdpSessionNtfy`, with the kqueue proxy, and `_flag` of the session proxies. -/
structure UdpSessionNtfy where
  kqueue : KqueueProxy
  osfd : Int
  self : ObjPtr
  /-- `KQ_EVENT_WRITE` of its own events. -/
  output : Bool
  writeList : List Nat
  flag : Nat → Bool
  /-- `TAILQ_REMOVE` was used on an entry that is in no list. -/
  broken : Bool

/-- A session proxy is added or deleted, with its events at that time. -/
inductive ProxyCall where
  | add (proxy : Nat) (events : BitVec 32)
  | del (proxy : Nat) (events : BitVec 32)
deriving DecidableEq, Repr

namespace UdpSessionNtfy

/-- `InsertWriteWait`. -/
def insertWriteWait (ntfy : UdpSessionNtfy) (proxy : Nat) : UdpSessionNtfy :=
  if ntfy.flag proxy then ntfy
  else { ntfy with
    writeList := ntfy.writeList ++ [proxy]
    flag := update ntfy.flag proxy true }

/-- `RemoveWriteWait`. -/
def removeWriteWait (ntfy : UdpSessionNtfy) (proxy : Nat) : UdpSessionNtfy :=
  if ntfy.flag proxy then
    { ntfy with
      writeList := ntfy.writeList.erase proxy
      flag := update ntfy.flag proxy false
      broken := ntfy.broken || !ntfy.writeList.contains proxy }
  else ntfy

/-- `UdpSessionNtfy::KqueueCtlAdd`. -/
def kqueueCtlAdd (ntfy : UdpSessionNtfy) (accepts : Change → Bool) : UdpSessionNtfy × Int :=
  let oldObj := (ntfy.kqueue.kqrefs ntfy.osfd).kqobj
  if oldObj ≠ none ∧ oldObj ≠ some ntfy.self then (ntfy, -1)
  else
    match ntfy.kqueue.kqueueCtrlAdd accepts ntfy.osfd kqEventWrite with
    | (kqueue, true) => ({ ntfy with kqueue, output := true }, 0)
    | (kqueue, false) => ({ ntfy with kqueue }, -2)

/-- `UdpSessionNtfy::KqueueCtlDel`. -/
def kqueueCtlDel (ntfy : UdpSessionNtfy) (accepts : Change → Bool) : UdpSessionNtfy × Int :=
  let oldObj := (ntfy.kqueue.kqrefs ntfy.osfd).kqobj
  if oldObj ≠ some ntfy.self then (ntfy, -1)
  else
    match ntfy.kqueue.kqueueCtrlDel accepts ntfy.osfd kqEventWrite with
    | (kqueue, true) => ({ ntfy with kqueue, output := false }, 0)
    | (kqueue, false) => ({ ntfy with kqueue }, -2)

/-- `SessionProxy::KqueueCtlAdd`, for a proxy of the notifier. -/
def proxyCtlAdd (ntfy : UdpSessionNtfy) (accepts : Change → Bool) (proxy : Nat)
    (events : BitVec 32) : UdpSessionNtfy × Int :=
  if !has events kqEventWrite then (ntfy, 0)
  else
    let (added, ret) := ntfy.kqueueCtlAdd accepts
    if ret < 0 then (added, -2) else (added.insertWriteWait proxy, 0)

/-- `SessionProxy::KqueueCtlDel`. -/
def proxyCtlDel (ntfy : UdpSessionNtfy) (accepts : Change → Bool) (proxy : Nat)
    (events : BitVec 32) : UdpSessionNtfy × Int :=
  if !has events kqEventWrite then (ntfy, 0)
  else (ntfy.removeWriteWait proxy).kqueueCtlDel accepts

/-- `KqueueAddObj` and `KqueueDelObj` for a session proxy, whose descriptor is that of the
notifier. -/
def proxyStep (accepts : Change → Bool) (ntfy : UdpSessionNtfy) (call : ProxyCall) :
    UdpSessionNtfy :=
  if (ntfy.kqueue.kqFdRefGet ntfy.osfd).isNone then ntfy
  else match call with
    | .add proxy events => (ntfy.proxyCtlAdd accepts proxy events).1
    | .del proxy events => (ntfy.proxyCtlDel accepts proxy events).1

/-- `CreateSocket`, for a socket it has made; `flag` is what the memory of the proxies holds. -/
def createSocket (kqueue : KqueueProxy) (accepts : Change → Bool) (osfd : Int) (self : ObjPtr)
    (flag : Nat → Bool) : UdpSessionNtfy where
  kqueue := ((kqueue.kqueueNtfyReg osfd (some self)).kqueueCtrlAdd accepts osfd kqEventRead).1
  osfd := osfd
  self := self
  output := false
  writeList := []
  flag := flag
  broken := false

/-- No `ff_kevent` fails. -/
def always (_ : Change) : Bool := true

def step (ntfy : UdpSessionNtfy) (call : ProxyCall) : UdpSessionNtfy := ntfy.proxyStep always call

/-- A new socket on a new kqueue. -/
def created (maxNum osfd : Int) (self : ObjPtr) (flag : Nat → Bool) : UdpSessionNtfy :=
  createSocket (initKqueue maxNum) always osfd self flag

/-- The write filter is there exactly while a proxy waits to write, in a list that is one. -/
def WriteInterest (ntfy : UdpSessionNtfy) : Prop :=
  ntfy.kqueue.registered (ntfy.osfd, .write) = !ntfy.writeList.isEmpty ∧ ntfy.broken = false

instance : DecidablePred WriteInterest := fun _ => inferInstanceAs (Decidable (_ ∧ _))

/-- And the read filter is there at any time. -/
def Interest (ntfy : UdpSessionNtfy) : Prop :=
  ntfy.WriteInterest ∧ ntfy.kqueue.registered (ntfy.osfd, .read) = true

instance : DecidablePred Interest := fun _ => inferInstanceAs (Decidable (_ ∧ _))

/-- No proxy is added for writing, and none is deleted for it whose `_flag` is set by chance. -/
def Quiet (flag : Nat → Bool) : ProxyCall → Prop
  | .add _ events => has events kqEventWrite = false
  | .del proxy events => has events kqEventWrite = true → flag proxy = false

instance (flag : Nat → Bool) : DecidablePred (Quiet flag)
  | .add .. => inferInstanceAs (Decidable (_ = _))
  | .del .. => inferInstanceAs (Decidable (_ → _))

/-- No other proxy waits to write when one is deleted for writing. -/
def Alone (ntfy : UdpSessionNtfy) : ProxyCall → Prop
  | .add .. => True
  | .del proxy events => has events kqEventWrite = true → ∀ other ∈ ntfy.writeList, other = proxy

instance (ntfy : UdpSessionNtfy) : DecidablePred ntfy.Alone
  | .add .. => inferInstanceAs (Decidable True)
  | .del .. => inferInstanceAs (Decidable (_ → _))

/-- What the kqueue has for a socket. The mask has the read event, and the write event while the
socket waits to write; the read filter is there while it does not. -/
structure Listens (kqueue : KqueueProxy) (osfd : Int) (owner : ObjPtr) (waiting : Bool) : Prop where
  found : kqueue.kqFdRefGet osfd = some (kqueue.kqrefs osfd)
  own : (kqueue.kqrefs osfd).kqobj = some owner
  mask : (kqueue.kqrefs osfd).events = if waiting then kqEventRead ||| kqEventWrite else kqEventRead
  write : kqueue.registered (osfd, .write) = waiting
  read : waiting = false → kqueue.registered (osfd, .read) = true

/-- A descriptor keeps its entry while the size of the table stays. -/
theorem found_of_maxfd {proxy next : KqueueProxy} {fd : Int}
    (found : proxy.kqFdRefGet fd = some (proxy.kqrefs fd)) (same : next.maxfd = proxy.maxfd) :
    next.kqFdRefGet fd = some (next.kqrefs fd) := by
  unfold kqFdRefGet at found ⊢
  rw [same]
  split_ifs at found ⊢
  rfl

variable {ntfy : UdpSessionNtfy} {waiting : Bool}

section Kqueue

variable (listens : Listens ntfy.kqueue ntfy.osfd ntfy.self waiting)

include listens

/-- The socket is added for writing: the filters are exchanged if no proxy waits yet. -/
theorem Listens.ctlAdd :
    ∃ kqueue, ntfy.kqueueCtlAdd always = ({ ntfy with kqueue, output := true }, 0) ∧
      Listens kqueue ntfy.osfd ntfy.self true ∧
      (waiting = false → kqueue.registered (ntfy.osfd, .read) = false) := by
  obtain ⟨ok, size, obj, registered⟩ := @KqueueProxy.kqueueCtrlAdd_accepted ntfy.kqueue always
    ntfy.osfd kqEventWrite listens.found fun _ => rfl
  have mask := kqueueCtrlAdd_events ok
  have mine : ¬ ((ntfy.kqueue.kqrefs ntfy.osfd).kqobj ≠ none ∧
      (ntfy.kqueue.kqrefs ntfy.osfd).kqobj ≠ some ntfy.self) := fun other => other.2 listens.own
  refine ⟨_, ?_, ⟨found_of_maxfd listens.found size, obj.trans listens.own, ?_, ?_,
    fun never => Bool.noConfusion never⟩, ?_⟩
  · unfold kqueueCtlAdd
    rw [if_neg mine]
    generalize ntfy.kqueue.kqueueCtrlAdd always ntfy.osfd kqEventWrite = answer at ok ⊢
    obtain ⟨kqueue, done⟩ := answer
    cases ok
    rfl
  · rw [mask, listens.mask]
    cases waiting <;> decide
  · rw [registered, listens.mask, listens.write]
    cases waiting <;> decide
  · rintro rfl
    rw [registered, listens.mask, listens.read rfl]
    decide

/-- The write event is dropped: the read filter comes back if it was gone. -/
theorem Listens.ctlDel :
    ∃ kqueue, ntfy.kqueueCtlDel always = ({ ntfy with kqueue, output := false }, 0) ∧
      Listens kqueue ntfy.osfd ntfy.self false := by
  obtain ⟨ok, size, obj, mask, registered⟩ := @KqueueProxy.kqueueCtrlDel_accepted ntfy.kqueue always
    ntfy.osfd kqEventWrite listens.found fun _ => rfl
  refine ⟨_, ?_, found_of_maxfd listens.found size, obj.trans listens.own, ?_, ?_, fun _ => ?_⟩
  · unfold kqueueCtlDel
    rw [if_neg (not_not.mpr listens.own)]
    generalize ntfy.kqueue.kqueueCtrlDel always ntfy.osfd kqEventWrite = answer at ok ⊢
    obtain ⟨kqueue, done⟩ := answer
    cases ok
    rfl
  · rw [mask, listens.mask]
    cases waiting <;> decide
  · rw [registered, listens.mask, listens.write]
    cases waiting <;> decide
  · rw [registered, listens.mask]
    cases waiting with
    | false => rw [listens.read rfl]; decide
    | true => cases ntfy.kqueue.registered (ntfy.osfd, .read) <;> decide

variable {proxy : Nat} {events : BitVec 32}

/-- A call without the write event changes nothing. -/
theorem Listens.step_quiet {call : ProxyCall} (idle : match call with
    | .add _ events | .del _ events => has events kqEventWrite = false) : ntfy.step call = ntfy := by
  unfold step proxyStep
  rw [listens.found]
  cases call with
  | add proxy events =>
    dsimp only at idle
    simp only [proxyCtlAdd, idle, Bool.not_false, if_true, Option.isNone_some, ite_self]
  | del proxy events =>
    dsimp only at idle
    simp only [proxyCtlDel, idle, Bool.not_false, if_true, Option.isNone_some, ite_self]

/-- Adding the write event takes the read filter away, and the proxy waits. -/
theorem Listens.step_add (wanted : has events kqEventWrite = true) :
    ∃ kqueue, ntfy.step (.add proxy events) =
        insertWriteWait { ntfy with kqueue, output := true } proxy ∧
      Listens kqueue ntfy.osfd ntfy.self true ∧
      (waiting = false → kqueue.registered (ntfy.osfd, .read) = false) := by
  obtain ⟨kqueue, answer, rest⟩ := listens.ctlAdd
  refine ⟨kqueue, ?_, rest⟩
  unfold step proxyStep
  rw [listens.found]
  simp only [proxyCtlAdd, wanted, answer]
  rfl

/-- Deleting the write event brings the read filter back. -/
theorem Listens.step_del (wanted : has events kqEventWrite = true) :
    ∃ kqueue, ntfy.step (.del proxy events) =
        { ntfy with
          kqueue
          output := false
          writeList := (ntfy.removeWriteWait proxy).writeList
          flag := (ntfy.removeWriteWait proxy).flag
          broken := (ntfy.removeWriteWait proxy).broken } ∧
      Listens kqueue ntfy.osfd ntfy.self false := by
  have same : (ntfy.removeWriteWait proxy).kqueue = ntfy.kqueue ∧
      (ntfy.removeWriteWait proxy).osfd = ntfy.osfd ∧
      (ntfy.removeWriteWait proxy).self = ntfy.self := by
    unfold removeWriteWait
    split <;> exact ⟨rfl, rfl, rfl⟩
  have found := listens.found
  rw [← same.1, ← same.2.1, ← same.2.2] at listens
  obtain ⟨kqueue, answer, rest⟩ := listens.ctlDel
  rw [same.2.1, same.2.2] at rest
  refine ⟨kqueue, ?_, rest⟩
  unfold step proxyStep
  rw [found]
  simp only [proxyCtlDel, wanted, answer, same]
  rfl

end Kqueue

/-- No proxy waits, and the flags are as they were found. -/
structure Idle (flag : Nat → Bool) (ntfy : UdpSessionNtfy) : Prop where
  listens : Listens ntfy.kqueue ntfy.osfd ntfy.self false
  none : ntfy.writeList = []
  flags : ntfy.flag = flag
  sound : ntfy.broken = false

section Idle

variable {flag : Nat → Bool} (idle : Idle flag ntfy) {call : ProxyCall}

include idle

theorem Idle.interest : ntfy.Interest := by
  refine ⟨⟨?_, idle.sound⟩, idle.listens.read rfl⟩
  rw [idle.listens.write, idle.none]
  rfl

/-- A quiet call keeps everything idle. -/
theorem Idle.step (quiet : Quiet flag call) : Idle flag (ntfy.step call) := by
  cases call with
  | add proxy events => rwa [idle.listens.step_quiet quiet]
  | del proxy events =>
    cases wanted : has events kqEventWrite with
    | false => rwa [idle.listens.step_quiet wanted]
    | true =>
      obtain ⟨kqueue, after, listens⟩ := idle.listens.step_del wanted
      have stays : ntfy.removeWriteWait proxy = ntfy := by
        unfold removeWriteWait
        rw [idle.flags, quiet wanted]
        rfl
      rw [after, stays]
      exact ⟨listens, idle.none, idle.flags, idle.sound⟩

/-- A proxy that is added for writing takes the read filter away at once. -/
theorem Idle.kept_iff : (ntfy.step call).Interest ↔ Quiet flag call := by
  refine ⟨fun interest => ?_, fun quiet => (idle.step quiet).interest⟩
  cases call with
  | add proxy events =>
    refine Bool.eq_false_iff.mpr fun wanted => ?_
    obtain ⟨kqueue, after, -, gone⟩ := idle.listens.step_add wanted
    have read := interest.2
    rw [after] at read
    unfold insertWriteWait at read
    split_ifs at read <;> exact Bool.false_ne_true ((gone rfl).symm.trans read)
  | del proxy events =>
    intro wanted
    obtain ⟨kqueue, after, -⟩ := idle.listens.step_del wanted
    have sound := interest.1.2
    rw [after] at sound
    refine Bool.eq_false_iff.mpr fun set => ?_
    have removed : (ntfy.removeWriteWait proxy).broken = true := by
      unfold removeWriteWait
      rw [if_pos (by rw [idle.flags, set]), idle.none]
      exact Bool.or_true _
    exact Bool.false_ne_true (sound.symm.trans removed)

end Idle

/-- The list is that of the flags, and the socket waits while it is not empty. -/
structure Shared (ntfy : UdpSessionNtfy) : Prop where
  listens : Listens ntfy.kqueue ntfy.osfd ntfy.self (!ntfy.writeList.isEmpty)
  flags : ∀ proxy, ntfy.flag proxy = true ↔ proxy ∈ ntfy.writeList
  distinct : ntfy.writeList.Nodup
  sound : ntfy.broken = false

namespace Shared

variable (shared : ntfy.Shared) {proxy : Nat} {events : BitVec 32} {call : ProxyCall}

include shared

/-- Every proxy may be added while others wait. -/
theorem insert {kqueue : KqueueProxy} (listens : Listens kqueue ntfy.osfd ntfy.self true) :
    (insertWriteWait { ntfy with kqueue, output := true } proxy).Shared := by
  unfold insertWriteWait
  dsimp only
  split_ifs with set
  · have there := (shared.flags proxy).mp set
    have waits : (!ntfy.writeList.isEmpty) = true := by
      rw [Bool.not_eq_true', isEmpty_eq_false_iff]
      exact ne_nil_of_mem there
    exact ⟨waits ▸ listens, shared.flags, shared.distinct, shared.sound⟩
  · have absent : proxy ∉ ntfy.writeList := fun there => set ((shared.flags proxy).mpr there)
    refine ⟨?_, fun other => ?_, ?_, shared.sound⟩
    · have waits : (!(ntfy.writeList ++ [proxy]).isEmpty) = true := by simp
      exact waits ▸ listens
    · dsimp only
      rcases eq_or_ne other proxy with rfl | different
      · simp
      · simp [different, shared.flags other]
    · exact concat_eq_append ▸ shared.distinct.concat absent

/-- What is left of the list. -/
theorem removed (proxy : Nat) : (ntfy.removeWriteWait proxy).writeList = ntfy.writeList.erase proxy ∧
    (∀ other, (ntfy.removeWriteWait proxy).flag other = true ↔
      other ∈ ntfy.writeList.erase proxy) ∧ (ntfy.removeWriteWait proxy).broken = false := by
  unfold removeWriteWait
  split_ifs with set
  · have there := (shared.flags proxy).mp set
    refine ⟨rfl, fun other => ?_, ?_⟩
    · rw [shared.distinct.mem_erase_iff, ← shared.flags other]
      dsimp only
      rcases eq_or_ne other proxy with rfl | different
      · simp
      · simp [different]
    · dsimp only
      rw [shared.sound, contains_iff_mem.mpr there]
      rfl
  · have absent : proxy ∉ ntfy.writeList := fun there => set ((shared.flags proxy).mpr there)
    rw [erase_of_not_mem absent]
    exact ⟨rfl, shared.flags, shared.sound⟩

theorem erase_eq_nil_iff :
    ntfy.writeList.erase proxy = [] ↔ ∀ other ∈ ntfy.writeList, other = proxy := by
  simp only [eq_nil_iff_forall_not_mem, shared.distinct.mem_erase_iff, not_and', not_not]

/-- If nobody else waits to write, a call keeps list, flags and filters in step. -/
theorem step (alone : ntfy.Alone call) : (ntfy.step call).Shared := by
  cases call with
  | add proxy events =>
    cases wanted : has events kqEventWrite with
    | false => rwa [shared.listens.step_quiet wanted]
    | true =>
      obtain ⟨kqueue, after, listens, -⟩ := shared.listens.step_add wanted
      rw [after]
      exact shared.insert listens
  | del proxy events =>
    cases wanted : has events kqEventWrite with
    | false => rwa [shared.listens.step_quiet wanted]
    | true =>
      obtain ⟨kqueue, after, listens⟩ := shared.listens.step_del wanted
      obtain ⟨left, flags, sound⟩ := shared.removed proxy
      rw [shared.erase_eq_nil_iff.mpr (alone wanted)] at left flags
      rw [after, left]
      exact ⟨listens, flags, nodup_nil, sound⟩

/-- One of several proxies that wait takes the write filter away when it is deleted. -/
theorem alone_of_writeInterest (interest : (ntfy.step call).WriteInterest) : ntfy.Alone call := by
  cases call with
  | add => trivial
  | del proxy events =>
    intro wanted
    obtain ⟨kqueue, after, listens⟩ := @Listens.step_del ntfy _ shared.listens proxy events wanted
    have empty := interest.1
    rw [after, listens.write, (shared.removed proxy).1] at empty
    rw [← shared.erase_eq_nil_iff, ← List.isEmpty_iff]
    exact (Bool.not_eq_eq_eq_not.mp empty.symm)

/-- While the list is that of the flags, the filters are right but for the read filter while a
proxy waits. -/
theorem interest : ntfy.WriteInterest ∧ (ntfy.writeList = [] → ntfy.Interest) := by
  have write : ntfy.WriteInterest := ⟨shared.listens.write, shared.sound⟩
  refine ⟨write, fun none => ⟨write, shared.listens.read ?_⟩⟩
  rw [none]
  rfl

end Shared

/-- The new socket is registered for reading. -/
theorem created_listens {maxNum osfd : Int} (nonneg : 0 ≤ osfd)
    (inside : osfd < (initKqueue maxNum).maxfd) (self : ObjPtr) (flag : Nat → Bool) :
    Listens (created maxNum osfd self flag).kqueue osfd self false := by
  have found : (initKqueue maxNum).kqFdRefGet osfd =
      some ((initKqueue maxNum).kqrefs osfd) := if_neg (by omega)
  have known : (initKqueue maxNum).kqueueNtfyReg osfd (some self) =
      (initKqueue maxNum).setNotifyObj osfd (some self) := by
    unfold kqueueNtfyReg
    rw [found]
    rfl
  have entry : ((initKqueue maxNum).setNotifyObj osfd (some self)).kqrefs osfd =
      ⟨0, 0, 0, some self⟩ := update_self ..
  obtain ⟨ok, size, obj, registered⟩ := @KqueueProxy.kqueueCtrlAdd_accepted
    ((initKqueue maxNum).setNotifyObj osfd (some self)) always osfd kqEventRead
    (found_of_maxfd found rfl) fun _ => rfl
  have mask := kqueueCtrlAdd_events ok
  have clear (filter : Filter) : ((initKqueue maxNum).setNotifyObj osfd
      (some self)).registered (osfd, filter) = false := rfl
  have first : (0 : BitVec 32) ||| kqEventRead = kqEventRead := by decide
  simp only [entry, clear] at obj mask registered
  unfold created createSocket
  rw [known]
  exact ⟨found_of_maxfd found size, obj, mask.trans first, (registered .write).trans (by decide),
    fun _ => (registered .read).trans (by decide)⟩

/-- The filters are right after every call exactly if no proxy is ever added for writing, and none
deleted for it whose flag is set by chance. With all flags clear the write filter is right exactly
if no proxy is deleted for writing while another one waits; then only the read filter is missing,
and only while a proxy waits. -/
theorem interest_iff {maxNum osfd : Int} (nonneg : 0 ≤ osfd)
    (inside : osfd < (initKqueue maxNum).maxfd) (self : ObjPtr) (flag : Nat → Bool)
    (calls : List ProxyCall) :
    (Along step (fun ntfy call => (ntfy.step call).Interest) (created maxNum osfd self flag) calls ↔
      ∀ call ∈ calls, Quiet flag call) ∧
    (Along step (fun ntfy call => (ntfy.step call).WriteInterest ∧
      ((ntfy.step call).writeList = [] → (ntfy.step call).Interest))
      (created maxNum osfd self fun _ => false) calls ↔
      Along step Alone (created maxNum osfd self fun _ => false) calls) := by
  constructor
  · have start : Idle flag (created maxNum osfd self flag) :=
      ⟨created_listens nonneg inside self flag, rfl, rfl, rfl⟩
    rw [along_iff (Idle flag) (fun ntfy call idle => idle.kept_iff)
      (fun ntfy call idle interest => idle.step (idle.kept_iff.mp interest)) start,
      along_inputs_iff]
  · have start : Shared (created maxNum osfd self fun _ => false) :=
      ⟨created_listens nonneg inside self _, fun _ => iff_of_false Bool.false_ne_true not_mem_nil,
        nodup_nil, rfl⟩
    exact along_iff Shared (fun ntfy call shared =>
        ⟨fun interest => shared.alone_of_writeInterest interest.1,
          fun alone => (shared.step alone).interest⟩)
      (fun ntfy call shared interest => shared.step (shared.alone_of_writeInterest interest.1)) start

/-- Two proxies that only read; and two that wait to write one after the other. -/
theorem interest_readers :
    Along step (fun ntfy call => (ntfy.step call).Interest)
      (created 0 5 (.lasting 1) (decide <| · = 7))
      [.add 1 kqEventRead, .add 2 kqEventRead, .del 1 kqEventRead,
        .del 2 (kqEventRead ||| kqEventWrite)] ∧
    Along step (fun ntfy call => (ntfy.step call).WriteInterest ∧
      ((ntfy.step call).writeList = [] → (ntfy.step call).Interest))
      (created 0 5 (.lasting 1) fun _ => false)
      [.add 1 kqEventRead, .add 2 kqEventWrite, .del 2 kqEventWrite,
        .add 1 (kqEventRead ||| kqEventWrite), .del 1 (kqEventRead ||| kqEventWrite)] :=
  ⟨(interest_iff (by decide) (by decide) _ _ _).1.mpr (by decide +kernel),
    (interest_iff (by decide) (by decide) _ (fun _ => false) _).2.mpr (by decide +kernel)⟩

/-- The read filter is gone as soon as a proxy waits to write; when two wait and one is deleted,
the write filter is gone while the other waits; and a proxy that never waited is taken out of the
list if its flag is set by chance. -/
theorem not_interest_waiting :
    ¬ Along step (fun ntfy call => (ntfy.step call).Interest)
      (created 0 5 (.lasting 1) fun _ => false) [.add 1 kqEventWrite] ∧
    ¬ Along step (fun ntfy call => (ntfy.step call).WriteInterest)
      (created 0 5 (.lasting 1) fun _ => false)
      [.add 1 kqEventWrite, .add 2 kqEventWrite, .del 1 kqEventWrite] ∧
    ¬ Along step (fun ntfy call => (ntfy.step call).Interest)
      (created 0 5 (.lasting 1) fun _ => true) [.del 1 kqEventWrite] := by
  decide +kernel

end UdpSessionNtfy

end FStack.Micro
