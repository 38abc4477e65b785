import FStack.Receive.Conservation

/-!
# What is in flight

Every packet in a ring or a stack is a copy of a frame that was received on the port,
and for every neighbour frame received there is one copy on the way to each of its
targets or there.
-/

namespace FStack

open Fair Function List

/-- A packet for a queue is a copy of a frame received on its port. -/
def SysState.Traced (state : SysState) (key : Nat × Nat) (pkt : Packet) : Prop :=
  ∃ reception, state.received[pkt.frame]? = some reception ∧ reception.key.1 = key.1 ∧
    CopyOf reception.pkt pkt

/-- Packets are handed on only for frames received, and flagged ones not to a stack. -/
def FanOut.Accounted (sys : FanOut) (state : SysState) (current : Nat × Nat) : RxEvent → Prop
  | .toStack pkt _ => state.Traced current pkt ∧ (sys.rxCsum current.1 && csumBad pkt) = false
  | .toDispatchRing portId queueId pkt => state.Traced (portId, queueId) pkt
  | _ => True

/-- The classifier has answered wherever it was asked. -/
def SysState.Running (state : SysState) : Prop :=
  ∀ proc, (state.procs proc).todo ≠ none

/-- The invariant of the machine. -/
structure FanOut.Sound (sys : FanOut) (state : SysState) : Prop where
  idle : ∀ proc, sys.nbProcs ≤ proc → (state.procs proc).todo = some []
  inLoop : ∀ proc, sys.polls proc ≠ [] → (state.procs proc).pc < 2 * (sys.polls proc).length
  rings : ∀ key, ∀ pkt ∈ state.rings key, state.Traced key pkt
  stack : ∀ key, ∀ pkt ∈ state.stack key,
    state.Traced key pkt ∧ (sys.rxCsum key.1 && csumBad pkt) = false
  todo : ∀ proc, ∀ event ∈ (state.procs proc).todo.getD [],
    sys.Accounted state (state.procs proc).current event
  recorded : ∀ (number : Nat) (reception : Reception),
    state.received[number]? = some reception → reception.pkt.frame = number
  fresh : ∀ target frame, state.received.length ≤ frame → sys.credit target frame state = 0
  credited : ∀ target frame (reception : Reception), state.received[frame]? = some reception →
    IsNeighbour sys.globals.filter reception.pkt → target.Due sys reception →
      sys.credit target frame state = 1

section Numbers

theorem FanOut.numbered_frames (first : Nat) (frames : List RxFrame) :
    (numbered first frames).map Packet.frame = range' first (numbered first frames).length := by
  have stamps : Packet.frame ∘ (fun entry : RxFrame × Nat => entry.1.stamped (first + entry.2)) =
      (first + ·) ∘ Prod.snd := rfl
  rw [numbered, map_map, stamps, ← map_map, zipIdx_map_snd, map_add_range',
    length_map, length_zipIdx, Nat.add_zero]

variable {first : Nat} {frames : List RxFrame}

theorem FanOut.numbered_frame {index : Nat} {pkt : Packet}
    (found : (numbered first frames)[index]? = some pkt) : pkt.frame = first + index := by
  obtain ⟨inside, rfl⟩ := List.getElem?_eq_some_iff.mp found
  have numbers := congrArg (·[index]?) (numbered_frames first frames)
  simpa [inside] using numbers

theorem FanOut.numbered_inside {pkt : Packet} (within : pkt ∈ numbered first frames) :
    pkt.head.dataLen.toNat ≤ pkt.head.room.length := by
  obtain ⟨entry, -, rfl⟩ := mem_map.mp within
  exact entry.1.inside

/-- A number of the burst is carried by one of its packets. -/
theorem FanOut.countP_numbered {index : Nat} (inside : index < (numbered first frames).length) :
    (numbered first frames).countP (carries (first + index)) = 1 := by
  have counted : (numbered first frames).countP (carries (first + index)) =
      ((numbered first frames).map Packet.frame).count (first + index) := by
    rw [count, countP_map]
    rfl
  rw [counted, numbered_frames]
  refine count_eq_one_of_mem nodup_range' ?_
  rw [mem_range'_1]
  omega

end Numbers

section Rules

variable {sys : FanOut}

/-- A move is one of four things. -/
theorem FanOut.move_rule {motive : SysState → Prop} (move : RxMove) (state : SysState)
    (stays : motive state)
    (performs : ∀ event rest, (state.procs move.proc).todo = some (event :: rest) →
      motive (performNext move.proc event rest state))
    (takes : ∀ key, (state.procs move.proc).todo = some [] →
      (sys.polls move.proc)[(state.procs move.proc).pc / 2]? = some key →
      (state.procs move.proc).pc % 2 = 0 → motive (sys.takeFromRing move key state))
    (receives : ∀ key, (state.procs move.proc).todo = some [] →
      (sys.polls move.proc)[(state.procs move.proc).pc / 2]? = some key →
      (state.procs move.proc).pc % 2 ≠ 0 → motive (sys.receive move key state)) :
    motive (sys.move move state) := by
  simp only [FanOut.move]
  split
  · exact stays
  · next event rest todo => exact performs event rest todo
  · next idle =>
      split
      · exact stays
      · next key polled =>
          split_ifs with even
          · exact takes key idle polled even
          · exact receives key idle polled even

variable {key : Nat × Nat} {state state' : SysState}

/-- A process that polls a queue is one of the machine's. -/
theorem FanOut.proc_lt {proc : Nat} (polled : key ∈ sys.polls proc) : proc < sys.nbProcs := by
  obtain ⟨queue, rfl⟩ := (sys.polls_iff proc key).mp polled
  exact sys.owner_lt key queue

theorem getElem?_of_extended {Value : Type} {short long : List Value} (more : short <+: long)
    {index : Nat} {value : Value} (found : short[index]? = some value) :
    long[index]? = some value := by
  obtain ⟨rest, rfl⟩ := more
  rwa [getElem?_append_left (List.getElem?_eq_some_iff.mp found).1]

/-- More receptions leave packets traced. -/
theorem SysState.Traced.mono (more : state.received <+: state'.received) {pkt : Packet}
    (traced : state.Traced key pkt) : state'.Traced key pkt := by
  obtain ⟨reception, found, port, copy⟩ := traced
  exact ⟨reception, getElem?_of_extended more found, port, copy⟩

theorem FanOut.Accounted.mono (more : state.received <+: state'.received) {current : Nat × Nat}
    {event : RxEvent} (accounted : sys.Accounted state current event) :
    sys.Accounted state' current event := by
  cases event with
  | toStack pkt chain => exact ⟨accounted.1.mono more, accounted.2⟩
  | toDispatchRing portId queueId pkt => exact SysState.Traced.mono more accounted
  | _ => trivial

end Rules

section Packets

variable {sys : FanOut} {state : SysState} {proc : Nat} {key : Nat × Nat}

/-- Copies of copies, segment by segment. -/
theorem forall₂_segmentCopy_trans {segs copies again : List RteMbuf}
    (first : List.Forall₂ SegmentCopy segs copies) (second : List.Forall₂ SegmentCopy copies again) :
    List.Forall₂ SegmentCopy segs again := by
  induction first generalizing again with
  | nil => exact second
  | cons here _ ih =>
    cases second with
    | cons next rest => exact .cons (here.trans next) (ih rest)

theorem CopyOf.trans {orig copy again : Packet} (first : CopyOf orig copy)
    (second : CopyOf copy again) : CopyOf orig again := by
  refine ⟨forall₂_segmentCopy_trans first.segs second.segs, fun offset before => ?_,
    second.pktLen.trans first.pktLen, second.frame.trans first.frame⟩
  rw [first.bytes offset before]
  exact second.bytes offset (by rwa [first.head.dataLen])

/-- What is done with a packet that was received, or taken from a ring, is accounted for. -/
theorem processPacket_accounted {pkt : Packet} (traced : state.Traced key pkt) {fromRing : Bool}
    (inside : fromRing = false → pkt.head.dataLen.toNat ≤ pkt.head.room.length) {addr : Nat}
    {memory : CloneMemory} {events : List RxEvent}
    (done : processPacket (sys.globalsOf proc) (sys.callFor key fromRing) addr pkt
      memory.granted = some events) :
    ∀ event ∈ events, sys.Accounted state key event := by
  intro event within
  cases processPacket_emits (sys.globalsOf_noDispatcher proc) done event within with
  | cloned | toKniRing | freed => trivial
  | toDispatchRing queueId nic frame copies =>
    obtain ⟨reception, found, port, original⟩ := traced
    exact ⟨reception, by rw [frame]; exact found, port, original.trans (copies (inside nic))⟩
  | toStack chain kept => exact ⟨traced, kept⟩

end Packets

section Steps

variable {sys : FanOut} {state : SysState} {move : RxMove} {key : Nat × Nat} {events : List RxEvent}
  {frame : Nat} {target : Target}

section Taking

variable (sound : sys.Sound state)
  (done : sys.batchEvents move.proc key true move.memory ((state.rings key).take rxBurst) =
    some events)

include sound done

/-- What a process has to do after taking packets from a ring is accounted for. -/
theorem FanOut.Sound.accounted_takeFromRing : ∀ event ∈ events, sys.Accounted state key event := by
  refine batchEvents_forall done fun pkt within addr memory events step => ?_
  have traced := sound.rings key pkt (mem_of_mem_take within)
  refine processPacket_accounted traced ?_ step
  exact fun nic => absurd nic (by decide)

variable (due : ∀ reception, state.received[frame]? = some reception →
    IsNeighbour sys.globals.filter reception.pkt ∧ target.Due sys reception)
  (polled : key ∈ sys.polls move.proc)

include due polled

/-- Packets of a due frame taken from a ring arrive where that ring leads. -/
theorem FanOut.Sound.brings_takeFromRing :
    events.countP (target.brings frame key) =
      if key = target.key then ((state.rings key).take rxBurst).countP (carries frame) else 0 := by
  rw [batchEvents_brings (if key = target.key then 1 else 0) done]
  · split_ifs <;> omega
  intro pkt within own addr memory events step
  obtain ⟨reception, found, port, copy⟩ := sound.rings key pkt (mem_of_mem_take within)
  rw [own] at found
  obtain ⟨neighbour, reaches⟩ := due reception found
  obtain rfl := sound.recorded frame reception found
  rw [processPacket_brings reaches (port.symm.trans reaches.port) polled neighbour copy step]
  by_cases here : key = target.key <;> simp [here]

/-- Taking packets from a ring keeps the copies of due frames, and of frames not
received. -/
theorem FanOut.Sound.credit_takeFromRing (idle : (state.procs move.proc).todo = some []) :
    sys.credit target frame (sys.takeFromRing move key state) = sys.credit target frame state :=
  FanOut.credit_takeFromRing (proc_lt polled) idle done (sound.brings_takeFromRing done due polled)

end Taking

section

variable (move : RxMove) (key : Nat × Nat) (state : SysState)

/-- The frames of a burst are recorded. -/
theorem FanOut.receive_traced {pkt : Packet}
    (within : pkt ∈ numbered state.received.length move.frames) :
    (sys.receive move key state).received[pkt.frame]? = some ⟨key, pkt⟩ := by
  obtain ⟨index, found⟩ := mem_iff_getElem?.mp within
  rw [numbered_frame found]
  simp only [receive]
  rw [getElem?_append_right (Nat.le_add_right ..), Nat.add_sub_cancel_left, getElem?_map,
    found]
  rfl

theorem FanOut.receive_extends :
    state.received <+: (sys.receive move key state).received := prefix_append ..

end

variable (done : sys.batchEvents move.proc key false move.memory
  (FanOut.numbered state.received.length move.frames) = some events)

include done

/-- What a process has to do after receiving frames is accounted for. -/
theorem FanOut.accounted_receive :
    ∀ event ∈ events, sys.Accounted (sys.receive move key state) key event := by
  refine batchEvents_forall done fun pkt within addr memory events step => ?_
  have traced : (sys.receive move key state).Traced key pkt :=
    ⟨⟨key, pkt⟩, receive_traced move key state within, rfl, .refl pkt⟩
  exact processPacket_accounted traced (fun _ => numbered_inside within) step

variable (idle : (state.procs move.proc).todo = some []) (polled : key ∈ sys.polls move.proc)

include idle polled

/-- Receiving other frames keeps the copies of a frame. -/
theorem FanOut.credit_receive_other (target : Target)
    (others : ∀ pkt ∈ numbered state.received.length move.frames, pkt.frame ≠ frame) :
    sys.credit target frame (sys.receive move key state) = sys.credit target frame state := by
  rw [credit_receive (proc_lt polled) idle done,
    batchEvents_brings 0 done fun pkt within own => absurd own (others pkt within), Nat.zero_mul,
    Nat.add_zero]

/-- Receiving a neighbour frame makes one copy for each of its targets. -/
theorem FanOut.credit_receive_new {index : Nat} {pkt : Packet}
    (found : (numbered state.received.length move.frames)[index]? = some pkt)
    (neighbour : IsNeighbour sys.globals.filter pkt) (due : target.Due sys ⟨key, pkt⟩) :
    sys.credit target (state.received.length + index) (sys.receive move key state) =
      sys.credit target (state.received.length + index) state + 1 := by
  rw [credit_receive (proc_lt polled) idle done, batchEvents_brings 1 done,
    countP_numbered (List.getElem?_eq_some_iff.mp found).1]
  intro other within own addr memory events step
  obtain ⟨index', found'⟩ := mem_iff_getElem?.mp within
  obtain rfl : index' = index := by
    have number := numbered_frame found'
    omega
  obtain rfl : pkt = other := Option.some.inj (found.symm.trans found')
  rw [← own]
  exact processPacket_brings due due.port polled neighbour (.refl pkt) step

end Steps

section Invariant

variable {sys : FanOut} {state : SysState} {move : RxMove} {key : Nat × Nat} {pkt : Packet}
  {event : RxEvent} {proc : Nat} {events : List RxEvent}

theorem mem_push {Key : Type} [DecidableEq Key] {lists : Key → List Packet} {key here : Key}
    {pkt' : Packet} (within : pkt ∈ push lists key pkt' here) :
    pkt ∈ lists here ∨ here = key ∧ pkt = pkt' := by
  by_cases same : here = key
  · subst same
    simpa [push] using within
  · exact .inl (by simpa [push, same] using within)

variable {current : Nat × Nat} {rest : List RxEvent}

theorem FanOut.mem_rings_perform (within : pkt ∈ (state.perform current event).rings key) :
    pkt ∈ state.rings key ∨ event = .toDispatchRing key.1 key.2 pkt := by
  cases event with
  | toDispatchRing portId queueId pkt' =>
    rcases mem_push within with before | ⟨rfl, rfl⟩
    · exact .inl before
    · exact .inr rfl
  | _ => exact .inl within

theorem FanOut.mem_stack_perform (within : pkt ∈ (state.perform current event).stack key) :
    pkt ∈ state.stack key ∨ key = current ∧ ∃ chain, event = .toStack pkt chain := by
  cases event with
  | toStack pkt' chain =>
    rcases mem_push within with before | ⟨rfl, rfl⟩
    · exact .inl before
    · exact .inr ⟨rfl, chain, rfl⟩
  | _ => exact .inl within

/-- Only the machine's processes have something to do. -/
theorem FanOut.Sound.busy_lt (sound : sys.Sound state)
    (todo : (state.procs proc).todo = some (event :: rest)) : proc < sys.nbProcs := by
  by_contra outside
  rw [sound.idle proc (Nat.le_of_not_lt outside)] at todo
  exact absurd (Option.some.inj todo) (cons_ne_nil _ _).symm

/-- What one process does keeps the others as they are. -/
theorem FanOut.Sound.replace (sound : sys.Sound state) {next : SysState} {process : ProcState}
    (inside : proc < sys.nbProcs) (procs : next.procs = update state.procs proc process)
    (inLoop : sys.polls proc ≠ [] → process.pc < 2 * (sys.polls proc).length)
    (more : state.received <+: next.received)
    (rings : ∀ key, ∀ pkt ∈ next.rings key, pkt ∈ state.rings key ∨ state.Traced key pkt)
    (stack : ∀ key, ∀ pkt ∈ next.stack key, pkt ∈ state.stack key ∨
      state.Traced key pkt ∧ (sys.rxCsum key.1 && csumBad pkt) = false)
    (accounted : ∀ event ∈ process.todo.getD [], sys.Accounted next process.current event)
    (recorded : ∀ (number : Nat) (reception : Reception),
      next.received[number]? = some reception → reception.pkt.frame = number)
    (fresh : ∀ target frame, next.received.length ≤ frame → sys.credit target frame next = 0)
    (credited : ∀ target frame (reception : Reception), next.received[frame]? = some reception →
      IsNeighbour sys.globals.filter reception.pkt → target.Due sys reception →
        sys.credit target frame next = 1) : sys.Sound next := by
  refine
    { idle := ?_, inLoop := ?_, rings := ?_, stack := ?_, todo := ?_, recorded := recorded,
      fresh := fresh, credited := credited }
  · intro other outside
    rw [procs, update_of_ne (by omega)]
    exact sound.idle other outside
  · intro other polls
    rw [procs]
    rcases eq_or_ne other proc with rfl | another
    · rw [update_self]
      exact inLoop polls
    · rw [update_of_ne another]
      exact sound.inLoop other polls
  · intro key pkt within
    exact ((rings key pkt within).elim (sound.rings key pkt) id).mono more
  · intro key pkt within
    obtain ⟨traced, kept⟩ := (stack key pkt within).elim (sound.stack key pkt) id
    exact ⟨traced.mono more, kept⟩
  · intro other event within
    rw [procs] at within ⊢
    rcases eq_or_ne other proc with rfl | another
    · rw [update_self] at within ⊢
      exact accounted event within
    · rw [update_of_ne another] at within ⊢
      exact (sound.todo other event within).mono more

/-- Carrying out the next event keeps every packet traceable. -/
theorem FanOut.Sound.performNext (sound : sys.Sound state)
    (todo : (state.procs proc).todo = some (event :: rest)) :
    sys.Sound (performNext proc event rest state) := by
  have inside := sound.busy_lt todo
  have received : (FanOut.performNext proc event rest state).received = state.received :=
    state.perform_received _ event
  have procs : (FanOut.performNext proc event rest state).procs =
      update state.procs proc { state.procs proc with todo := some rest } := by
    simp [FanOut.performNext]
  have same : state.received <+: (FanOut.performNext proc event rest state).received := by
    rw [received]
  have accounted : sys.Accounted state (state.procs proc).current event :=
    sound.todo proc event (by simp [todo])
  refine sound.replace inside procs (sound.inLoop proc) same ?_ ?_ ?_ ?_ ?_ ?_
  · intro key pkt within
    rcases mem_rings_perform within with before | rfl
    · exact .inl before
    · exact .inr accounted
  · intro key pkt within
    rcases mem_stack_perform within with before | ⟨rfl, chain, rfl⟩
    · exact .inl before
    · exact .inr accounted
  · intro later within
    have member : later ∈ rest := within
    exact (sound.todo proc later (by simp [todo, member])).mono same
  · rw [received]
    exact sound.recorded
  · intro target frame
    rw [received, credit_performNext inside todo]
    exact sound.fresh target frame
  · intro target frame reception
    rw [received, credit_performNext inside todo]
    exact sound.credited target frame reception

theorem FanOut.nextPc_lt (pc : Nat) (polls : sys.polls proc ≠ []) :
    sys.nextPc proc pc < 2 * (sys.polls proc).length := by
  have := length_pos_iff.mpr polls
  exact Nat.mod_lt _ (by omega)

/-- So does taking a batch from a ring. -/
theorem FanOut.Sound.takeFromRing (sound : sys.Sound state)
    (idle : (state.procs move.proc).todo = some []) (polled : key ∈ sys.polls move.proc)
    (done : sys.batchEvents move.proc key true move.memory ((state.rings key).take rxBurst) =
      some events) : sys.Sound (sys.takeFromRing move key state) := by
  refine sound.replace (proc_lt polled) (by simp only [FanOut.takeFromRing, done]; rfl) (nextPc_lt _)
    prefix_rfl (fun other pkt within => .inl ?_) (fun _ _ => .inl) (sound.accounted_takeFromRing done)
    sound.recorded ?_ ?_
  · dsimp only [FanOut.takeFromRing] at within
    rcases eq_or_ne other key with rfl | another
    · rw [update_self] at within
      exact mem_of_mem_drop within
    · rwa [update_of_ne another] at within
  · intro target frame unseen
    rw [sound.credit_takeFromRing done ?_ polled idle]
    · exact sound.fresh target frame unseen
    · intro reception found
      have seen := (List.getElem?_eq_some_iff.mp found).1
      exact absurd unseen (Nat.not_le.mpr seen)
  · intro target frame reception found neighbour due
    rw [sound.credit_takeFromRing done ?_ polled idle]
    · exact sound.credited target frame reception found neighbour due
    · intro other found'
      obtain rfl : reception = other := Option.some.inj (found.symm.trans found')
      exact ⟨neighbour, due⟩

/-- A reception is an old one or one of the burst. -/
theorem FanOut.receive_received {number : Nat} {reception : Reception}
    (found : (sys.receive move key state).received[number]? = some reception) :
    number < state.received.length ∧ state.received[number]? = some reception ∨
      ∃ index pkt, number = state.received.length + index ∧
        (numbered state.received.length move.frames)[index]? = some pkt ∧
        reception = ⟨key, pkt⟩ := by
  simp only [receive] at found
  rcases Nat.lt_or_ge number state.received.length with before | after
  · rw [getElem?_append_left before] at found
    exact .inl ⟨before, found⟩
  · rw [getElem?_append_right after, getElem?_map] at found
    obtain ⟨pkt, burst, rfl⟩ := Option.map_eq_some_iff.mp found
    exact .inr ⟨number - state.received.length, pkt, by omega, burst, rfl⟩

/-- So does receiving a batch from the device. -/
theorem FanOut.Sound.receive (sound : sys.Sound state)
    (idle : (state.procs move.proc).todo = some []) (polled : key ∈ sys.polls move.proc)
    (done : sys.batchEvents move.proc key false move.memory
      (numbered state.received.length move.frames) = some events) :
    sys.Sound (sys.receive move key state) := by
  refine sound.replace (proc_lt polled) (by simp only [FanOut.receive, done]; rfl) (nextPc_lt _)
    (receive_extends move key state) (fun _ _ => .inl) (fun _ _ => .inl) ?_ ?_ ?_ ?_
  · exact accounted_receive done
  · intro number reception found
    rcases receive_received found with ⟨-, old⟩ | ⟨index, pkt, rfl, new, rfl⟩
    · exact sound.recorded number reception old
    · exact numbered_frame new
  · intro target frame unseen
    have length : (sys.receive move key state).received.length = state.received.length +
        (numbered state.received.length move.frames).length := by
      simp [FanOut.receive]
    rw [credit_receive_other done idle polled target]
    · exact sound.fresh target frame (by omega)
    · intro pkt within own
      obtain ⟨index, found⟩ := mem_iff_getElem?.mp within
      have number := numbered_frame found
      have inside := (List.getElem?_eq_some_iff.mp found).1
      omega
  · intro target frame reception found neighbour due
    rcases receive_received found with ⟨before, old⟩ | ⟨index, pkt, rfl, new, rfl⟩
    · rw [credit_receive_other done idle polled target]
      · exact sound.credited target frame reception old neighbour due
      · intro pkt within own
        obtain ⟨index, found⟩ := mem_iff_getElem?.mp within
        have number := numbered_frame found
        omega
    · rw [credit_receive_new done idle polled new neighbour due,
        sound.fresh target _ (Nat.le_add_right ..)]

/-- A move after which the classifier has answered keeps the machine sound. -/
theorem FanOut.Sound.moved (sound : sys.Sound state) (move : RxMove)
    (running : (sys.move move state).Running) : sys.Sound (sys.move move state) := by
  have own (next : SysState) (process : ProcState)
      (procs : next.procs = update state.procs move.proc process) (running : next.Running) :
      ∃ events, process.todo = some events := by
    have answered := running move.proc
    rw [procs, update_self] at answered
    exact Option.ne_none_iff_exists'.mp answered
  refine move_rule (motive := fun next => next.Running → sys.Sound next) move state
    (fun _ => sound) ?_ ?_ ?_ running
  · exact fun event rest todo _ => sound.performNext todo
  · intro key idle polled _ running
    obtain ⟨events, done⟩ := own _ _ rfl running
    exact sound.takeFromRing idle (mem_of_getElem? polled) done
  · intro key idle polled _ running
    obtain ⟨events, done⟩ := own _ _ rfl running
    exact sound.receive idle (mem_of_getElem? polled) done

/-- At the start nothing is in flight. -/
theorem FanOut.sound_initial (sys : FanOut) : sys.Sound initial where
  idle _ _ := rfl
  inLoop proc polls := by
    have := length_pos_iff.mpr polls
    show 0 < _
    omega
  rings _ _ within := absurd within not_mem_nil
  stack _ _ within := absurd within not_mem_nil
  todo _ _ within := absurd within not_mem_nil
  recorded _ _ found := nomatch found
  fresh target frame _ := by
    have delivered : target.delivered initial = [] := by
      simp [Target.delivered, initial]
    simp only [credit, delivered]
    simp [initial, Target.pending]
  credited _ _ _ found := nomatch found

variable {choices : Nat → RxMove}

/-- Every state of a run is sound, as long as the classifier answers. -/
theorem FanOut.sound_stateAt
    (running : ∀ time, (sys.interleaved.stateAt initial choices time).Running) (time : Nat) :
    sys.Sound (sys.interleaved.stateAt initial choices time) := by
  induction time with
  | zero => exact sys.sound_initial
  | succ time ih => exact ih.moved (choices time) (running (time + 1))

end Invariant

end FStack
