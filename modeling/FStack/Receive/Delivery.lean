import FStack.Receive.InFlight
import Mathlib.Data.Prod.Lex

/-!
# Delivery of neighbour frames

In a run in which every process moves again and again, a process gets through what it
has to do, and a packet in a dispatch ring is taken by the process that polls the queue.
-/

namespace FStack

open Fair Interleaved List

section Moves

variable {sys : FanOut} {move : RxMove} {state : SysState}
  {event : RxEvent} {rest : List RxEvent} {key : Nat × Nat}

theorem FanOut.move_busy (todo : (state.procs move.proc).todo = some (event :: rest)) :
    sys.move move state = performNext move.proc event rest state := by
  simp only [FanOut.move, todo]

theorem FanOut.move_idle (idle : (state.procs move.proc).todo = some [])
    (polled : (sys.polls move.proc)[(state.procs move.proc).pc / 2]? = some key) :
    sys.move move state =
      if (state.procs move.proc).pc % 2 = 0 then sys.takeFromRing move key state
      else sys.receive move key state := by
  simp only [FanOut.move, idle, polled]

theorem FanOut.performNext_procs {proc : Nat} :
    (performNext proc event rest state).procs proc =
      ⟨(state.procs proc).pc, (state.procs proc).current, some rest⟩ := by
  simp [performNext]

theorem FanOut.takeFromRing_procs :
    (sys.takeFromRing move key state).procs move.proc =
      ⟨sys.nextPc move.proc (state.procs move.proc).pc, key,
        sys.batchEvents move.proc key true move.memory ((state.rings key).take rxBurst)⟩ :=
  Function.update_self ..

/-- A process is moved by nobody else. -/
theorem FanOut.procs_move_other {proc : Nat} (other : move.proc ≠ proc) :
    (sys.move move state).procs proc = state.procs proc := by
  refine move_rule (motive := fun next => next.procs proc = state.procs proc) move state rfl
    ?_ ?_ ?_
  · intro event rest _
    simp [performNext, Function.update_of_ne other.symm]
  all_goals
    intro key _ _ _
    exact Function.update_of_ne other.symm _ _

/-- Events only add to the rings. -/
theorem SysState.perform_rings (state : SysState) (current : Nat × Nat) (event : RxEvent)
    (key : Nat × Nat) :
    ∃ new, (state.perform current event).rings key = state.rings key ++ new := by
  cases event with
  | toDispatchRing portId queueId pkt =>
    rcases eq_or_ne key (portId, queueId) with rfl | elsewhere
    · exact ⟨[pkt], Function.update_self ..⟩
    · exact ⟨[], by simp [perform, push, elsewhere]⟩
  | _ => exact ⟨[], (append_nil _).symm⟩

/-- Processes that do not poll a queue only add to its ring. -/
theorem FanOut.rings_move_other (other : key ∉ sys.polls move.proc) :
    ∃ new, (sys.move move state).rings key = state.rings key ++ new := by
  refine move_rule (motive := fun next => ∃ new, next.rings key = state.rings key ++ new)
    move state ⟨[], (append_nil _).symm⟩ ?_ ?_ ?_
  · exact fun event rest _ => state.perform_rings _ event key
  · intro taken _ polled _
    have elsewhere : key ≠ taken := fun same => other (same ▸ mem_of_getElem? polled)
    exact ⟨[], by simp [takeFromRing, elsewhere]⟩
  · exact fun _ _ _ _ => ⟨[], (append_nil _).symm⟩

/-- What was delivered stays so. -/
theorem FanOut.delivered_move (target : Target) (frame : Nat) :
    (target.delivered state).countP (carries frame) ≤
      (target.delivered (sys.move move state)).countP (carries frame) := by
  refine move_rule (motive := fun next => (target.delivered state).countP (carries frame) ≤
    (target.delivered next).countP (carries frame)) move state le_rfl ?_ ?_ ?_
  · intro event rest _
    refine le_trans (Nat.le_add_right _ _) (target.delivered_perform frame state
      (state.procs move.proc).current event).ge
  all_goals exact fun _ _ _ _ => le_rfl

theorem FanOut.received_move : state.received <+: (sys.move move state).received := by
  refine move_rule (motive := fun next => state.received <+: next.received) move state
    prefix_rfl ?_ ?_ ?_
  · intro event rest _
    exact (state.perform_received _ event) ▸ prefix_rfl
  · exact fun _ _ _ _ => prefix_rfl
  · exact fun key _ _ _ => receive_extends move key state

end Moves

/-- The states of a run of the machine. -/
abbrev FanOut.run (sys : FanOut) (choices : Nat → RxMove) : Nat → SysState :=
  sys.interleaved.stateAt initial choices

section Progress

variable {sys : FanOut} {choices : Nat → RxMove} {proc : Nat}

/-- A process performs every event it has to do. -/
theorem FanOut.performs (Chosen : Nat × Nat → RxEvent → Prop) (Goal : SysState → Prop)
    (effect : ∀ (state : SysState) (event : RxEvent) (rest : List RxEvent),
      (state.procs proc).todo = some (event :: rest) → Chosen (state.procs proc).current event →
        Goal (performNext proc event rest state))
    (fair : ∀ time, ∃ later, time ≤ later ∧ sys.interleaved.agent (choices later) = proc)
    {time : Nat}
    (waits : ∃ event ∈ ((sys.run choices time).procs proc).todo.getD [],
      Chosen ((sys.run choices time).procs proc).current event) :
    ∃ reached, time ≤ reached ∧ Goal (sys.run choices reached) := by
  refine leadsTo (fun state => ((state.procs proc).todo.getD []).length) proc
    (fun _ => True) (fun state => ∃ event ∈ (state.procs proc).todo.getD [],
      Chosen (state.procs proc).current event) (fun _ => trivial) ?_ wellFounded_lt ?_ fair waits
  · intro choice state other _ waits
    have same : (sys.interleaved.move choice state).procs proc = state.procs proc :=
      procs_move_other other
    rw [same]
    exact .inr ⟨waits, rfl⟩
  · rintro choice state helps - ⟨event, within, chosen⟩ -
    obtain rfl : choice.proc = proc := helps
    obtain ⟨first, rest, todo⟩ : ∃ first rest,
        (state.procs choice.proc).todo = some (first :: rest) := by
      match todo : (state.procs choice.proc).todo with
      | none => simp [todo] at within
      | some [] => simp [todo] at within
      | some (first :: rest) => exact ⟨first, rest, rfl⟩
    have moved : sys.interleaved.move choice state = performNext choice.proc first rest state :=
      move_busy todo
    rw [moved]
    by_cases now : Chosen (state.procs choice.proc).current first
    · exact .inl (effect state first rest todo now)
    · refine .inr ⟨⟨event, ?_, ?_⟩, ?_⟩
      · rw [todo] at within
        rcases mem_cons.mp within with rfl | later
        · exact absurd chosen now
        · simpa [performNext] using later
      · simpa [performNext] using chosen
      · simp [performNext, todo]

/-- Moves from a place in a loop of `size` places to `place`. -/
def stepsTo (size place pc : Nat) : Nat := if pc ≤ place then place - pc else place + size - pc

theorem stepsTo_next {size place pc : Nat} (inside : pc < size) (elsewhere : pc ≠ place)
    (reached : place < size) : stepsTo size place ((pc + 1) % size) < stepsTo size place pc := by
  rcases Nat.lt_or_ge (pc + 1) size with more | last
  · rw [Nat.mod_eq_of_lt more]
    unfold stepsTo
    split_ifs <;> omega
  · obtain rfl : pc + 1 = size := by omega
    rw [Nat.mod_self]
    unfold stepsTo
    split_ifs <;> omega

/-- More packets at the end leave the first one where it is. -/
theorem findIdx_append_of_exists {Value : Type} {P : Value → Bool} {values longer more : List Value}
    (appended : longer = values ++ more) (exists_P : ∃ value ∈ values, P value = true) :
    (∃ value ∈ longer, P value = true) ∧ longer.findIdx P = values.findIdx P := by
  subst appended
  constructor
  · obtain ⟨value, within, holds⟩ := exists_P
    exact ⟨value, mem_append_left _ within, holds⟩
  · rw [findIdx_append, if_pos (findIdx_lt_length.mpr exists_P)]

/-- Where a packet stands in the ring, how far the process is from taking from the
ring, and what it has to do before. -/
def FanOut.ringMeasure (sys : FanOut) (P : Packet → Bool) (proc place : Nat) (key : Nat × Nat)
    (state : SysState) : Nat ×ₗ Nat ×ₗ Nat :=
  toLex ((state.rings key).findIdx P,
    toLex (stepsTo (2 * (sys.polls proc).length) place (state.procs proc).pc,
      ((state.procs proc).todo.getD []).length))

section Measure

variable {P : Packet → Bool} {place : Nat} {key : Nat × Nat} {state next : SysState}

/-- The packet keeps its place, and the process gets closer to the ring. -/
theorem FanOut.ringMeasure_closer
    (found : (next.rings key).findIdx P = (state.rings key).findIdx P)
    (closer : stepsTo (2 * (sys.polls proc).length) place (next.procs proc).pc <
      stepsTo (2 * (sys.polls proc).length) place (state.procs proc).pc) :
    sys.ringMeasure P proc place key next < sys.ringMeasure P proc place key state :=
  Prod.Lex.toLex_lt_toLex.mpr (.inr ⟨found, Prod.Lex.toLex_lt_toLex.mpr (.inl closer)⟩)

/-- A batch without the packet brings it closer. -/
theorem findIdx_drop_lt {Value : Type} {P : Value → Bool} {values : List Value} {count : Nat}
    (positive : 0 < count) (later : ¬∃ value ∈ values.take count, P value = true)
    (exists_P : ∃ value ∈ values, P value = true) :
    (∃ value ∈ values.drop count, P value = true) ∧
      (values.drop count).findIdx P < values.findIdx P := by
  have before : (values.take count).findIdx P = (values.take count).length :=
    findIdx_eq_length.mpr fun value within =>
      Bool.eq_false_iff.mpr fun holds => later ⟨value, within, holds⟩
  have whole : values.findIdx P = (values.drop count).findIdx P + (values.take count).length := by
    conv_lhs => rw [← take_append_drop count values, findIdx_append]
    rw [if_neg (by omega)]
  obtain ⟨value, within, holds⟩ := exists_P
  have length := length_pos_of_mem within
  refine ⟨⟨value, ?_, holds⟩, ?_⟩
  · rw [← take_append_drop count values, mem_append] at within
    exact within.resolve_left fun early => later ⟨value, early, holds⟩
  · rw [whole, length_take]
    omega

variable (waits : ∃ pkt ∈ state.rings key, P pkt = true)

include waits

/-- Another process only adds to the ring. -/
theorem FanOut.ringMeasure_move_other (polled : key ∈ sys.polls proc) {choice : RxMove}
    (other : choice.proc ≠ proc) :
    (∃ pkt ∈ (sys.move choice state).rings key, P pkt = true) ∧
      sys.ringMeasure P proc place key (sys.move choice state) =
        sys.ringMeasure P proc place key state := by
  have elsewhere : key ∉ sys.polls choice.proc := by
    intro also
    have owner := ((sys.polls_iff _ _).mp polled).2
    exact other (((sys.polls_iff _ _).mp also).2.symm.trans owner)
  obtain ⟨new, more⟩ := @rings_move_other sys choice state key elsewhere
  obtain ⟨still, found⟩ := findIdx_append_of_exists more waits
  refine ⟨still, ?_⟩
  rw [ringMeasure, procs_move_other other]
  exact congrArg (fun index => toLex (index, _)) found

/-- Performing an event leaves less to do before the ring is looked at. -/
theorem FanOut.ringMeasure_performNext {event : RxEvent} {rest : List RxEvent}
    (todo : (state.procs proc).todo = some (event :: rest)) :
    (∃ pkt ∈ (performNext proc event rest state).rings key, P pkt = true) ∧
      sys.ringMeasure P proc place key (performNext proc event rest state) <
        sys.ringMeasure P proc place key state := by
  obtain ⟨new, more⟩ := state.perform_rings (state.procs proc).current event key
  obtain ⟨still, same⟩ := findIdx_append_of_exists more waits
  refine ⟨still, Prod.Lex.toLex_lt_toLex.mpr (.inr ⟨same, ?_⟩)⟩
  refine Prod.Lex.toLex_lt_toLex.mpr (.inr ⟨?_, ?_⟩)
  · simp [performNext_procs]
  · simp [performNext_procs, todo]

end Measure

/-- A packet in a ring is taken from it if its process runs again and again. -/
theorem FanOut.takes {P : Packet → Bool} {key : Nat × Nat} (polled : key ∈ sys.polls proc)
    (Known Goal : SysState → Prop)
    (running : ∀ time, (sys.run choices time).Running)
    (kept : ∀ (move : RxMove) (state : SysState), Known state → Known (sys.move move state))
    (effect : ∀ (state : SysState) (move : RxMove), sys.Sound state → Known state →
      move.proc = proc → (∃ pkt ∈ (state.rings key).take rxBurst, P pkt = true) →
        (sys.takeFromRing move key state).Running → Goal (sys.takeFromRing move key state))
    (fair : ∀ time, ∃ later, time ≤ later ∧ sys.interleaved.agent (choices later) = proc)
    {time : Nat} (known : Known (sys.run choices time))
    (waits : ∃ pkt ∈ (sys.run choices time).rings key, P pkt = true) :
    ∃ reached, time ≤ reached ∧ Goal (sys.run choices reached) := by
  obtain ⟨place, here⟩ := mem_iff_getElem?.mp polled
  have always (time : Nat) := And.intro (sound_stateAt running time) (running time)
  refine leadsTo (sys.ringMeasure P proc (2 * place) key) proc
    (fun state => sys.Sound state ∧ state.Running)
    (fun state => Known state ∧ ∃ pkt ∈ state.rings key, P pkt = true) always ?_ wellFounded_lt ?_
    fair ⟨known, waits⟩
  · intro choice state other _ ⟨known, waits⟩
    obtain ⟨still, same⟩ := ringMeasure_move_other waits polled other
    exact .inr ⟨⟨kept choice state known, still⟩, same⟩
  · intro choice state helps both ⟨known, waits⟩ both'
    have known' : Known (sys.interleaved.move choice state) := kept choice state known
    obtain rfl : choice.proc = proc := helps
    obtain ⟨sound, run⟩ := both
    have inLoop := sound.inLoop choice.proc (ne_nil_of_mem polled)
    have inside := (List.getElem?_eq_some_iff.mp here).1
    match todo : (state.procs choice.proc).todo with
    | none => exact absurd todo (run _)
    | some (event :: rest) =>
      have moved : sys.interleaved.move choice state = performNext choice.proc event rest state :=
        move_busy todo
      obtain ⟨still, less⟩ := ringMeasure_performNext waits todo
      rw [moved] at known' ⊢
      exact .inr ⟨⟨known', still⟩, less⟩
    | some [] =>
      obtain ⟨key', polled'⟩ : ∃ key', (sys.polls choice.proc)[(state.procs choice.proc).pc / 2]? =
          some key' := ⟨_, getElem?_eq_getElem (by omega)⟩
      have moved : sys.interleaved.move choice state =
          if (state.procs choice.proc).pc % 2 = 0 then sys.takeFromRing choice key' state
          else sys.receive choice key' state := move_idle todo polled'
      have closer (away : (state.procs choice.proc).pc ≠ 2 * place) :=
        stepsTo_next inLoop away (by omega)
      rw [moved] at both' known' ⊢
      by_cases even : (state.procs choice.proc).pc % 2 = 0
      · rw [if_pos even] at both' known' ⊢
        rcases eq_or_ne key' key with rfl | elsewhere
        · by_cases now : ∃ pkt ∈ (state.rings key').take rxBurst, P pkt = true
          · exact .inl (effect state choice sound known rfl now both'.2)
          · obtain ⟨still, lower⟩ := findIdx_drop_lt (by decide) now waits
            refine .inr ⟨⟨known', ?_⟩, Prod.Lex.toLex_lt_toLex.mpr (.inl ?_)⟩
            · simpa [takeFromRing] using still
            · simpa [takeFromRing] using lower
        · have rings : (sys.takeFromRing choice key' state).rings key = state.rings key := by
            simp [takeFromRing, elsewhere.symm]
          refine .inr ⟨⟨known', by rwa [rings]⟩, ringMeasure_closer (by rw [rings]) ?_⟩
          have away : (state.procs choice.proc).pc ≠ 2 * place := by
            intro there
            rw [there, Nat.mul_div_cancel_left _ (by decide), here] at polled'
            exact elsewhere (Option.some.inj polled').symm
          simpa [takeFromRing, nextPc] using closer away
      · rw [if_neg even] at both' known' ⊢
        refine .inr ⟨⟨known', waits⟩, ringMeasure_closer rfl ?_⟩
        simpa [receive, nextPc] using closer (by omega)

end Progress

section Arrival

variable {sys : FanOut} {choices : Nat → RxMove} {target : Target} {frame time : Nat}
  {reception : Reception}

theorem FanOut.received_stateAt {later : Nat} (after : time ≤ later) :
    (sys.run choices time).received <+: (sys.run choices later).received :=
  invariant_from
    (fun state : SysState => (sys.run choices time).received <+: state.received)
    prefix_rfl (fun _ _ before => before.trans received_move) after

/-- A frame number stands for one reception throughout a run. -/
theorem FanOut.same_reception (received : (sys.run choices time).received[frame]? = some reception)
    (any : Nat) : (sys.run choices any).received[frame]? = some reception ∨
      (sys.run choices any).received.length ≤ frame := by
  rcases Nat.le_total time any with after | before
  · exact .inl (getElem?_of_extended (received_stateAt after) received)
  · rcases Nat.lt_or_ge frame (sys.run choices any).received.length with known | unseen
    · have found := getElem?_eq_getElem known
      have later := getElem?_of_extended (received_stateAt before) found
      rw [found, ← later]
      exact .inl received
    · exact .inr unseen

section Fair

variable {proc : Nat}
  (fair : ∀ time, ∃ later, time ≤ later ∧ sys.interleaved.agent (choices later) = proc)

include fair

/-- A copy that a process has to hand over arrives. -/
theorem FanOut.arrives_of_finishes
    (waits : ∃ event ∈ ((sys.run choices time).procs proc).todo.getD [],
      target.finishes frame ((sys.run choices time).procs proc).current event = true) :
    ∃ reached, time ≤ reached ∧
      0 < (target.delivered (sys.run choices reached)).countP (carries frame) := by
  refine performs (fun current event => target.finishes frame current event = true)
    (fun state => 0 < (target.delivered state).countP (carries frame))
    (fun state event rest _ finishes => ?_) fair waits
  have arrived := target.delivered_perform frame state (state.procs proc).current event
  rw [if_pos finishes] at arrived
  change 0 < (target.delivered (state.perform _ event)).countP _
  omega

/-- A copy that a process has to forward gets into the ring. -/
theorem FanOut.rings_of_forwards
    (waits : ∃ event ∈ ((sys.run choices time).procs proc).todo.getD [],
      target.forwards frame event = true) :
    ∃ reached, time ≤ reached ∧
      0 < ((sys.run choices reached).rings target.key).countP (carries frame) := by
  refine performs (fun _ event => target.forwards frame event = true)
    (fun state => 0 < (state.rings target.key).countP (carries frame))
    (fun state event rest _ forwards => ?_) fair waits
  have enqueued := target.rings_perform frame state (state.procs proc).current event
  rw [if_pos forwards] at enqueued
  change 0 < ((state.perform _ event).rings _).countP _
  omega

end Fair

/-- A copy taken from the ring is to be handed over. -/
theorem FanOut.Sound.finishes_takeFromRing {state : SysState} {move : RxMove}
    (sound : sys.Sound state) (known : state.received[frame]? = some reception)
    (neighbour : IsNeighbour sys.globals.filter reception.pkt) (due : target.Due sys reception)
    (polled : target.key ∈ sys.polls move.proc)
    (within : ∃ pkt ∈ (state.rings target.key).take rxBurst, carries frame pkt = true)
    (running : (sys.takeFromRing move target.key state).Running) :
    ∃ event ∈ ((sys.takeFromRing move target.key state).procs move.proc).todo.getD [],
      target.finishes frame ((sys.takeFromRing move target.key state).procs move.proc).current
        event = true := by
  have answered := running move.proc
  rw [takeFromRing_procs] at answered ⊢
  obtain ⟨events, done⟩ := Option.ne_none_iff_exists'.mp answered
  have isDue : ∀ other, state.received[frame]? = some other →
      IsNeighbour sys.globals.filter other.pkt ∧ target.Due sys other := by
    intro other found
    obtain rfl : reception = other := Option.some.inj (known.symm.trans found)
    exact ⟨neighbour, due⟩
  have brought := sound.brings_takeFromRing done isDue polled
  rw [if_pos rfl] at brought
  have some_brings : 0 < events.countP (target.brings frame target.key) :=
    brought ▸ countP_pos_iff.mpr within
  obtain ⟨event, member, brings⟩ := countP_pos_iff.mp some_brings
  refine ⟨event, by rwa [done], (Bool.or_eq_true _ _ ▸ brings).resolve_right fun forwards => ?_⟩
  have never := batchEvents_fromRing done event member
  cases event with
  | toDispatchRing portId queueId pkt => exact never portId queueId pkt rfl
  | _ => cases forwards

/-- A frame arrives exactly once: never twice, and from some time on once. -/
def DeliveredOnce (arrivals : Nat → List Packet) (frame : Nat) : Prop :=
  (∀ time, (arrivals time).countP (carries frame) ≤ 1) ∧
    ∃ settled, ∀ time, settled ≤ time → (arrivals time).countP (carries frame) = 1

section Due

variable (fair : sys.interleaved.FairTo choices (· < sys.nbProcs))
  (running : ∀ time, (sys.run choices time).Running)
  (received : (sys.run choices time).received[frame]? = some reception)
  (neighbour : IsNeighbour sys.globals.filter reception.pkt) (due : target.Due sys reception)

include running received neighbour due

/-- There is at most one copy at any time. -/
theorem FanOut.credit_le_one (any : Nat) : sys.credit target frame (sys.run choices any) ≤ 1 := by
  have sound := sound_stateAt running any
  rcases same_reception received any with known | unseen
  · exact (sound.credited target frame reception known neighbour due).le
  · exact (sound.fresh target frame unseen).trans_le (Nat.zero_le 1)

include fair

/-- A copy of a neighbour frame arrives at each of its targets. -/
theorem FanOut.arrives :
    ∃ reached, time ≤ reached ∧
      0 < (target.delivered (sys.run choices reached)).countP (carries frame) := by
  have polled : target.key ∈ sys.polls (sys.owner target.key) :=
    (sys.polls_iff _ _).mpr ⟨due.queue, rfl⟩
  -- From the ring to the process that polls the queue, and from there to the target.
  have fromRing : ∀ from_then, time ≤ from_then →
      0 < ((sys.run choices from_then).rings target.key).countP (carries frame) →
      ∃ reached, time ≤ reached ∧
        0 < (target.delivered (sys.run choices reached)).countP (carries frame) := by
    intro from_then after inRing
    obtain ⟨taken, later, finishes⟩ := takes polled
      (fun state => state.received[frame]? = some reception)
      (fun state => ∃ event ∈ (state.procs (sys.owner target.key)).todo.getD [],
        target.finishes frame (state.procs (sys.owner target.key)).current event = true)
      running (fun move state known => getElem?_of_extended received_move known)
      (by
        intro state move sound known helps within running
        rw [← helps] at polled ⊢
        exact sound.finishes_takeFromRing known neighbour due polled within running)
      (fair _ (sys.owner_lt _ due.queue)) (getElem?_of_extended (received_stateAt after) received)
      (countP_pos_iff.mp inRing)
    obtain ⟨reached, last, arrived⟩ :=
      arrives_of_finishes (fair _ (sys.owner_lt _ due.queue)) finishes
    exact ⟨reached, by omega, arrived⟩
  have credit : sys.credit target frame (sys.run choices time) = 1 :=
    (sound_stateAt running time).credited target frame reception received neighbour due
  rcases Nat.eq_zero_or_pos ((target.delivered (sys.run choices time)).countP (carries frame))
    with notYet | arrived
  · rcases Nat.eq_zero_or_pos (((sys.run choices time).rings target.key).countP (carries frame))
      with notThere | inRing
    · rw [FanOut.credit] at credit
      have busy : ∑ proc ∈ Finset.range sys.nbProcs,
          target.pending frame ((sys.run choices time).procs proc) ≠ 0 := by omega
      obtain ⟨proc, member, pending⟩ := Finset.exists_ne_zero_of_sum_ne_zero busy
      obtain ⟨event, within, brings⟩ := countP_pos_iff.mp (Nat.pos_of_ne_zero pending)
      have moves := fair proc (mem_range.mp member)
      rcases Bool.or_eq_true_iff.mp brings with finishes | forwards
      · exact arrives_of_finishes moves ⟨event, within, finishes⟩
      · obtain ⟨enqueued, after, inRing⟩ := rings_of_forwards moves ⟨event, within, forwards⟩
        exact fromRing enqueued after inRing
    · exact fromRing time le_rfl inRing
  · exact ⟨time, le_rfl, arrived⟩

/-- The frame is delivered, and once. -/
theorem FanOut.deliveredOnce :
    DeliveredOnce (fun later => target.delivered (sys.run choices later)) frame := by
  have atMost (any : Nat) : (target.delivered (sys.run choices any)).countP (carries frame) ≤ 1 := by
    have credit := credit_le_one running received neighbour due any
    rw [FanOut.credit] at credit
    omega
  refine ⟨atMost, ?_⟩
  obtain ⟨settled, -, arrived⟩ := arrives fair running received neighbour due
  refine ⟨settled, fun later after => Nat.le_antisymm (atMost later) ?_⟩
  exact invariant_from
    (fun state => 1 ≤ (target.delivered state).countP (carries frame)) arrived
    (fun _ _ already => already.trans (delivered_move target frame)) after

end Due

/-- A frame that the NIC flagged reaches no stack. -/
theorem FanOut.flagged_not_delivered
    (running : ∀ time, (sys.run choices time).Running)
    (received : (sys.run choices time).received[frame]? = some reception)
    (flagged : (sys.rxCsum reception.key.1 && csumBad reception.pkt) = true) (queue later : Nat) :
    ((sys.run choices later).stack (reception.key.1, queue)).countP (carries frame) = 0 := by
  refine countP_eq_zero.mpr fun pkt within carried => ?_
  obtain ⟨⟨other, found, -, copy⟩, kept⟩ := (sound_stateAt running later).stack _ pkt within
  have own : pkt.frame = frame := of_decide_eq_true carried
  rw [own] at found
  obtain rfl : reception = other := by
    rcases same_reception received later with known | unseen
    · exact Option.some.inj (known.symm.trans found)
    · exact absurd (List.getElem?_eq_some_iff.mp found).1 (Nat.not_lt.mpr unseen)
  rw [copy.csumBad, flagged] at kept
  cases kept

end Arrival

end FStack
