import FStack.Config.Check
import FStack.Rss.Redirection
import FStack.Std.Lists

/-!
# Which process polls which queue

Every process finds its own queues in `init_lcore_conf`: for each configured
port, its queue is the last position of its lcore in the port's list of lcores.
`Covered` says that this leaves no queue without exactly one process, and that
every entry of a port's redirection table names a queue that is polled.
-/

namespace FStack

open Fallible List Settings

/-- `MAX_RX_QUEUE_PER_LCORE`. -/
def maxRxQueuePerLcore : Nat := 16

/-- `struct lcore_rx_queue`. -/
structure LcoreRxQueue where
  portId : UInt16
  queueId : Nat
deriving DecidableEq, Repr

/-- The part of `struct lcore_conf` that `init_lcore_conf` fills. -/
structure LcoreConf where
  rxQueueList : List LcoreRxQueue := []
  txPortId : List UInt16 := []
  txQueueId : Nat → Nat := fun _ => 0
  nbQueueList : Nat → Nat := fun _ => 0

/-- How `init_lcore_conf` fails: the process ends, or it writes outside a table. -/
inductive LcoreFault where
  | rteExit
  | undefined
deriving DecidableEq, Repr

/-- What the EAL reports about the machine. -/
structure Machine where
  nbDevPorts : UInt8
  lcoreIsEnabled : UInt16 → Bool

/-- The loop of `init_lcore_conf` over a port's lcores. -/
def searchQueue (lcoreId : UInt16) : Nat → Int → List UInt16 → Int
  | _, queueid, [] => queueid
  | i, queueid, lcore :: rest =>
    searchQueue lcoreId (i + 1) (if lcore = lcoreId then i else queueid) rest

/-- The loop body of `init_lcore_conf` for one port. -/
def initLcorePort (settings : Settings) (lcoreId : UInt16) (conf : LcoreConf) (portid : UInt16) :
    Except LcoreFault LcoreConf :=
  match settings.portCfg portid with
  | .error _ => .error .undefined
  | .ok pconf =>
    let queueid := searchQueue lcoreId 0 (-1) pconf.lcores
    if queueid < 0 then .ok conf
    else if maxRxQueuePerLcore ≤ conf.rxQueueList.length then .error .undefined
    else
      .ok
        { rxQueueList := conf.rxQueueList ++ [{ portId := portid, queueId := queueid.toNat }]
          txPortId := conf.txPortId ++ [portid]
          txQueueId := Function.update conf.txQueueId portid.toNat queueid.toNat
          nbQueueList := Function.update conf.nbQueueList portid.toNat pconf.nbLcores }

/-- `init_lcore_conf`. -/
def initLcoreConf (machine : Machine) (cfg : FfConfig) : Except LcoreFault LcoreConf :=
  if machine.nbDevPorts = 0 then .error .rteExit
  else if machine.nbDevPorts.toNat ≤ cfg.settings.maxPortid.toNat then .error .rteExit
  else
    match cfg.lcoreId with
    | none => .error .undefined
    | some lcoreId =>
      if !machine.lcoreIsEnabled lcoreId then .error .rteExit
      else do
        let conf ← cfg.settings.portidList.foldlM (initLcorePort cfg.settings lcoreId) {}
        if conf.rxQueueList = [] then .error .rteExit else .ok conf

/-- The search goes on behind the first part of the list. -/
theorem searchQueue_append (lcoreId : UInt16) (i : Nat) (queueid : Int)
    (before after : List UInt16) :
    searchQueue lcoreId i queueid (before ++ after) =
      searchQueue lcoreId (i + before.length) (searchQueue lcoreId i queueid before) after := by
  induction before generalizing i queueid with
  | nil => rfl
  | cons lcore rest ih =>
    simp only [cons_append, searchQueue, ih, length_cons]
    rw [Nat.add_assoc, Nat.add_comm 1]

variable {lcoreId : UInt16} {pc : PortCfg} {queue : Nat} {settings : Settings}

theorem searchQueue_of_not_mem {lcores : List UInt16} (i : Nat) (queueid : Int)
    (absent : lcoreId ∉ lcores) : searchQueue lcoreId i queueid lcores = queueid := by
  induction lcores generalizing i queueid with
  | nil => rfl
  | cons lcore rest ih =>
    rw [mem_cons, not_or] at absent
    rw [searchQueue, if_neg (Ne.symm absent.1), ih (i + 1) queueid absent.2]

/-- The queue of an lcore on a port, where the port lists the lcore. -/
def PortCfg.queueOf (pc : PortCfg) (lcoreId : UInt16) : Option Nat :=
  let queueid := searchQueue lcoreId 0 (-1) pc.lcores
  if queueid < 0 then none else some queueid.toNat

theorem queueOf_eq_none (absent : lcoreId ∉ pc.lcores) : pc.queueOf lcoreId = none := by
  simp [PortCfg.queueOf, searchQueue_of_not_mem 0 (-1) absent]

theorem queueOf_eq_some {before after : List UInt16}
    (lcores : pc.lcores = before ++ lcoreId :: after) (last : lcoreId ∉ after) :
    pc.queueOf lcoreId = some before.length := by
  have found : searchQueue lcoreId 0 (-1) pc.lcores = before.length := by
    rw [lcores, searchQueue_append, searchQueue, searchQueue_of_not_mem _ _ last]
    simp
  simp [PortCfg.queueOf, found]

/-- An lcore has a queue of the port exactly if the port lists it. -/
theorem queueOf_isSome_iff : (pc.queueOf lcoreId).isSome = true ↔ lcoreId ∈ pc.lcores := by
  constructor
  · intro found
    by_contra absent
    rw [queueOf_eq_none absent] at found
    cases found
  · intro member
    obtain ⟨before, after, lcores, last⟩ := Lists.eq_append_cons_of_mem_last member
    rw [queueOf_eq_some lcores last]
    rfl

/-- The queue found is a place of the lcore, and no later one is. -/
theorem queueOf_place (found : pc.queueOf lcoreId = some queue) :
    pc.lcores[queue]? = some lcoreId ∧ ∀ later, queue < later → pc.lcores[later]? ≠ some lcoreId := by
  have member : lcoreId ∈ pc.lcores := queueOf_isSome_iff.mp (by rw [found]; rfl)
  obtain ⟨before, after, lcores, last⟩ := Lists.eq_append_cons_of_mem_last member
  rw [queueOf_eq_some lcores last] at found
  obtain rfl := Option.some.inj found
  refine ⟨by simp [lcores], fun later behind place => last ?_⟩
  rw [lcores, getElem?_append_right (by omega)] at place
  obtain ⟨k, shift⟩ : ∃ k, later - before.length = k + 1 := ⟨later - before.length - 1, by omega⟩
  rw [shift] at place
  exact mem_of_getElem? place

/-- In a list without repetition every place is the place that is found. -/
theorem queueOf_of_nodup (distinct : pc.lcores.Nodup) (place : pc.lcores[queue]? = some lcoreId) :
    pc.queueOf lcoreId = some queue := by
  obtain ⟨found, some_queue⟩ :=
    Option.isSome_iff_exists.mp (queueOf_isSome_iff.mpr (mem_of_getElem? place))
  have same := (queueOf_place some_queue).1
  have inside := (List.getElem?_eq_some_iff.mp same).1
  rw [some_queue, (getElem?_inj inside distinct).mp (same.trans place.symm)]

/-- The queue of an lcore on a configured port. -/
def Settings.queueOf (settings : Settings) (lcoreId portid : UInt16) : Option Nat :=
  match settings.portCfg portid with
  | .error _ => none
  | .ok pc => pc.queueOf lcoreId

/-- The queues an lcore has to poll. -/
def Settings.rxQueues (settings : Settings) (lcoreId : UInt16) (ports : List UInt16) :
    List LcoreRxQueue :=
  ports.filterMap fun portid =>
    (settings.queueOf lcoreId portid).map fun queue => { portId := portid, queueId := queue }

/-- A configured port lists an lcore. -/
def Settings.listsLcore (settings : Settings) (lcoreId portid : UInt16) : Bool :=
  match settings.portCfg portid with
  | .error _ => false
  | .ok pc => lcoreId ∈ pc.lcores

theorem queueOf_isSome (settings : Settings) (lcoreId portid : UInt16) :
    (settings.queueOf lcoreId portid).isSome = settings.listsLcore lcoreId portid := by
  unfold queueOf listsLcore
  split
  · rfl
  · exact Bool.eq_iff_iff.mpr (queueOf_isSome_iff.trans decide_eq_true_iff.symm)

/-- A process has a queue on each of its ports that lists its lcore. -/
theorem rxQueues_length (settings : Settings) (lcoreId : UInt16) (ports : List UInt16) :
    (settings.rxQueues lcoreId ports).length =
      (ports.filter (settings.listsLcore lcoreId)).length := by
  induction ports with
  | nil => rfl
  | cons portid rest ih =>
    have lists := queueOf_isSome settings lcoreId portid
    unfold rxQueues at ih ⊢
    cases found : settings.queueOf lcoreId portid with
    | none =>
      rw [found] at lists
      rw [filter_cons_of_neg (by simp [← lists]), filterMap_cons, found]
      exact ih
    | some queue =>
      rw [found] at lists
      rw [filter_cons_of_pos lists.symm, filterMap_cons, found]
      simpa using ih

variable {portid : UInt16} {ports : List UInt16}

theorem mem_rxQueues :
    { portId := portid, queueId := queue } ∈ settings.rxQueues lcoreId ports ↔
      portid ∈ ports ∧ settings.queueOf lcoreId portid = some queue := by
  simp only [rxQueues, mem_filterMap, Option.map_eq_some_iff]
  constructor
  · rintro ⟨portid', member, queue', found, same⟩
    obtain ⟨rfl, rfl⟩ := LcoreRxQueue.mk.inj same
    exact ⟨member, found⟩
  · rintro ⟨member, found⟩
    exact ⟨portid, member, queue, found, rfl⟩

/-- One port of the loop: its queue is added, unless the table is full. -/
theorem initLcorePort_eq (known : settings.portCfg portid = .ok pc) (lcoreId : UInt16)
    (conf : LcoreConf) :
    match settings.queueOf lcoreId portid with
    | none => initLcorePort settings lcoreId conf portid = .ok conf
    | some queue =>
      if conf.rxQueueList.length < maxRxQueuePerLcore then
        ∃ next, initLcorePort settings lcoreId conf portid = .ok next ∧
          next.rxQueueList = conf.rxQueueList ++ [{ portId := portid, queueId := queue }]
      else initLcorePort settings lcoreId conf portid = .error .undefined := by
  simp only [queueOf, initLcorePort, known, PortCfg.queueOf]
  by_cases absent : searchQueue lcoreId 0 (-1) pc.lcores < 0
  · simp [absent]
  · by_cases room : conf.rxQueueList.length < maxRxQueuePerLcore
    · simp [absent, room, Nat.not_le.mpr room]
    · simp [absent, Nat.not_lt.mp room]

/-- The loop of `init_lcore_conf` collects the queues of all ports, unless they are
more than fit into the table. -/
theorem initLcorePorts_eq (known : ∀ portid ∈ ports, ∃ pc, settings.portCfg portid = .ok pc)
    (lcoreId : UInt16) {conf : LcoreConf} (room : conf.rxQueueList.length ≤ maxRxQueuePerLcore) :
    if conf.rxQueueList.length + (settings.rxQueues lcoreId ports).length ≤ maxRxQueuePerLcore then
      ∃ final, ports.foldlM (initLcorePort settings lcoreId) conf = .ok final ∧
        final.rxQueueList = conf.rxQueueList ++ settings.rxQueues lcoreId ports
    else ports.foldlM (initLcorePort settings lcoreId) conf = .error .undefined := by
  induction ports generalizing conf with
  | nil => simp [rxQueues, room, pure, Except.pure]
  | cons portid rest ih =>
    obtain ⟨⟨pc, first⟩, others⟩ := forall_mem_cons.mp known
    have step := initLcorePort_eq first lcoreId conf
    rw [foldlM_cons]
    cases found : settings.queueOf lcoreId portid with
    | none =>
      simp only [found] at step
      have same : settings.rxQueues lcoreId (portid :: rest) = settings.rxQueues lcoreId rest := by
        simp [rxQueues, found]
      rw [step, same]
      exact ih others room
    | some queue =>
      simp only [found] at step
      have more : settings.rxQueues lcoreId (portid :: rest) =
          { portId := portid, queueId := queue } :: settings.rxQueues lcoreId rest := by
        simp [rxQueues, found]
      rw [more, length_cons]
      split_ifs at step with free
      · obtain ⟨next, done, added⟩ := step
        have roomNext : next.rxQueueList.length ≤ maxRxQueuePerLcore := by
          rw [added, length_append]
          exact free
        have after := ih others roomNext
        rw [added, length_append, length_singleton, append_assoc, Nat.add_assoc,
          Nat.add_comm 1] at after
        rw [done]
        exact after
      · rw [step, if_neg (by omega)]
        rfl

/-- A file accepted by some process, and the processes 0 to `nb_procs - 1`, which
accept it too and of which none has ended in `init_lcore_conf`. -/
structure Deployment (lines : List IniLine) where
  config : FfConfig
  accepted : ∃ options, ffLoadConfig options lines = .ok config
  machine : Machine
  proc : Nat → FfConfig
  loaded : ∀ procId < config.settings.nbProcs, ∃ options,
    ffLoadConfig options lines = .ok (proc procId)
  procId : ∀ procId < config.settings.nbProcs, (proc procId).procId = procId
  running : ∀ procId < config.settings.nbProcs,
    initLcoreConf machine (proc procId) ≠ .error .rteExit

namespace Deployment

variable {lines : List IniLine} (deployment : Deployment lines)

/-- Number of processes. -/
def nbProcs : Nat := deployment.config.settings.nbProcs

/-- The configuration of a configured port. -/
def IsPort (portid : UInt16) (pc : PortCfg) : Prop :=
  portid ∈ deployment.config.settings.portidList ∧
    deployment.config.settings.portCfg portid = .ok pc

/-- A process polls a queue of a port. -/
def Polls (procId : Nat) (portid : UInt16) (queue : Nat) : Prop :=
  ∃ conf, initLcoreConf deployment.machine (deployment.proc procId) = .ok conf ∧
    { portId := portid, queueId := queue } ∈ conf.rxQueueList

/-- All queues are polled by one process each, and all entries that
`set_rss_table` writes are queues that are polled. -/
structure Covered : Prop where
  initialised : ∀ procId < deployment.nbProcs, ∃ conf,
    initLcoreConf deployment.machine (deployment.proc procId) = .ok conf
  polledOnce : ∀ portid pc, deployment.IsPort portid pc → ∀ queue < pc.nbLcores,
    ∃! procId, procId < deployment.nbProcs ∧ deployment.Polls procId portid queue
  redirected : ∀ portid pc, deployment.IsPort portid pc → 1 < pc.nbLcores →
    ∀ (table : Nat → UInt16) (retaSize : UInt16) (n idx : Nat), retaSize.toNat = 2 ^ n →
      idx < retaSize.toNat → ∃ procId < deployment.nbProcs,
        deployment.Polls procId portid
          (setRssTable table retaSize (UInt16.ofNat pc.nbLcores) idx).toNat

/-- The ports that list an lcore. -/
def portsOf (lcoreId : UInt16) : List UInt16 :=
  deployment.config.settings.portidList.filter (deployment.config.settings.listsLcore lcoreId)

/-- No port lists an lcore twice, and no process has more ports than its table of
queues has entries. -/
structure Assigned : Prop where
  distinct : ∀ portid pc, deployment.IsPort portid pc → pc.lcores.Nodup
  fits : ∀ procId < deployment.nbProcs, ∀ lcoreId, (deployment.proc procId).lcoreId = some lcoreId →
    (deployment.portsOf lcoreId).length ≤ maxRxQueuePerLcore

variable {procId : Nat} {lcoreId : UInt16}

theorem proc_settings (inside : procId < deployment.nbProcs) :
    (deployment.proc procId).settings = deployment.config.settings := by
  obtain ⟨options, loaded⟩ := deployment.loaded procId inside
  obtain ⟨options', accepted⟩ := deployment.accepted
  exact (ffLoadConfig_loaded loaded).settings_eq (ffLoadConfig_loaded accepted)

theorem loadedConfig : LoadedConfig lines deployment.config := by
  obtain ⟨options, accepted⟩ := deployment.accepted
  exact ffLoadConfig_loaded accepted

/-- The lcores of the processes. -/
def procLcore : List UInt16 := deployment.config.settings.procLcore.getD []

theorem lcoreId_eq (inside : procId < deployment.nbProcs) :
    (deployment.proc procId).lcoreId = deployment.procLcore[procId]? := by
  unfold FfConfig.lcoreId
  rw [deployment.procId procId inside, proc_settings deployment inside]
  rfl

theorem procLcore_length : deployment.procLcore.length = deployment.nbProcs :=
  deployment.loadedConfig.procLcore.count

section

variable (inside : procId < deployment.nbProcs) (own : deployment.procLcore[procId]? = some lcoreId)

include inside own

/-- What a running process makes of its configuration. -/
theorem initLcoreConf_eq :
    if (deployment.portsOf lcoreId).length ≤ maxRxQueuePerLcore then
      ∃ conf, initLcoreConf deployment.machine (deployment.proc procId) = .ok conf ∧
        conf.rxQueueList =
          deployment.config.settings.rxQueues lcoreId deployment.config.settings.portidList
    else initLcoreConf deployment.machine (deployment.proc procId) = .error .undefined := by
  have running := deployment.running procId inside
  have known : ∀ portid ∈ deployment.config.settings.portidList,
      ∃ pc, deployment.config.settings.portCfg portid = .ok pc := by
    intro portid member
    obtain ⟨pc, found, -⟩ := deployment.loadedConfig.ports portid member
    exact ⟨pc, found⟩
  have empty : (({} : LcoreConf).rxQueueList).length ≤ maxRxQueuePerLcore := Nat.zero_le _
  have loop := initLcorePorts_eq known lcoreId empty
  simp only [length_nil, Nat.zero_add] at loop
  have lcore := deployment.lcoreId_eq inside
  rw [own] at lcore
  unfold initLcoreConf at running ⊢
  rw [proc_settings deployment inside, lcore] at running ⊢
  rw [portsOf, ← rxQueues_length]
  -- Each of the tests in front of the loop would have ended the process.
  by_cases noDevice : deployment.machine.nbDevPorts = 0
  · exact absurd (if_pos noDevice) running
  rw [if_neg noDevice] at running ⊢
  by_cases noPort : deployment.machine.nbDevPorts.toNat ≤
      deployment.config.settings.maxPortid.toNat
  · exact absurd (if_pos noPort) running
  rw [if_neg noPort] at running ⊢
  simp only at running ⊢
  by_cases disabled : (!deployment.machine.lcoreIsEnabled lcoreId) = true
  · exact absurd (if_pos disabled) running
  rw [if_neg disabled] at running ⊢
  split_ifs at loop ⊢
  · obtain ⟨conf, done, queues⟩ := loop
    rw [done] at running ⊢
    by_cases idle : conf.rxQueueList = []
    · exact absurd (if_pos idle) running
    · exact ⟨conf, if_neg idle, queues⟩
  · rw [loop]
    rfl

/-- A process polls a queue when its lcore is the one the port lists there last. -/
theorem polls_iff (fits : (deployment.portsOf lcoreId).length ≤ maxRxQueuePerLcore)
    {portid : UInt16} {pc : PortCfg} (port : deployment.IsPort portid pc) {queue : Nat} :
    deployment.Polls procId portid queue ↔ pc.queueOf lcoreId = some queue := by
  have init := deployment.initLcoreConf_eq inside own
  rw [if_pos fits] at init
  obtain ⟨conf, done, queues⟩ := init
  have listed : deployment.config.settings.queueOf lcoreId portid = pc.queueOf lcoreId := by
    simp [queueOf, port.2]
  constructor
  · rintro ⟨conf', done', member⟩
    obtain rfl := Except.ok.inj (done.symm.trans done')
    rw [queues, mem_rxQueues, listed] at member
    exact member.2
  · intro found
    refine ⟨conf, done, ?_⟩
    rw [queues, mem_rxQueues, listed]
    exact ⟨port.1, found⟩

end

theorem lcores_length (pc : PortCfg) : pc.lcores.length = pc.nbLcores := by
  rw [PortCfg.lcores, length_take, pc.sized]
  exact Nat.min_eq_left pc.inside

theorem lcores_mem {portid : UInt16} {pc : PortCfg} (port : deployment.IsPort portid pc)
    (member : lcoreId ∈ pc.lcores) : lcoreId ∈ deployment.procLcore := by
  obtain ⟨pc', found, enabled⟩ := deployment.loadedConfig.ports portid port.1
  obtain rfl := Except.ok.inj (port.2.symm.trans found)
  exact lcoreEnabled_mem deployment.loadedConfig.procLcore (enabled lcoreId member)

theorem procLcore_nodup : deployment.procLcore.Nodup :=
  deployment.loadedConfig.procLcore.ascending.imp fun ascending same => by
    rw [same] at ascending
    omega

section Assigned

variable {deployment} (assigned : deployment.Assigned)

include assigned

theorem Assigned.fits_of {procId : Nat} (inside : procId < deployment.nbProcs) {lcoreId : UInt16}
    (own : deployment.procLcore[procId]? = some lcoreId) :
    (deployment.portsOf lcoreId).length ≤ maxRxQueuePerLcore :=
  assigned.fits procId inside lcoreId ((deployment.lcoreId_eq inside).trans own)

/-- Every queue has the process of the lcore listed in its place, and no other. -/
theorem Assigned.polledOnce {portid : UInt16} {pc : PortCfg} (port : deployment.IsPort portid pc)
    {queue : Nat} (inside : queue < pc.nbLcores) :
    ∃! procId, procId < deployment.nbProcs ∧ deployment.Polls procId portid queue := by
  have place : queue < pc.lcores.length := by rwa [lcores_length]
  have listed := getElem?_eq_getElem place
  have member := deployment.lcores_mem port (getElem_mem place)
  obtain ⟨procId, own⟩ := mem_iff_getElem?.mp member
  have running : procId < deployment.nbProcs := by
    rw [← procLcore_length]
    exact (List.getElem?_eq_some_iff.mp own).1
  refine ⟨procId, ⟨running, ?_⟩, ?_⟩
  · rw [deployment.polls_iff running own (assigned.fits_of running own) port]
    exact queueOf_of_nodup (assigned.distinct portid pc port) listed
  · rintro other ⟨running', polls⟩
    have length := deployment.procLcore_length
    have own' := getElem?_eq_getElem (by omega : other < deployment.procLcore.length)
    rw [deployment.polls_iff running' own' (assigned.fits_of running' own') port] at polls
    have same := (queueOf_place polls).1.symm.trans listed
    refine (getElem?_inj (by omega) deployment.procLcore_nodup).mp ?_
    rw [own', own, same]

end Assigned

/-- With distinct lcores and room for the queues, every queue is polled once. -/
theorem covered_of_assigned (assigned : deployment.Assigned) : deployment.Covered where
  initialised procId inside := by
    have length := deployment.procLcore_length
    have own := getElem?_eq_getElem (by omega : procId < deployment.procLcore.length)
    have init := deployment.initLcoreConf_eq inside own
    rw [if_pos (assigned.fits_of inside own)] at init
    obtain ⟨conf, done, -⟩ := init
    exact ⟨conf, done⟩
  polledOnce portid pc port queue inside := assigned.polledOnce port inside
  redirected portid pc port several table retaSize n idx power inside := by
    have small : pc.nbLcores < 2 ^ 16 := lt_of_le_of_lt pc.inside (by decide)
    have queues : (UInt16.ofNat pc.nbLcores).toNat = pc.nbLcores := by
      rw [UInt16.toNat_ofNat', Nat.mod_eq_of_lt small]
    rw [setRssTable_entry table (by omega) power inside, queues]
    obtain ⟨procId, ⟨running, polls⟩, -⟩ :=
      assigned.polledOnce port (Nat.mod_lt idx (by omega : 0 < pc.nbLcores))
    exact ⟨procId, running, polls⟩

theorem Covered.fits (covered : deployment.Covered) (inside : procId < deployment.nbProcs)
    (own : deployment.procLcore[procId]? = some lcoreId) :
    (deployment.portsOf lcoreId).length ≤ maxRxQueuePerLcore := by
  by_contra full
  have init := deployment.initLcoreConf_eq inside own
  rw [if_neg full] at init
  obtain ⟨conf, done⟩ := covered.initialised procId inside
  exact absurd (init.symm.trans done) (by simp)

/-- If every queue is polled once, lcores are distinct and queues have room. -/
theorem assigned_of_covered (covered : deployment.Covered) : deployment.Assigned where
  distinct portid pc port := by
    rw [nodup_iff_getElem?_ne_getElem?]
    intro first second before inside same
    rw [lcores_length] at inside
    obtain ⟨procId, ⟨running, polls⟩, -⟩ :=
      covered.polledOnce portid pc port first (before.trans inside)
    have length := deployment.procLcore_length
    have own := getElem?_eq_getElem (by omega : procId < deployment.procLcore.length)
    rw [deployment.polls_iff running own (covered.fits deployment running own) port] at polls
    -- The process polls the later place of its lcore, not the earlier one.
    obtain ⟨place, last⟩ := queueOf_place polls
    exact last second before (same ▸ place)
  fits procId inside lcoreId own :=
    covered.fits deployment inside ((deployment.lcoreId_eq inside).symm.trans own)

/-- The queues of an accepted configuration are covered exactly when no port lists
an lcore twice and no process has more than `MAX_RX_QUEUE_PER_LCORE` ports. -/
theorem covered_iff : deployment.Covered ↔ deployment.Assigned :=
  ⟨deployment.assigned_of_covered, deployment.covered_of_assigned⟩

end Deployment

/-- One process on a machine with one port. -/
def lcoreTwiceDeployment : Deployment lcoreTwice where
  config := lcoreTwiceConfig
  accepted := ⟨[], lcoreTwice_accepted⟩
  machine := { nbDevPorts := 1, lcoreIsEnabled := fun _ => true }
  proc _ := lcoreTwiceConfig
  loaded _ _ := ⟨[], lcoreTwice_accepted⟩
  procId procId inside := by
    have one : procId < 1 := inside
    obtain rfl : procId = 0 := by omega
    rfl
  running procId inside := by
    intro ends
    cases ends

/-- With lcore 0 listed twice, its process polls queue 1 and nobody polls queue 0. -/
theorem not_covered_lcoreTwice : ¬ lcoreTwiceDeployment.Covered := by
  intro covered
  obtain ⟨procId, ⟨-, conf, done, member⟩, -⟩ :=
    covered.polledOnce 0 _ ⟨by decide, rfl⟩ 0 (by decide)
  have queues : (initLcoreConf lcoreTwiceDeployment.machine lcoreTwiceConfig).toOption.map
      (·.rxQueueList) = some [{ portId := 0, queueId := 1 }] := by
    rfl
  change initLcoreConf lcoreTwiceDeployment.machine lcoreTwiceConfig = .ok conf at done
  rw [done] at queues
  change some conf.rxQueueList = _ at queues
  rw [Option.some.inj queues] at member
  exact absurd member (by decide)

end FStack
