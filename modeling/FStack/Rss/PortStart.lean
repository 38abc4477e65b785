import FStack.Rss.Redirection
import FStack.Std.Fallible
import FStack.Std.Lists

/-!
# Keys and tables set at port start

`init_port_start` visits every configured port, its slave ports first, chooses a
hash key for each device and configures the device with it. The key lives in two
globals that each visit may overwrite, and that `ff_rss_check` reads later for
every port alike.
-/

namespace FStack

open Fallible List

/-- The globals `rsskey` and `rsskey_len`. -/
structure RssKey where
  rsskey : List UInt8
  rsskeyLen : Nat
deriving DecidableEq, Repr

/-- The globals as they are initialised. -/
def RssKey.initial : RssKey where
  rsskey := defaultRsskey40bytes
  rsskeyLen := 40

/-- The key choice for a device: its key size first, the symmetric key second. -/
def RssKey.choose (symmetricRss : Bool) (key : RssKey) (hashKeySize : UInt8) : RssKey :=
  let sized :=
    if hashKeySize = 52 then { rsskey := defaultRsskey52bytes, rsskeyLen := 52 } else key
  if symmetricRss then { sized with rsskey := symmetricRsskey } else sized

/-- What `rte_eth_dev_info_get` reports, as far as it is used here. -/
structure DevInfo where
  maxRxQueues : UInt16
  maxTxQueues : UInt16
  hashKeySize : UInt8
  retaSize : UInt16

/-- What the calls made on a device return; `info` is none where the device has
no information to give. -/
structure Device where
  info : Option DevInfo
  configureRet : Int
  queueSetupRet : Int
  startRet : Int
  hashFuncSet : Bool
  retaUpdated : Bool

/-- The part of `ff_global_cfg` that `init_port_start` reads, and the devices. -/
structure PortStartCfg where
  portidList : List Nat
  nbLcores : Nat → UInt16
  slavePortidList : Nat → List Nat
  symmetricRss : Bool
  device : Nat → Device

/-- One `rte_eth_dev_configure` call. -/
structure DeviceConf where
  portId : Nat
  nbQueues : UInt16
  rssKey : RssKey
deriving DecidableEq, Repr

/-- What `init_port_start` writes: the key globals, `rss_reta_size`, the
configurations of devices in order, and the redirection tables of the devices. -/
structure PortsState where
  key : RssKey
  rssRetaSize : Nat → UInt16
  configured : List DeviceConf
  retaTable : Nat → Nat → UInt16

open PortsState

/-- How `init_port_start` ends early. -/
inductive PortStartFailure where
  | rteExit
  | returned (ret : Int)
deriving DecidableEq, Repr

/-- The table size test and the assignment behind it. -/
def recordRetaSize (portId : Nat) (retaSize : UInt16) (state : PortsState) :
    Except PortStartFailure PortsState :=
  if retaSize = 0 then .ok state
  else if retaSize &&& (retaSize - 1) ≠ 0 then .error .rteExit
  else .ok { state with rssRetaSize := Function.update state.rssRetaSize portId retaSize }

/-- The part of the loop body that only the primary process runs. -/
def configureDevice (device : Device) (info : DevInfo) (nbQueues : UInt16) (portId : Nat)
    (state : PortsState) : Except PortStartFailure PortsState :=
  if device.configureRet ≠ 0 then .error (.returned device.configureRet)
  else
    let conf := { portId := portId, nbQueues := nbQueues, rssKey := state.key }
    let state := { state with configured := state.configured ++ [conf] }
    if device.queueSetupRet < 0 then .error (.returned device.queueSetupRet)
    else if device.startRet < 0 then .error (.returned device.startRet)
    else if nbQueues ≤ 1 then .ok state
    else if !device.hashFuncSet || !device.retaUpdated then .error .rteExit
    else
      let table := setRssTable (state.retaTable portId) info.retaSize nbQueues
      .ok { state with retaTable := Function.update state.retaTable portId table }

/-- The body of the inner loop of `init_port_start`. -/
def startDevice (cfg : PortStartCfg) (primary : Bool) (nbQueues : UInt16) (state : PortsState)
    (portId : Nat) : Except PortStartFailure PortsState :=
  match (cfg.device portId).info with
  | none => .error .rteExit
  | some info =>
    if info.maxRxQueues < nbQueues then .error .rteExit
    else if info.maxTxQueues < nbQueues then .error .rteExit
    else do
      let key := state.key.choose cfg.symmetricRss info.hashKeySize
      let state ← recordRetaSize portId info.retaSize { state with key := key }
      if primary then configureDevice (cfg.device portId) info nbQueues portId state
      else .ok state

/-- The devices visited for one configured port. -/
def PortStartCfg.devicesOf (cfg : PortStartCfg) (uPortId : Nat) : List Nat :=
  cfg.slavePortidList uPortId ++ [uPortId]

/-- `init_port_start`. -/
def initPortStart (cfg : PortStartCfg) (primary : Bool) (state : PortsState) :
    Except PortStartFailure PortsState :=
  cfg.portidList.foldlM
    (fun state uPortId =>
      (cfg.devicesOf uPortId).foldlM (startDevice cfg primary (cfg.nbLcores uPortId)) state)
    state

/-- A process before `init_port_start`: the tables are whatever the hardware holds. -/
def PortsState.initial (retaTable : Nat → Nat → UInt16) : PortsState where
  key := RssKey.initial
  rssRetaSize _ := 0
  configured := []
  retaTable := retaTable

/-- All devices in the order of their visits. -/
def PortStartCfg.visits (cfg : PortStartCfg) : List Nat := cfg.portidList.flatMap cfg.devicesOf

/-- The key size of a device. -/
def PortStartCfg.hashKeySize (cfg : PortStartCfg) (portId : Nat) : UInt8 :=
  ((cfg.device portId).info.map (·.hashKeySize)).getD 0

/-- The key globals after a visit. -/
def keyStep (cfg : PortStartCfg) (key : RssKey) (portId : Nat) : RssKey :=
  key.choose cfg.symmetricRss (cfg.hashKeySize portId)

/-- The keys with which a sequence of visits configures devices. -/
def keysAlong (cfg : PortStartCfg) : RssKey → List Nat → List (Nat × RssKey)
  | _, [] => []
  | key, portId :: rest =>
    (portId, keyStep cfg key portId) :: keysAlong cfg (keyStep cfg key portId) rest

/-- What a completed sequence of visits does to the keys. -/
structure Visited (cfg : PortStartCfg) (primary : Bool) (visits : List Nat)
    (state state' : PortsState) : Prop where
  key : state'.key = visits.foldl (keyStep cfg) state.key
  configured : state'.configured.map (fun conf => (conf.portId, conf.rssKey)) =
    state.configured.map (fun conf => (conf.portId, conf.rssKey)) ++
      if primary then keysAlong cfg state.key visits else []

variable {portId : Nat} {state state' : PortsState} {cfg : PortStartCfg} {primary : Bool}

theorem recordRetaSize_ok {retaSize : UInt16}
    (done : recordRetaSize portId retaSize state = .ok state') :
    state'.key = state.key ∧ state'.configured = state.configured := by
  unfold recordRetaSize at done
  split_ifs at done <;> cases done <;> exact ⟨rfl, rfl⟩

variable {nbQueues : UInt16} {retaTable : Nat → Nat → UInt16}

theorem configureDevice_ok {device : Device} {info : DevInfo}
    (done : configureDevice device info nbQueues portId state = .ok state') :
    state'.key = state.key ∧ state'.configured =
      state.configured ++ [{ portId := portId, nbQueues := nbQueues, rssKey := state.key }] := by
  unfold configureDevice at done
  split_ifs at done <;> cases done <;> exact ⟨rfl, rfl⟩

/-- Starting a device is one visit. -/
theorem startDevice_visited (done : startDevice cfg primary nbQueues state portId = .ok state') :
    Visited cfg primary [portId] state state' := by
  unfold startDevice at done
  cases info : (cfg.device portId).info with
  | none => simp [info] at done
  | some devInfo =>
    have size : cfg.hashKeySize portId = devInfo.hashKeySize := by
      simp [PortStartCfg.hashKeySize, info]
    simp only [info] at done
    split_ifs at done with fewRx fewTx role
    all_goals
      obtain ⟨sized, recorded, rest⟩ := bind_eq_ok done
      obtain ⟨keySized, configuredSized⟩ := recordRetaSize_ok recorded
    · obtain ⟨keySame, added⟩ := configureDevice_ok rest
      refine ⟨by simp [keySame, keySized, keyStep, size], ?_⟩
      simp [added, configuredSized, keySized, keysAlong, keyStep, size, role]
    · obtain rfl := Except.ok.inj rest
      exact ⟨by simp [keySized, keyStep, size], by simp [configuredSized, role]⟩

theorem Visited.refl (cfg : PortStartCfg) (primary : Bool) (state : PortsState) :
    Visited cfg primary [] state state := by
  constructor
  · rfl
  · simp [keysAlong]

theorem keysAlong_append (cfg : PortStartCfg) (key : RssKey) (first second : List Nat) :
    keysAlong cfg key (first ++ second) =
      keysAlong cfg key first ++ keysAlong cfg (first.foldl (keyStep cfg) key) second := by
  induction first generalizing key with
  | nil => rfl
  | cons portId rest ih => simp [keysAlong, ih]

theorem Visited.trans {first second : List Nat} {middle : PortsState}
    (left : Visited cfg primary first state middle)
    (right : Visited cfg primary second middle state') :
    Visited cfg primary (first ++ second) state state' := by
  constructor
  · rw [right.key, left.key, foldl_append]
  · rw [right.configured, left.configured, left.key, keysAlong_append]
    cases primary <;> simp

/-- A loop whose body makes visits makes the visits of all its iterations. -/
theorem foldlM_visited {items : List Nat} {visitsOf : Nat → List Nat}
    {body : PortsState → Nat → Except PortStartFailure PortsState}
    (step : ∀ state item state', body state item = .ok state' →
      Visited cfg primary (visitsOf item) state state')
    (done : items.foldlM body state = .ok state') :
    Visited cfg primary (items.flatMap visitsOf) state state' := by
  induction items generalizing state with
  | nil =>
    obtain rfl := Except.ok.inj done
    exact Visited.refl cfg primary state
  | cons item rest ih =>
    obtain ⟨middle, first, others⟩ := foldlM_cons_eq_ok done
    exact (step state item middle first).trans (ih others)

theorem initPortStart_visited (done : initPortStart cfg primary state = .ok state') :
    Visited cfg primary cfg.visits state state' := by
  refine foldlM_visited (fun state uPortId state' inner => ?_) done
  have visited := foldlM_visited
    (fun state portId state' (body : startDevice cfg primary _ state portId = .ok state') =>
      startDevice_visited body) inner
  simpa using visited

/-- The key chosen for a device where no device so far, that one included, takes
a long key, or where some device does. -/
def keyFor (symmetricRss long : Bool) : RssKey where
  rsskey :=
    if symmetricRss then symmetricRsskey
    else if long then defaultRsskey52bytes else defaultRsskey40bytes
  rsskeyLen := if long then 52 else 40

/-- Some device among the visits takes a key of 52 bytes. -/
def PortStartCfg.longKey (cfg : PortStartCfg) (visits : List Nat) : Bool :=
  visits.any (cfg.hashKeySize · = 52)

section

variable (cfg : PortStartCfg)

theorem keyStep_keyFor (long : Bool) (portId : Nat) :
    keyStep cfg (keyFor cfg.symmetricRss long) portId =
      keyFor cfg.symmetricRss (long || decide (cfg.hashKeySize portId = 52)) := by
  unfold keyStep RssKey.choose keyFor
  by_cases size : cfg.hashKeySize portId = 52 <;> cases cfg.symmetricRss <;> simp [size]

theorem keyStep_initial (portId : Nat) :
    keyStep cfg RssKey.initial portId =
      keyFor cfg.symmetricRss (decide (cfg.hashKeySize portId = 52)) := by
  unfold keyStep RssKey.choose keyFor RssKey.initial
  by_cases size : cfg.hashKeySize portId = 52 <;> cases cfg.symmetricRss <;> simp [size]

theorem foldl_keyStep_keyFor (long : Bool) (visits : List Nat) :
    visits.foldl (keyStep cfg) (keyFor cfg.symmetricRss long) =
      keyFor cfg.symmetricRss (long || cfg.longKey visits) := by
  induction visits generalizing long with
  | nil => simp [PortStartCfg.longKey]
  | cons portId rest ih =>
    rw [foldl_cons, keyStep_keyFor, ih]
    simp [PortStartCfg.longKey, Bool.or_assoc]

/-- Once a device was visited, the key globals remember only whether a long key
was ever asked for. -/
theorem foldl_keyStep_initial {visits : List Nat} (visited : visits ≠ []) :
    visits.foldl (keyStep cfg) RssKey.initial =
      keyFor cfg.symmetricRss (cfg.longKey visits) := by
  obtain ⟨portId, rest, rfl⟩ := exists_cons_of_ne_nil visited
  rw [foldl_cons, keyStep_initial, foldl_keyStep_keyFor]
  simp [PortStartCfg.longKey]

end

theorem keyFor_inj {symmetricRss long long' : Bool} :
    keyFor symmetricRss long = keyFor symmetricRss long' ↔ long = long' := by
  cases long <;> cases long' <;> simp [keyFor]

/-- The last configuration a device got. -/
def PortsState.hardwareKey (state : PortsState) (portId : Nat) : Option RssKey :=
  ((state.configured.filter (·.portId = portId)).getLast?).map (·.rssKey)

theorem keysAlong_fst (cfg : PortStartCfg) (key : RssKey) (visits : List Nat) :
    (keysAlong cfg key visits).map (·.1) = visits := by
  induction visits generalizing key with
  | nil => rfl
  | cons portId rest ih => simp [keysAlong, ih]

/-- A device keeps the key of its last visit. -/
theorem hardwareKey_eq {before after : List Nat}
    (done : initPortStart cfg true (initial retaTable) = .ok state)
    (visits : cfg.visits = before ++ portId :: after) (last : portId ∉ after) :
    state.hardwareKey portId =
      some (keyFor cfg.symmetricRss (cfg.longKey (before ++ [portId]))) := by
  have configured := (initPortStart_visited done).configured
  have later (key : RssKey) : (keysAlong cfg key after).filter (·.1 = portId) = [] := by
    rw [filter_eq_nil_iff]
    rintro entry member same
    apply last
    rw [← keysAlong_fst cfg key after, ← of_decide_eq_true same]
    exact mem_map_of_mem member
  simp only [visits] at configured
  rw [keysAlong_append, keysAlong] at configured
  have filtered := congrArg (fun entries => (entries.filter (·.1 = portId)).getLast?) configured
  simp only [filter_append, filter_cons, if_true, later, filter_map, getLast?_append,
    getLast?_map] at filtered
  obtain ⟨conf, found, same⟩ := Option.map_eq_some_iff.mp filtered
  change (state.configured.filter (·.portId = portId)).getLast? = some conf at found
  rw [← foldl_keyStep_initial cfg (by simp), foldl_append, hardwareKey, found,
    Option.map_some, (Prod.mk.inj same).2]
  rfl

theorem mem_visits_of_hardwareKey {key : RssKey}
    (done : initPortStart cfg true (initial retaTable) = .ok state)
    (found : state.hardwareKey portId = some key) : portId ∈ cfg.visits := by
  obtain ⟨conf, last, -⟩ := Option.map_eq_some_iff.mp found
  obtain ⟨member, same⟩ := mem_filter.mp (mem_of_getLast? last)
  have configured := (initPortStart_visited done).configured
  simp only [initial, map_nil, nil_append, if_true] at configured
  rw [← keysAlong_fst cfg RssKey.initial cfg.visits, ← configured, map_map]
  exact mem_map.mpr ⟨conf, member, of_decide_eq_true same⟩

/-- When all ports are configured, the key in a port's hardware is the key any
process has in its globals exactly when no device behind the port's last visit
was the first to take a long key. -/
theorem keyAgrees_iff {cfg : PortStartCfg} {primary : Bool} {retaTable : Nat → Nat → UInt16}
    {hardware own : PortsState}
    (configured : initPortStart cfg true (initial retaTable) = .ok hardware)
    (done : initPortStart cfg primary (initial retaTable) = .ok own) (portId : Nat) :
    (∀ key, hardware.hardwareKey portId = some key → own.key = key) ↔
      ∀ before after, cfg.visits = before ++ portId :: after → portId ∉ after →
        cfg.longKey after = true → cfg.longKey (before ++ [portId]) = true := by
  have split {before after : List Nat} (visits : cfg.visits = before ++ portId :: after)
      (last : portId ∉ after) :
      (∀ key, hardware.hardwareKey portId = some key → own.key = key) ↔
        (cfg.longKey after = true → cfg.longKey (before ++ [portId]) = true) := by
    have globals : own.key = keyFor cfg.symmetricRss (cfg.longKey cfg.visits) := by
      rw [(initPortStart_visited done).key]
      exact foldl_keyStep_initial cfg (by simp [visits])
    have whole : cfg.longKey cfg.visits =
        (cfg.longKey (before ++ [portId]) || cfg.longKey after) := by
      simp [visits, PortStartCfg.longKey, Bool.or_assoc]
    rw [hardwareKey_eq configured visits last, globals, whole]
    simp only [Option.some.injEq, forall_eq', keyFor_inj]
    cases cfg.longKey (before ++ [portId]) <;> simp
  constructor
  · intro agrees before after visits last
    exact (split visits last).mp agrees
  · intro holds key found
    obtain ⟨before, after, visits, last⟩ :=
      Lists.eq_append_cons_of_mem_last (mem_visits_of_hardwareKey configured found)
    exact (split visits last).mpr (holds _ _ visits last) key found

/-- A device that grants every request. -/
def plainDevice (hashKeySize : UInt8) : Device where
  info := some { maxRxQueues := 16, maxTxQueues := 16, hashKeySize := hashKeySize, retaSize := 128 }
  configureRet := 0
  queueSetupRet := 0
  startRet := 0
  hashFuncSet := true
  retaUpdated := true

/-- Two ports, numbered 0 and 1, with these key sizes. -/
def twoPorts (first second : UInt8) : PortStartCfg where
  portidList := [0, 1]
  nbLcores _ := 2
  slavePortidList _ := []
  symmetricRss := false
  device portId := plainDevice (if portId = 0 then first else second)

/-- A long key asked for by the first port serves both. -/
theorem keyAgrees_longThenShort :
    ∃ state, initPortStart (twoPorts 52 40) true (initial fun _ _ => 0) = .ok state ∧
      ∀ key, state.hardwareKey 1 = some key → state.key = key := by
  obtain ⟨state, done⟩ :
      ∃ state, initPortStart (twoPorts 52 40) true (initial fun _ _ => 0) = .ok state :=
    ⟨_, rfl⟩
  refine ⟨state, done, (keyAgrees_iff done done 1).mpr fun before after visits _ _ => ?_⟩
  obtain _ | ⟨first, rest⟩ := before
  · cases visits
  · obtain ⟨rfl, -⟩ := cons.inj visits
    rfl

/-- A long key asked for by the second port replaces the key of the first. -/
theorem keyDisagrees_shortThenLong :
    ∃ state, initPortStart (twoPorts 40 52) true (initial fun _ _ => 0) = .ok state ∧
      state.hardwareKey 0 = some { rsskey := defaultRsskey40bytes, rsskeyLen := 40 } ∧
      state.key = { rsskey := defaultRsskey52bytes, rsskeyLen := 52 } ∧
      ¬ ∀ key, state.hardwareKey 0 = some key → state.key = key := by
  refine ⟨_, rfl, rfl, rfl, fun agrees => ?_⟩
  exact absurd (agrees _ rfl) (by decide)

end FStack
