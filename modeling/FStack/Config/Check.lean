import FStack.Config.Handler
import FStack.Std.Fallible

/-!
# Loading and checking a configuration

`ff_load_config` reads the command line, runs the handler over the lines of the
file and has `ff_check_config` look at the result. What the check establishes
is `LoadedConfig`: the lcores of the processes are distinct, and the ports use
no others. All processes read the same file, so those that accept it agree on
its settings.
-/

namespace FStack

open CText Except Fallible List

/-- The recursion of `uint16_binary_search` on `arr[l..r]`; `size` bounds the
number of entries left. -/
def binarySearchLoop (arr : List UInt16) (x : UInt16) : Nat → Int → Int → Int
  | 0, _, _ => -1
  | size + 1, l, r =>
    if l ≤ r then
      let mid := l + (r - l) / 2
      let entry := arr.getD mid.toNat 0
      if entry = x then mid
      else if x < entry then binarySearchLoop arr x size l (mid - 1)
      else binarySearchLoop arr x size (mid + 1) r
    else -1

/-- `uint16_binary_search`. -/
def uint16BinarySearch (arr : List UInt16) (l r : Int) (x : UInt16) : Int :=
  binarySearchLoop arr x (r - l + 1).toNat l r

/-- `PCAP_SNAP_MINLEN`. -/
def pcapSnapMinlen : UInt16 := 94

/-- `PCAP_SAVE_MINLEN`. -/
def pcapSaveMinlen : UInt32 := 8388608

/-- The `kni` part of `ff_check_config`. -/
def checkKni (kni : KniSettings) : ConfigM Unit :=
  if kni.enable ≠ 0 ∧ kni.method = none then .error .rejected
  else if kni.method.any fun method => !strcaseEq method "accept" && !strcaseEq method "reject" then
    .error .rejected
  else if kni.kniAction.any fun action =>
      !strcaseEq action "alltokni" && !strcaseEq action "alltoff" && !strcaseEq action "default" then
    .error .rejected
  else .ok ()

/-- The `pcap` part of `ff_check_config`. -/
def checkPcap (pcap : PcapSettings) : PcapSettings where
  enable := pcap.enable
  saveLen := if pcap.saveLen < pcapSaveMinlen then pcapSaveMinlen else pcap.saveLen
  snapLen := if pcap.snapLen < pcapSnapMinlen then pcapSnapMinlen else pcap.snapLen
  savePath := if pcap.savePath = none ∨ pcap.savePath = some "" then some "." else pcap.savePath

/-- The lcores of a port that are in use. -/
def PortCfg.lcores (pc : PortCfg) : List UInt16 := pc.lcoreList.take pc.nbLcores

/-- The test for an enabled lcore. -/
def lcoreEnabled (settings : Settings) (lcoreId : UInt16) : Bool :=
  0 ≤ uint16BinarySearch (settings.procLcore.getD []) 0 (settings.nbProcs - 1) lcoreId

/-- The lcore of a process, none where there is no such entry. -/
def FfConfig.lcoreId (cfg : FfConfig) : Option UInt16 :=
  if cfg.procId < 0 then none else (cfg.settings.procLcore.getD [])[cfg.procId.toNat]?

/-- The loop body of `ff_check_config`. -/
def checkPort (cfg : FfConfig) (pc : PortCfg) : ConfigM Unit :=
  if pc.addr = none ∨ pc.netmask = none ∨ pc.broadcast = none ∨ pc.gateway = none then
    .error .rejected
  else if !pc.lcores.all (lcoreEnabled cfg.settings) then .error .rejected
  else if cfg.settings.kni.enable ≠ 0 ∧ cfg.procType = "primary" then
    match cfg.lcoreId with
    | none => .error .undefined
    | some lcoreId => if lcoreId ∈ pc.lcores then .ok () else .error .rejected
  else .ok ()

/-- The entry of `port_cfgs` for a configured port. -/
def Settings.portCfg (settings : Settings) (portid : UInt16) : ConfigM PortCfg :=
  match settings.portCfgs with
  | none => .error .undefined
  | some cfgs =>
    if rteMaxEthports ≤ portid.toNat then .error .undefined else .ok (cfgs portid.toNat)

/-- `ff_check_config`. -/
def ffCheckConfig (cfg : FfConfig) : ConfigM FfConfig := do
  checkKni cfg.settings.kni
  let cfg :=
    { cfg with settings := { cfg.settings with pcap := checkPcap cfg.settings.pcap } }
  cfg.settings.portidList.forM fun portid => do
    let pc ← cfg.settings.portCfg portid
    checkPort cfg pc
  .ok cfg

/-- `ff_load_config` up to the arguments for the EAL. -/
def ffLoadConfig (options : List CmdOption) (lines : List IniLine) : ConfigM FfConfig := do
  let cfg ← ffParseArgs options
  let cfg ← lines.foldlM iniParseHandler cfg
  ffCheckConfig cfg

/-- A run of `uint16_binary_search` on `arr[l..r]` that ends and returns `idx`. What it reads is
in the array. -/
inductive Searches (arr : List UInt16) (x : UInt16) : Int → Int → Int → Prop
  | absent {l r : Int} (empty : r < l) : Searches arr x l r (-1)
  | found {l r mid : Int} (nonempty : l ≤ r) (middle : mid = l + (r - l) / 2)
      (read : arr[mid.toNat]? = some x) : Searches arr x l r mid
  | left {l r mid idx : Int} {entry : UInt16} (nonempty : l ≤ r) (middle : mid = l + (r - l) / 2)
      (read : arr[mid.toNat]? = some entry) (above : x < entry)
      (rest : Searches arr x l (mid - 1) idx) : Searches arr x l r idx
  | right {l r mid idx : Int} {entry : UInt16} (nonempty : l ≤ r) (middle : mid = l + (r - l) / 2)
      (read : arr[mid.toNat]? = some entry) (below : entry < x)
      (rest : Searches arr x (mid + 1) r idx) : Searches arr x l r idx

section Search

variable {arr : List UInt16} {x : UInt16} {l r idx : Int}

/-- The search ends: it makes fewer calls than there are entries left. -/
theorem searches_loop {size : Nat} (lower : 0 ≤ l) (upper : r < arr.length)
    (enough : r - l + 1 ≤ size) : Searches arr x l r (binarySearchLoop arr x size l r) := by
  induction size generalizing l r with
  | zero => exact .absent (by omega)
  | succ size ih =>
    unfold binarySearchLoop
    dsimp only
    by_cases nonempty : l ≤ r
    · have inside : (l + (r - l) / 2).toNat < arr.length := by omega
      have read : arr[(l + (r - l) / 2).toNat]? =
          some (arr.getD (l + (r - l) / 2).toNat 0) := by
        rw [getElem?_eq_getElem inside, getElem_eq_getD 0]
      rw [if_pos nonempty]
      split_ifs with same above
      · exact .found nonempty rfl (same ▸ read)
      · exact .left nonempty rfl read above (ih lower (by omega) (by omega))
      · have below := UInt16.lt_of_le_of_ne (UInt16.not_lt.mp above) same
        exact .right nonempty rfl read below (ih (by omega) upper (by omega))
    · rw [if_neg nonempty]
      exact .absent (not_le.mp nonempty)

/-- A search that finds something finds the value it looked for. -/
theorem Searches.entry (search : Searches arr x l r idx) (hit : 0 ≤ idx) :
    arr[idx.toNat]? = some x := by
  induction search with
  | absent => omega
  | found _ _ read => exact read
  | left _ _ _ _ _ ih | right _ _ _ _ _ ih => exact ih hit

theorem entry_le (ascending : arr.Pairwise (· ≤ ·)) {i j : Nat} {first second : UInt16}
    (before : i ≤ j) (at_i : arr[i]? = some first) (at_j : arr[j]? = some second) :
    first ≤ second := by
  obtain ⟨inside, rfl⟩ := List.getElem?_eq_some_iff.mp at_i
  obtain ⟨inside', rfl⟩ := List.getElem?_eq_some_iff.mp at_j
  rcases before.eq_or_lt with rfl | before
  · exact UInt16.le_refl _
  · exact pairwise_iff_getElem.mp ascending i j inside inside' before

/-- Where a search has found nothing there is nothing: the order rules out the half that it
leaves. -/
theorem Searches.miss (ascending : arr.Pairwise (· ≤ ·)) (search : Searches arr x l r idx)
    (miss : idx < 0) (start : 0 ≤ l) {place : Nat} (lower : l ≤ place) (upper : place ≤ r) :
    arr[place]? ≠ some x := by
  intro here
  induction search with
  | absent => omega
  | found => omega
  | @left l r mid idx entry _ _ read above _ ih =>
    refine ih miss start lower (not_lt.mp fun beyond => ?_)
    exact UInt16.not_le.mpr above (entry_le ascending (by omega) read here)
  | @right l r mid idx entry _ _ read below _ ih =>
    refine ih miss (by omega) (not_lt.mp fun short => ?_) upper
    exact UInt16.not_le.mpr below (entry_le ascending (by omega) here read)

/-- The search of an array ends, and returns the place of an entry if there is one. -/
structure Finds (arr : List UInt16) (x : UInt16) (idx : Int) : Prop where
  ends : Searches arr x 0 (arr.length - 1) idx
  occurs : 0 ≤ idx ↔ x ∈ arr
  entry : 0 ≤ idx → arr[idx.toNat]? = some x

theorem finds_of_ascending (ascending : arr.Pairwise (· ≤ ·)) :
    Finds arr x (uint16BinarySearch arr 0 (arr.length - 1) x) := by
  have search : Searches arr x 0 (arr.length - 1) (uint16BinarySearch arr 0 (arr.length - 1) x) :=
    searches_loop le_rfl (by omega) (by omega)
  refine ⟨search, ⟨fun hit => List.mem_of_getElem? (search.entry hit), fun member => ?_⟩,
    search.entry⟩
  obtain ⟨place, here⟩ := List.mem_iff_getElem?.mp member
  have inside := (List.getElem?_eq_some_iff.mp here).1
  exact not_lt.mp fun miss => search.miss ascending miss le_rfl (by omega) (by omega) here

end Search

/-- The lcores of the processes are in ascending order, one for each process. -/
structure ProcLcoreWf (settings : Settings) : Prop where
  ascending : (settings.procLcore.getD []).Pairwise fun first second => first.toNat < second.toNat
  count : (settings.procLcore.getD []).length = settings.nbProcs

variable {settings settings' : Settings} {name value sectionName : String} {cfg : FfConfig}

theorem lcoreEnabled_mem (wf : ProcLcoreWf settings) {lcoreId : UInt16}
    (enabled : lcoreEnabled settings lcoreId = true) : lcoreId ∈ settings.procLcore.getD [] := by
  have count := wf.count
  exact mem_of_getElem?
    ((searches_loop le_rfl (by omega) (by omega)).entry (of_decide_eq_true enabled))

/-- What `ini_parse_handler` does to the settings, for any process. -/
def settingsStep (settings : Settings) (line : IniLine) : ConfigM Settings :=
  if isMaskLine line then
    match coremaskLcores line.value with
    | none => .error .rejected
    | some procLcore =>
      .ok
        { settings with
          lcoreMask := some line.value
          procLcore := some procLcore
          nbProcs := procLcore.length }
  else settingsHandler settings line

/-- A process whose settings are `settings`. -/
def HasSettings (procId : Int) (procType : String) (cfg : FfConfig) (settings : Settings) : Prop :=
  cfg.procId = procId ∧ cfg.procType = procType ∧ cfg.settings = settings

/-- A line that is accepted changes the settings as `settingsStep` says. -/
theorem iniParseHandler_settings {procId : Int} {procType : String} (cfg : FfConfig)
    (settings : Settings) (line : IniLine) (cfg' : FfConfig)
    (has : HasSettings procId procType cfg settings)
    (done : iniParseHandler cfg line = .ok cfg') :
    ∃ settings', settingsStep settings line = .ok settings' ∧
      HasSettings procId procType cfg' settings' := by
  obtain ⟨rfl, rfl, rfl⟩ := has
  unfold iniParseHandler at done
  unfold settingsStep
  split_ifs at done ⊢ with mask
  · obtain ⟨procLcore, found, id, type, settings⟩ := parseLcoreMask_ok done
    rw [found]
    exact ⟨_, rfl, id, type, settings⟩
  · obtain ⟨settings', handled, rest⟩ := bind_eq_ok done
    obtain rfl := ok.inj rest
    exact ⟨settings', handled, rfl, rfl, rfl⟩

/-- Settings with the same lcores of the processes. -/
def SameProcLcore (settings settings' : Settings) : Prop :=
  settings'.procLcore = settings.procLcore ∧ settings'.nbProcs = settings.nbProcs

/-- What `setDpdk` stores leaves the lcores of the processes alone. -/
theorem setDpdk_procLcore (done : setDpdk settings name value = .ok settings') :
    SameProcLcore settings settings' := by
  unfold setDpdk at done
  split at done
  case h_7 =>
    obtain ⟨ports, -, rest⟩ := bind_eq_ok done
    obtain rfl := ok.inj rest
    exact ⟨rfl, rfl⟩
  all_goals
    obtain rfl := ok.inj done
    exact ⟨rfl, rfl⟩

/-- A line of a port leaves the lcores of the processes alone. -/
theorem portCfgHandler_procLcore
    (done : portCfgHandler settings sectionName name value = .ok settings') :
    SameProcLcore settings settings' := by
  unfold portCfgHandler at done
  split_ifs at done
  obtain ⟨cfgs, -, rest⟩ := bind_eq_ok done
  obtain ⟨index, -, rest⟩ := bind_eq_ok rest
  cases index with
  | none =>
    obtain rfl := ok.inj rest
    exact ⟨rfl, rfl⟩
  | some portid =>
    obtain ⟨cur, -, rest⟩ := bind_eq_ok rest
    obtain rfl := ok.inj rest
    exact ⟨rfl, rfl⟩

theorem vdevCfgHandler_procLcore
    (done : vdevCfgHandler settings sectionName name value = .ok settings') :
    SameProcLcore settings settings' := by
  unfold vdevCfgHandler at done
  split_ifs at done
  obtain ⟨index, -, rest⟩ := bind_eq_ok done
  cases index <;> obtain rfl := ok.inj rest <;> exact ⟨rfl, rfl⟩

theorem bondCfgHandler_procLcore
    (done : bondCfgHandler settings sectionName name value = .ok settings') :
    SameProcLcore settings settings' := by
  unfold bondCfgHandler at done
  split_ifs at done
  obtain ⟨index, -, rest⟩ := bind_eq_ok done
  cases index <;> obtain rfl := ok.inj rest <;> exact ⟨rfl, rfl⟩

/-- Only the mask line writes the lcores of the processes. -/
theorem settingsHandler_procLcore {line : IniLine}
    (done : settingsHandler settings line = .ok settings') : SameProcLcore settings settings' := by
  unfold settingsHandler at done
  split_ifs at done
  · exact setDpdk_procLcore done
  · obtain rfl := ok.inj done
    exact ⟨rfl, rfl⟩
  · obtain rfl := ok.inj done
    exact ⟨rfl, rfl⟩
  · obtain rfl := ok.inj done
    exact ⟨rfl, rfl⟩
  · exact portCfgHandler_procLcore done
  · exact vdevCfgHandler_procLcore done
  · exact bondCfgHandler_procLcore done
  · obtain rfl := ok.inj done
    exact ⟨rfl, rfl⟩
  · obtain rfl := ok.inj done
    exact ⟨rfl, rfl⟩

/-- Every line keeps the lcores ascending, one for each process. -/
theorem settingsStep_wf (settings : Settings) (line : IniLine) (settings' : Settings)
    (wf : ProcLcoreWf settings) (done : settingsStep settings line = .ok settings') :
    ProcLcoreWf settings' := by
  unfold settingsStep at done
  split_ifs at done
  · split at done
    case h_1 => cases done
    case h_2 procLcore found =>
      obtain rfl := ok.inj done
      exact ⟨coremaskLcores_ascending found, rfl⟩
  · obtain ⟨lcores, count⟩ := settingsHandler_procLcore done
    exact ⟨lcores ▸ wf.ascending, lcores ▸ count ▸ wf.count⟩

variable {options : List CmdOption} {cfg' : FfConfig} {lines : List IniLine}

theorem ffParseArgs_settings (done : ffParseArgs options = .ok cfg) : cfg.settings = {} := by
  obtain ⟨args, -, rest⟩ := bind_eq_ok done
  simp only at rest
  split_ifs at rest <;> obtain rfl := ok.inj rest <;> rfl

/-- The lcores of every configured port are lcores of processes. -/
def PortsChecked (settings : Settings) : Prop :=
  ∀ portid ∈ settings.portidList, ∃ pc, settings.portCfg portid = .ok pc ∧
    ∀ lcoreId ∈ pc.lcores, lcoreEnabled settings lcoreId = true

theorem checkPort_lcores {pc : PortCfg} (done : checkPort cfg pc = .ok ()) :
    ∀ lcoreId ∈ pc.lcores, lcoreEnabled cfg.settings lcoreId = true := by
  unfold checkPort at done
  split_ifs at done with missing enabled kni
  all_goals
    rw [Bool.not_eq_true, Bool.not_eq_false'] at enabled
    exact all_eq_true.mp enabled

theorem ffCheckConfig_ok (done : ffCheckConfig cfg = .ok cfg') :
    cfg' = { cfg with settings := { cfg.settings with pcap := checkPcap cfg.settings.pcap } } ∧
      PortsChecked cfg'.settings := by
  obtain ⟨_, -, rest⟩ := bind_eq_ok done
  obtain ⟨_, checked, rest⟩ := bind_eq_ok rest
  obtain rfl := ok.inj rest
  refine ⟨rfl, fun portid member => ?_⟩
  obtain ⟨pc, found, lcores⟩ := bind_eq_ok (forM_eq_ok checked portid member)
  exact ⟨pc, found, checkPort_lcores lcores⟩

/-- The settings in a file, before the check. -/
def fileSettings (lines : List IniLine) : ConfigM Settings := lines.foldlM settingsStep {}

/-- What an accepted configuration has established. -/
structure LoadedConfig (lines : List IniLine) (cfg : FfConfig) : Prop where
  settings : ∃ settings, fileSettings lines = .ok settings ∧
    cfg.settings = { settings with pcap := checkPcap settings.pcap }
  procLcore : ProcLcoreWf cfg.settings
  ports : PortsChecked cfg.settings

/-- A configuration that loads is that of the file, with its checks passed. -/
theorem ffLoadConfig_loaded (done : ffLoadConfig options lines = .ok cfg) :
    LoadedConfig lines cfg := by
  obtain ⟨initial, parsed, rest⟩ := bind_eq_ok done
  obtain ⟨read, handled, checked⟩ := bind_eq_ok rest
  have start : HasSettings initial.procId initial.procType initial {} :=
    ⟨rfl, rfl, ffParseArgs_settings parsed⟩
  obtain ⟨settings, file, -, -, same⟩ :=
    foldlM_simulates iniParseHandler_settings start handled
  have wf : ProcLcoreWf settings := foldlM_keeps settingsStep_wf ⟨by simp, rfl⟩ file
  obtain ⟨result, ports⟩ := ffCheckConfig_ok checked
  subst same
  refine ⟨⟨_, file, by rw [result]⟩, ?_, ports⟩
  rw [result]
  exact ⟨wf.ascending, wf.count⟩

/-- All processes that accept a file agree on its settings. -/
theorem LoadedConfig.settings_eq (loaded : LoadedConfig lines cfg)
    (loaded' : LoadedConfig lines cfg') : cfg.settings = cfg'.settings := by
  obtain ⟨settings, file, same⟩ := loaded.settings
  obtain ⟨settings', file', same'⟩ := loaded'.settings
  obtain rfl := ok.inj (file.symm.trans file')
  rw [same, same']

/-- The search finds what an ascending array has, and nothing else. The mask gives the lcores of
the processes in that order, so a configuration is accepted only if its ports use no others. -/
theorem finds_and_subset :
    (∀ (arr : List UInt16) (x : UInt16), arr.Pairwise (· ≤ ·) →
      Finds arr x (uint16BinarySearch arr 0 (arr.length - 1) x)) ∧
    ∀ (options : List CmdOption) (lines : List IniLine) (cfg : FfConfig),
      ffLoadConfig options lines = .ok cfg → ∀ portid ∈ cfg.settings.portidList,
        ∃ pc, cfg.settings.portCfg portid = .ok pc ∧
          ∀ lcoreId ∈ pc.lcores, lcoreId ∈ cfg.settings.procLcore.getD [] := by
  refine ⟨fun arr x ascending => finds_of_ascending ascending, ?_⟩
  intro options lines cfg done portid member
  have loaded := ffLoadConfig_loaded done
  obtain ⟨pc, found, enabled⟩ := loaded.ports portid member
  exact ⟨pc, found, fun lcoreId listed => lcoreEnabled_mem loaded.procLcore (enabled lcoreId listed)⟩

/-- A file whose port 0 lists lcore 0 twice. -/
def lcoreTwice : List IniLine :=
  [⟨"dpdk", "lcore_mask", "1"⟩, ⟨"dpdk", "port_list", "0"⟩, ⟨"port0", "addr", "10.0.0.2"⟩,
    ⟨"port0", "netmask", "255.255.255.0"⟩, ⟨"port0", "broadcast", "10.0.0.255"⟩,
    ⟨"port0", "gateway", "10.0.0.1"⟩, ⟨"port0", "lcore_list", "0,0"⟩]

/-- The configuration of the only process with that file. -/
def lcoreTwiceConfig : FfConfig :=
  (ffLoadConfig [] lcoreTwice).toOption.getD { procId := 0, procType := "" }

theorem lcoreTwice_accepted : ffLoadConfig [] lcoreTwice = .ok lcoreTwiceConfig := by
  rfl

theorem finds_and_subset_lcoreTwice :
    Finds [0, 2, 2, 5] 2 (uint16BinarySearch [0, 2, 2, 5] 0 3 2) ∧
      ∃ pc, lcoreTwiceConfig.settings.portCfg 0 = .ok pc ∧
        ∀ lcoreId ∈ pc.lcores, lcoreId ∈ lcoreTwiceConfig.settings.procLcore.getD [] :=
  ⟨finds_and_subset.1 [0, 2, 2, 5] 2 (by decide),
    finds_and_subset.2 [] lcoreTwice _ lcoreTwice_accepted 0 (by decide)⟩

end FStack
