import FStack.Config.Check

/-!
# The arguments for the EAL

`dpdk_args_setup` composes each argument in `temp`, with the further settings of a device
through `temp2`, and puts a copy into the next entry of `dpdk_argv`. Neither the texts nor the
number of devices are bounded before.
-/

namespace FStack

open CText Fallible List

/-- `DPDK_CONFIG_MAXLEN`, the size of `temp` and of `temp2`. -/
def dpdkConfigMaxlen : Nat := 256

/-- `DPDK_CONFIG_NUM`; `dpdk_argv` has one entry more. -/
def dpdkConfigNum : Nat := 16

/-- An argument: what is printed to `temp`, and what goes through `temp2`. -/
structure EalArg where
  head : String
  pieces : List String := []

/-- What is there if a setting is not zero or null. -/
def given {α : Type} (there : Prop) [Decidable there] (value : α) : List α :=
  if there then [value] else []

/-- A text that may be a null pointer, as `printf` shows it. -/
def shown (text : Option String) : String := text.getD "(null)"

def vdevArg (cfg : VdevCfg) : EalArg where
  head := "--vdev=virtio_user" ++ toString cfg.vdevId ++ ",path=" ++ shown cfg.path
  pieces := given (cfg.nbQueues ≠ 0) (",queues=" ++ toString cfg.nbQueues) ++
    given (cfg.nbCq ≠ 0) (",cq=" ++ toString cfg.nbCq) ++
    given (cfg.queueSize ≠ 0) (",queue_size=" ++ toString cfg.queueSize) ++
    cfg.mac.toList.map (",mac=" ++ ·)

def bondArg (cfg : BondCfg) : EalArg where
  head := "net_bonding" ++ toString cfg.bondId ++ ",mode=" ++ toString cfg.mode ++ ",slave=" ++
    shown cfg.slave
  pieces := cfg.primary.toList.map (",primary=" ++ ·) ++
    given (cfg.socketId ≠ 0) (",socket_id=" ++ toString cfg.socketId) ++
    cfg.bondMac.toList.map (",mac=" ++ ·) ++ cfg.xmitPolicy.toList.map (",xmit_policy=" ++ ·) ++
    given (cfg.lscPollPeriodMs ≠ 0) (",lsc_poll_period_ms=" ++ toString cfg.lscPollPeriodMs) ++
    given (cfg.upDelay ≠ 0) (",up_delay=" ++ toString cfg.upDelay) ++
    given (cfg.downDelay ≠ 0) (",down_delay=" ++ toString cfg.downDelay)

/-- The entries that a loop over a device array reads. -/
def devices {Cfg : Type} (cfgs : Option (Nat → Cfg)) (count : Int) : ConfigM (List Cfg) :=
  (range count.toNat).mapM fun i =>
    match cfgs with
    | none => .error .undefined
    | some cfgs => if i < rteMaxEthports then .ok (cfgs i) else .error .undefined

/-- The arguments for the settings. -/
def optionArgs (cfg : FfConfig) : List String :=
  let { settings, procMask, procType, .. } := cfg
  ["f-stack"] ++ given (settings.noHuge ≠ 0) "--no-huge" ++ procMask.toList.map ("-c" ++ ·) ++
    given (settings.nbChannel ≠ 0) ("-n" ++ toString settings.nbChannel) ++
    given (settings.memory ≠ 0) ("-m" ++ toString settings.memory) ++
    ["--proc-type=" ++ procType] ++
    settings.baseVirtaddr.toList.map ("--base-virtaddr=" ++ ·) ++
    settings.filePrefix.toList.map ("--file-prefix=container-" ++ ·) ++
    settings.pciWhitelist.toList.map ("--pci-whitelist=" ++ ·)

/-- The arguments behind those of the virtual devices. -/
def noPciArgs (settings : Settings) : List String :=
  if settings.nbVdev = 0 then []
  else ["--no-pci"] ++ given (settings.filePrefix = none) "--file-prefix=container"

/-- All arguments, with those of the devices. -/
def argList (cfg : FfConfig) (vdevs : List VdevCfg) (bonds : List BondCfg) : List EalArg :=
  (optionArgs cfg).map (⟨·, []⟩) ++ vdevs.map vdevArg ++ (noPciArgs cfg.settings).map (⟨·, []⟩) ++
    bonds.flatMap fun bond => [⟨"--vdev", []⟩, bondArg bond]

/-- The arguments that are composed, in their order. -/
def ealArgs (cfg : FfConfig) : ConfigM (List EalArg) := do
  let vdevs ← devices cfg.settings.vdevCfgs cfg.settings.nbVdev
  let bonds ← devices cfg.settings.bondCfgs cfg.settings.nbBond
  return argList cfg vdevs bonds

/-- A text with its end fits into the buffer. -/
def Bounded (text : String) : Prop := byteSize text.toList < dpdkConfigMaxlen

instance (text : String) : Decidable (Bounded text) := inferInstanceAs (Decidable (_ < _))

/-- `sprintf` or `strcat`. -/
def boundedText (text : String) : ConfigM String :=
  if Bounded text then .ok text else .error .undefined

/-- The text of `temp`. -/
def composeArg (arg : EalArg) : ConfigM String := do
  let temp ← boundedText arg.head
  arg.pieces.foldlM (fun temp piece => do
    let temp2 ← boundedText piece
    boundedText (temp ++ temp2)) temp

/-- `dpdk_argv` and `dpdk_argc`. -/
structure EalVector where
  argv : List String := []
  argc : Nat := 0

/-- `dpdk_argv[n++] = strdup(temp)`. -/
def putArg (vector : EalVector) (arg : EalArg) : ConfigM EalVector := do
  let temp ← composeArg arg
  if vector.argc < dpdkConfigNum + 1 then .ok ⟨vector.argv ++ [temp], vector.argc + 1⟩
  else .error .undefined

/-- `dpdk_args_setup`. -/
def dpdkArgsSetup (cfg : FfConfig) : ConfigM EalVector := do
  (← ealArgs cfg).foldlM putArg {}

/-- All of an argument. -/
def EalArg.text (arg : EalArg) : String := arg.pieces.foldl (· ++ ·) arg.head

/-- The arguments are all in `dpdk_argv`, each was composed inside `temp` and `temp2`, and
`dpdk_argc` is their number. -/
def EalSafe (cfg : FfConfig) : Prop :=
  ∃ vector args, dpdkArgsSetup cfg = .ok vector ∧ ealArgs cfg = .ok args ∧
    vector.argv = args.map EalArg.text ∧ vector.argc = args.length

theorem bounded_of_append {text rest : String} (bounded : Bounded (text ++ rest)) :
    Bounded text ∧ Bounded rest := by
  unfold Bounded at *
  rw [String.toList_append, byteSize_append] at bounded
  omega

theorem bounded_of_foldl {pieces : List String} {temp : String}
    (bounded : Bounded (pieces.foldl (· ++ ·) temp)) : Bounded temp := by
  induction pieces generalizing temp with
  | nil => exact bounded
  | cons piece rest ih => exact (bounded_of_append (ih bounded)).1

/-- An argument is composed exactly if it fits as a whole. -/
theorem composeArg_eq (arg : EalArg) :
    composeArg arg = if Bounded arg.text then .ok arg.text else .error .undefined := by
  obtain ⟨head, pieces⟩ := arg
  unfold composeArg EalArg.text boundedText
  dsimp only
  by_cases first : Bounded head
  · rw [if_pos first]
    change pieces.foldlM _ head = _
    induction pieces generalizing head with
    | nil => exact (if_pos first).symm
    | cons piece rest ih =>
      rw [foldlM_cons, foldl_cons]
      by_cases fits : Bounded (head ++ piece)
      · simp only [if_pos (bounded_of_append fits).2, bind, Except.bind, if_pos fits]
        exact ih (head ++ piece) fits
      · rw [if_neg fun bounded => fits (bounded_of_foldl bounded)]
        by_cases short : Bounded piece
        · simp only [if_pos short, bind, Except.bind, if_neg fits]
        · simp only [if_neg short, bind, Except.bind]
  · rw [if_neg first, if_neg fun bounded => first (bounded_of_foldl bounded)]
    rfl

/-- An argument is stored exactly if its text fits and there is a place left. -/
theorem putArg_eq_ok_iff {vector next : EalVector} {arg : EalArg} :
    putArg vector arg = .ok next ↔ Bounded arg.text ∧ vector.argc < dpdkConfigNum + 1 ∧
      next = ⟨vector.argv ++ [arg.text], vector.argc + 1⟩ := by
  rw [putArg, composeArg_eq]
  by_cases fits : Bounded arg.text
  · by_cases free : vector.argc < dpdkConfigNum + 1
    · simp [fits, free, bind, Except.bind, eq_comm]
    · simp [fits, free, bind, Except.bind]
  · simp [fits, bind, Except.bind]

/-- Arguments are put one behind the other exactly if they fit. -/
theorem foldlM_putArg_iff {args : List EalArg} {vector final : EalVector}
    (room : vector.argc ≤ dpdkConfigNum + 1) :
    args.foldlM putArg vector = .ok final ↔
      (∀ arg ∈ args, Bounded arg.text) ∧ vector.argc + args.length ≤ dpdkConfigNum + 1 ∧
        final = ⟨vector.argv ++ args.map EalArg.text, vector.argc + args.length⟩ := by
  induction args generalizing vector with
  | nil => simp [pure, Except.pure, room, eq_comm]
  | cons arg rest ih =>
    rw [forall_mem_cons, length_cons, map_cons]
    constructor
    · intro done
      obtain ⟨next, put, others⟩ := foldlM_cons_eq_ok done
      obtain ⟨fits, free, rfl⟩ := putArg_eq_ok_iff.mp put
      obtain ⟨later, enough, rfl⟩ := (ih (Nat.succ_le_of_lt free)).mp others
      dsimp only at enough ⊢
      refine ⟨⟨fits, later⟩, by omega, ?_⟩
      rw [append_assoc, singleton_append, Nat.add_right_comm, Nat.add_assoc]
    · rintro ⟨⟨fits, later⟩, enough, rfl⟩
      have free : vector.argc < dpdkConfigNum + 1 := by omega
      rw [foldlM_cons, putArg_eq_ok_iff.mpr ⟨fits, free, rfl⟩]
      refine (ih (Nat.succ_le_of_lt free)).mpr ⟨later, by dsimp only; omega, ?_⟩
      rw [append_assoc, singleton_append, Nat.add_right_comm, Nat.add_assoc]

/-- The entries that a loop over a device array reads are there, and their arguments fit. -/
def DevicesFit {Cfg : Type} (cfgs : Option (Nat → Cfg)) (count : Int) (arg : Cfg → EalArg) : Prop :=
  0 < count → count ≤ rteMaxEthports ∧
    ∃ entries, cfgs = some entries ∧ ∀ i : Nat, i < count → Bounded (arg (entries i)).text

/-- Every index gives one device. -/
theorem length_of_mapM {Cfg : Type} {read : Nat → ConfigM Cfg} {indices : List Nat}
    {found : List Cfg} (done : indices.mapM read = .ok found) : found.length = indices.length := by
  induction indices generalizing found with
  | nil =>
    obtain rfl := Except.ok.inj done
    rfl
  | cons i rest ih =>
    rw [mapM_cons] at done
    obtain ⟨first, -, done⟩ := bind_eq_ok done
    obtain ⟨others, others_ok, done⟩ := bind_eq_ok done
    obtain rfl := Except.ok.inj done
    rw [length_cons, length_cons, ih others_ok]

/-- Reading entries of an array succeeds exactly inside it. -/
theorem mapM_entries_iff {Cfg : Type} {entries : Nat → Cfg} {indices : List Nat} {found : List Cfg} :
    (indices.mapM fun i =>
      if i < rteMaxEthports then (.ok (entries i) : ConfigM Cfg) else .error .undefined) =
        .ok found ↔ (∀ i ∈ indices, i < rteMaxEthports) ∧ found = indices.map entries := by
  induction indices generalizing found with
  | nil => simp [pure, Except.pure, eq_comm]
  | cons i rest ih =>
    rw [mapM_cons, forall_mem_cons, map_cons]
    by_cases inside : i < rteMaxEthports
    · constructor
      · intro done
        rw [if_pos inside] at done
        obtain ⟨others, read, same⟩ := @bind_eq_ok _ _ _ (rest.mapM _) _ _ done
        obtain ⟨all, rfl⟩ := ih.mp read
        exact ⟨⟨inside, all⟩, (Except.ok.inj same).symm⟩
      · rintro ⟨⟨-, all⟩, rfl⟩
        rw [if_pos inside, ih.mpr ⟨all, rfl⟩]
        rfl
    · rw [if_neg inside]
      exact iff_of_false (fun done => by cases done) fun all => inside all.1.1

theorem devices_nonpos {Cfg : Type} (cfgs : Option (Nat → Cfg)) {count : Int} (none : count ≤ 0) :
    devices cfgs count = .ok [] := by
  rw [devices, Int.toNat_of_nonpos none]
  rfl

/-- The device entries are read, and their arguments fit. -/
theorem devicesFit_iff {Cfg : Type} {cfgs : Option (Nat → Cfg)} {count : Int} {arg : Cfg → EalArg} :
    DevicesFit cfgs count arg ↔
      ∃ found, devices cfgs count = .ok found ∧ ∀ cfg ∈ found, Bounded (arg cfg).text := by
  by_cases none : count ≤ 0
  · exact iff_of_true (fun some => absurd some (not_lt.mpr none))
      ⟨[], devices_nonpos cfgs none, forall_mem_nil _⟩
  · unfold DevicesFit
    rw [forall_prop_of_true (not_le.mp none)]
    cases cfgs with
    | none =>
      obtain ⟨n, rfl⟩ : ∃ n : Nat, count = n + 1 := ⟨count.toNat - 1, by omega⟩
      refine iff_of_false (fun fit => ?_) (fun ⟨found, read, _⟩ => ?_)
      · obtain ⟨-, _, missing, -⟩ := fit
        cases missing
      · rw [devices, Int.toNat_natCast_add_one, range_succ_eq_map] at read
        cases read
    | some entries =>
      constructor
      · rintro ⟨few, _, same, fits⟩
        cases same
        refine ⟨_, mapM_entries_iff.mpr ⟨fun i inside => ?_, rfl⟩, fun cfg there => ?_⟩
        · rw [mem_range] at inside
          omega
        · obtain ⟨i, inside, rfl⟩ := mem_map.mp there
          rw [mem_range] at inside
          exact fits i (by omega)
      · rintro ⟨found, read, fits⟩
        obtain ⟨few, rfl⟩ := mapM_entries_iff.mp read
        have last := few (count.toNat - 1) (mem_range.mpr (by omega))
        exact ⟨by omega, entries, rfl, fun i inside =>
          fits _ (mem_map_of_mem (mem_range.mpr (by omega)))⟩

/-- How many arguments a configuration asks for. -/
def argCount (cfg : FfConfig) : Nat :=
  let { settings, procMask, .. } := cfg
  2 + (if settings.noHuge ≠ 0 then 1 else 0) + procMask.toList.length +
    (if settings.nbChannel ≠ 0 then 1 else 0) + (if settings.memory ≠ 0 then 1 else 0) +
    settings.baseVirtaddr.toList.length + settings.filePrefix.toList.length +
    settings.pciWhitelist.toList.length + settings.nbVdev.toNat +
    (if settings.nbVdev = 0 then 0 else if settings.filePrefix = none then 2 else 1) +
    2 * settings.nbBond.toNat

/-- The texts of the settings fit into the buffers. -/
structure OptionsFit (cfg : FfConfig) : Prop where
  mask : ∀ mask ∈ cfg.procMask, Bounded ("-c" ++ mask)
  channel : cfg.settings.nbChannel ≠ 0 → Bounded ("-n" ++ toString cfg.settings.nbChannel)
  memory : cfg.settings.memory ≠ 0 → Bounded ("-m" ++ toString cfg.settings.memory)
  type : Bounded ("--proc-type=" ++ cfg.procType)
  address : ∀ address ∈ cfg.settings.baseVirtaddr, Bounded ("--base-virtaddr=" ++ address)
  file : ∀ file ∈ cfg.settings.filePrefix, Bounded ("--file-prefix=container-" ++ file)
  pci : ∀ pci ∈ cfg.settings.pciWhitelist, Bounded ("--pci-whitelist=" ++ pci)

/-- The arguments fit into `dpdk_argv` and each into the buffers, and the device entries are
there. -/
structure EalFits (cfg : FfConfig) : Prop where
  count : argCount cfg ≤ dpdkConfigNum + 1
  options : OptionsFit cfg
  vdevs : DevicesFit cfg.settings.vdevCfgs cfg.settings.nbVdev vdevArg
  bonds : DevicesFit cfg.settings.bondCfgs cfg.settings.nbBond bondArg

/-- The arguments are set up as they should be exactly if all are bounded and have room. -/
theorem ealSafe_iff_args (cfg : FfConfig) :
    EalSafe cfg ↔ ∃ args, ealArgs cfg = .ok args ∧ (∀ arg ∈ args, Bounded arg.text) ∧
      args.length ≤ dpdkConfigNum + 1 := by
  unfold EalSafe dpdkArgsSetup
  constructor
  · rintro ⟨vector, args, done, composed, -⟩
    rw [composed] at done
    obtain ⟨fits, room, -⟩ := (foldlM_putArg_iff (Nat.zero_le _)).mp done
    exact ⟨args, composed, fits, by simpa using room⟩
  · rintro ⟨args, composed, fits, room⟩
    refine ⟨⟨args.map EalArg.text, args.length⟩, args, ?_, composed, rfl, rfl⟩
    rw [composed]
    exact (foldlM_putArg_iff (Nat.zero_le _)).mpr ⟨fits, by simpa using room, by simp⟩

theorem forall_mem_given {α : Type} {there : Prop} [Decidable there] {value : α} {P : α → Prop} :
    (∀ x ∈ given there value, P x) ↔ (there → P value) := by
  unfold given
  split_ifs with set <;> simp [set]

theorem length_given {α : Type} {there : Prop} [Decidable there] {value : α} :
    (given there value).length = if there then 1 else 0 := by
  unfold given
  split_ifs <;> rfl

/-- The texts of the options fit exactly if the values do. -/
theorem optionArgs_bounded_iff (cfg : FfConfig) :
    (∀ text ∈ optionArgs cfg, Bounded text) ↔ OptionsFit cfg := by
  have name : Bounded "f-stack" := by decide
  have huge : Bounded "--no-huge" := by decide
  simp only [optionArgs, forall_mem_append, forall_mem_map, forall_mem_given, Option.mem_toList,
    forall_mem_singleton]
  constructor
  · rintro ⟨⟨⟨⟨⟨⟨⟨⟨-, -⟩, mask⟩, channel⟩, memory⟩, type⟩, address⟩, file⟩, pci⟩
    exact ⟨mask, channel, memory, type, address, file, pci⟩
  · rintro ⟨mask, channel, memory, type, address, file, pci⟩
    exact ⟨⟨⟨⟨⟨⟨⟨⟨name, fun _ => huge⟩, mask⟩, channel⟩, memory⟩, type⟩, address⟩, file⟩, pci⟩

theorem noPciArgs_bounded (settings : Settings) : ∀ text ∈ noPciArgs settings, Bounded text := by
  unfold noPciArgs
  split_ifs
  · exact forall_mem_nil _
  · rw [forall_mem_append, forall_mem_singleton, forall_mem_given]
    exact ⟨by decide, fun _ => by decide⟩

section Devices

variable {cfg : FfConfig} {vdevs : List VdevCfg} {bonds : List BondCfg}

/-- All arguments are bounded exactly if those of the settings and of the devices are. -/
theorem args_bounded_iff :
    (∀ arg ∈ argList cfg vdevs bonds, Bounded arg.text) ↔
      OptionsFit cfg ∧ (∀ vdev ∈ vdevs, Bounded (vdevArg vdev).text) ∧
        ∀ bond ∈ bonds, Bounded (bondArg bond).text := by
  have vdev : Bounded "--vdev" := by decide
  simp only [argList, forall_mem_append, forall_mem_map, forall_mem_flatMap, forall_mem_cons,
    not_mem_nil, false_implies, implies_true, and_true]
  rw [← optionArgs_bounded_iff]
  constructor
  · rintro ⟨⟨⟨options, vdevs⟩, -⟩, bonds⟩
    exact ⟨options, vdevs, fun bond there => (bonds bond there).2⟩
  · rintro ⟨options, vdevs, bonds⟩
    exact ⟨⟨⟨options, vdevs⟩, noPciArgs_bounded _⟩, fun bond there => ⟨vdev, bonds bond there⟩⟩

/-- The arguments are as many as their count says. -/
theorem length_argList
    (readVdevs : devices cfg.settings.vdevCfgs cfg.settings.nbVdev = .ok vdevs)
    (readBonds : devices cfg.settings.bondCfgs cfg.settings.nbBond = .ok bonds) :
    (argList cfg vdevs bonds).length = argCount cfg := by
  have countVdevs := length_of_mapM readVdevs
  have countBonds := length_of_mapM readBonds
  have noPci : (noPciArgs cfg.settings).length =
      if cfg.settings.nbVdev = 0 then 0 else if cfg.settings.filePrefix = none then 2 else 1 := by
    unfold noPciArgs given
    split_ifs <;> rfl
  simp only [argList, length_append, length_map, length_flatMap, noPci, countVdevs, countBonds,
    optionArgs, length_given, argCount, length_cons, length_nil, length_range, map_const',
    sum_replicate_nat]
  omega

end Devices

/-- The arguments are set up as they should be exactly if they fit. -/
theorem ealSafe_iff (cfg : FfConfig) : EalSafe cfg ↔ EalFits cfg := by
  rw [ealSafe_iff_args]
  constructor
  · rintro ⟨args, composed, fits, room⟩
    obtain ⟨vdevs, readVdevs, composed⟩ := bind_eq_ok composed
    obtain ⟨bonds, readBonds, composed⟩ := bind_eq_ok composed
    obtain rfl := Except.ok.inj composed
    obtain ⟨options, fitVdevs, fitBonds⟩ := args_bounded_iff.mp fits
    exact ⟨length_argList readVdevs readBonds ▸ room, options,
      devicesFit_iff.mpr ⟨vdevs, readVdevs, fitVdevs⟩,
      devicesFit_iff.mpr ⟨bonds, readBonds, fitBonds⟩⟩
  · rintro ⟨count, options, vdevs, bonds⟩
    obtain ⟨vdevs, readVdevs, fitVdevs⟩ := devicesFit_iff.mp vdevs
    obtain ⟨bonds, readBonds, fitBonds⟩ := devicesFit_iff.mp bonds
    refine ⟨_, ?_, args_bounded_iff.mpr ⟨options, fitVdevs, fitBonds⟩,
      (length_argList readVdevs readBonds).trans_le count⟩
    rw [ealArgs, readVdevs, readBonds]
    rfl

/-- One virtual device of a file that says no more. -/
def oneDevice (nbVdev : String) : List IniLine :=
  [⟨"dpdk", "nb_vdev", nbVdev⟩, ⟨"vdev0", "path", "/tmp/vhost"⟩]

/-- A configuration with one device. -/
theorem ealSafe_oneDevice : ∃ cfg, ffLoadConfig [] (oneDevice "1") = .ok cfg ∧ EalSafe cfg := by
  refine ⟨_, rfl, (ealSafe_iff _).mpr ⟨by decide +kernel, ?_, fun _ => ?_, fun some => ?_⟩⟩
  · constructor <;> decide +kernel
  · refine ⟨by decide +kernel, _, rfl, fun i inside => ?_⟩
    change (i : Int) < 1 at inside
    obtain rfl : i = 0 := by omega
    decide +kernel
  · exact absurd some (by decide +kernel)

/-- Sixteen virtual devices take twenty arguments. -/
theorem not_ealSafe_sixteenDevices :
    ∃ cfg, ffLoadConfig [] (oneDevice "16") = .ok cfg ∧ ¬ EalSafe cfg := by
  refine ⟨_, rfl, ?_⟩
  rintro ⟨vector, args, done, -⟩
  have succeeds : (dpdkArgsSetup _).toBool = true := congrArg Except.toBool done
  exact absurd succeeds (by decide +kernel)

end FStack
