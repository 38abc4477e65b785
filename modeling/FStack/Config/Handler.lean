import FStack.Config.Values

/-!
# The handler of configuration lines

`ini_parse_handler` is called for each line of the file in turn and writes one
field of the configuration; sections for ports, virtual and bonded devices have
handlers of their own, which allocate their array at the first line.
-/

namespace FStack

open CText

/-- `atoi` of a value. -/
def intValue (value : String) : Int := atoi value.toList

/-- The entry a section such as `port3` is about, none where it is above `limit`
and so without effect. -/
def sectionIndex (format : String) (limit : Int) (sectionName : String) : ConfigM (Option Nat) :=
  match sscanfInt format.toList sectionName.toList with
  | none => .error .rejected
  | some id =>
    if limit < id then .ok none
    else if id < 0 ∨ rteMaxEthports ≤ id then .error .undefined
    else .ok (some id.toNat)

/-- The configuration of a port without a section: all lcores of the processes. -/
def defaultPortCfg (settings : Settings) (fits : settings.nbProcs ≤ dpdkMaxLcore)
    (portid : UInt16) : PortCfg where
  portId := portid.toUInt8
  nbLcores := settings.nbProcs
  lcoreList :=
    let procLcore := (settings.procLcore.getD []).take settings.nbProcs
    procLcore ++ List.replicate (dpdkMaxLcore - procLcore.length) 0
  sized := by
    simp only [List.length_append, List.length_replicate, List.length_take]
    omega
  inside := fits

/-- The entries of `port_cfgs` when it is allocated. -/
def initialPortCfgs (settings : Settings) : ConfigM (Nat → PortCfg) :=
  if settings.portidList.any fun portid => rteMaxEthports ≤ portid.toNat then .error .undefined
  else if fits : settings.nbProcs ≤ dpdkMaxLcore then
    .ok
      (settings.portidList.foldl
        (fun cfgs portid => Function.update cfgs portid.toNat (defaultPortCfg settings fits portid))
        fun _ => {})
  else .error .undefined

/-- `port_cfgs`, allocated if it was not. -/
def allocatedPortCfgs (settings : Settings) : ConfigM (Nat → PortCfg) :=
  match settings.portCfgs with
  | none => initialPortCfgs settings
  | some cfgs => .ok cfgs

/-- The fields of a port section. -/
def setPortField (cur : PortCfg) (name value : String) : ConfigM PortCfg :=
  match name with
  | "addr" => .ok { cur with addr := some value }
  | "netmask" => .ok { cur with netmask := some value }
  | "broadcast" => .ok { cur with broadcast := some value }
  | "gateway" => .ok { cur with gateway := some value }
  | "pcap" => .ok { cur with pcap := some value }
  | "lcore_list" => parsePortLcoreList cur value
  | "slave_port_list" => parsePortSlaveList cur value
  | _ => .ok cur

/-- `port_cfg_handler`. -/
def portCfgHandler (settings : Settings) (sectionName name value : String) : ConfigM Settings :=
  if settings.nbPorts = 0 then .error .rejected
  else do
    let cfgs ← allocatedPortCfgs settings
    match ← sectionIndex "port" settings.maxPortid.toNat sectionName with
    | none => .ok { settings with portCfgs := some cfgs }
    | some portid => do
        let cur :=
          if (cfgs portid).name.isSome then cfgs portid
          else { cfgs portid with name := some sectionName, portId := UInt8.ofNat portid }
        let cur ← setPortField cur name value
        .ok { settings with portCfgs := some (Function.update cfgs portid cur) }

/-- The fields of a virtual device section. -/
def setVdevField (cur : VdevCfg) (name value : String) : VdevCfg :=
  match name with
  | "iface" => { cur with iface := some value }
  | "path" => { cur with path := some value }
  | "queues" => { cur with nbQueues := UInt8.ofInt (intValue value) }
  | "queue_size" => { cur with queueSize := UInt16.ofInt (intValue value) }
  | "mac" => { cur with mac := some value }
  | "cq" => { cur with nbCq := UInt8.ofInt (intValue value) }
  | _ => cur

/-- `vdev_cfg_handler`. -/
def vdevCfgHandler (settings : Settings) (sectionName name value : String) : ConfigM Settings :=
  if settings.nbVdev = 0 then .error .rejected
  else do
    let cfgs := settings.vdevCfgs.getD fun _ => {}
    match ← sectionIndex "vdev" settings.nbVdev sectionName with
    | none => .ok { settings with vdevCfgs := some cfgs }
    | some vdevid =>
      let cur :=
        if (cfgs vdevid).name.isSome then cfgs vdevid
        else { cfgs vdevid with name := some sectionName, vdevId := UInt8.ofNat vdevid }
      let cur := setVdevField cur name value
      .ok { settings with vdevCfgs := some (Function.update cfgs vdevid cur) }

/-- The fields of a bonded device section. -/
def setBondField (cur : BondCfg) (name value : String) : BondCfg :=
  match name with
  | "mode" => { cur with mode := UInt8.ofInt (intValue value) }
  | "slave" => { cur with slave := some value }
  | "primary" => { cur with primary := some value }
  | "socket_id" => { cur with socketId := UInt8.ofInt (intValue value) }
  | "mac" => { cur with bondMac := some value }
  | "xmit_policy" => { cur with xmitPolicy := some value }
  | "lsc_poll_period_ms" => { cur with lscPollPeriodMs := UInt8.ofInt (intValue value) }
  | "up_delay" => { cur with upDelay := UInt16.ofInt (intValue value) }
  | "down_delay" => { cur with downDelay := UInt16.ofInt (intValue value) }
  | _ => cur

/-- `bond_cfg_handler`. -/
def bondCfgHandler (settings : Settings) (sectionName name value : String) : ConfigM Settings :=
  if settings.nbBond = 0 then .error .rejected
  else do
    let cfgs := settings.bondCfgs.getD fun _ => {}
    match ← sectionIndex "bond" settings.nbBond sectionName with
    | none => .ok { settings with bondCfgs := some cfgs }
    | some bondid =>
      let cur :=
        if (cfgs bondid).name.isSome then cfgs bondid
        else { cfgs bondid with name := some sectionName, bondId := UInt8.ofNat bondid }
      let cur := setBondField cur name value
      .ok { settings with bondCfgs := some (Function.update cfgs bondid cur) }

/-- `is_integer`. -/
def isInteger (text : List Char) : Bool :=
  let digits := (splitSign text).2
  digits ≠ [] && digits.all isDigit

/-- A new entry goes behind the first one of its list. -/
def insertFreebsdCfg (newconf : FreebsdCfg) : List FreebsdCfg → List FreebsdCfg
  | [] => [newconf]
  | first :: rest => first :: newconf :: rest

/-- `freebsd_conf_handler` for the section `boot`. -/
def bootConf (name value : String) : FreebsdCfg where
  name := name
  str := value
  value := .text

/-- `freebsd_conf_handler` for the section `sysctl`. -/
def sysctlConf (name value : String) : FreebsdCfg where
  name := name
  str := value
  value :=
    if isInteger value.toList then
      if name = "kern.ipc.maxsockbuf" then .long (strtol value.toList).1
      else .int (intValue value)
    else .text

/-- The section `freebsd.boot`. -/
def setFreebsdBoot (cur : FreebsdSettings) (name value : String) : FreebsdSettings :=
  match name with
  | "hz" => { cur with hz := intValue value }
  | "physmem" => { cur with physmem := (strtol value.toList).1 }
  | "fd_reserve" => { cur with fdReserve := intValue value }
  | "memsz_MB" => { cur with memSize := intValue value }
  | _ => { cur with boot := insertFreebsdCfg (bootConf name value) cur.boot }

/-- The section `kni`. -/
def setKni (cur : KniSettings) (name value : String) : KniSettings :=
  match name with
  | "enable" => { cur with enable := intValue value }
  | "kni_action" => { cur with kniAction := some value }
  | "method" => { cur with method := some value }
  | "tcp_port" => { cur with tcpPort := some value }
  | "udp_port" => { cur with udpPort := some value }
  | _ => cur

/-- The section `pcap`. -/
def setPcap (cur : PcapSettings) (name value : String) : PcapSettings :=
  match name with
  | "snaplen" => { cur with snapLen := UInt16.ofInt (intValue value) }
  | "savelen" => { cur with saveLen := UInt32.ofInt (intValue value) }
  | "enable" => { cur with enable := UInt16.ofInt (intValue value) }
  | "savepath" => { cur with savePath := some value }
  | _ => cur

/-- The section `dpdk` but for the lcore mask. -/
def setDpdk (cur : Settings) (name value : String) : ConfigM Settings :=
  match name with
  | "channel" => .ok { cur with nbChannel := intValue value }
  | "memory" => .ok { cur with memory := intValue value }
  | "no_huge" => .ok { cur with noHuge := intValue value }
  | "base_virtaddr" => .ok { cur with baseVirtaddr := some value }
  | "file_prefix" => .ok { cur with filePrefix := some value }
  | "pci_whitelist" => .ok { cur with pciWhitelist := some value }
  | "port_list" => parsePortList cur value
  | "nb_vdev" => .ok { cur with nbVdev := intValue value }
  | "nb_bond" => .ok { cur with nbBond := intValue value }
  | "promiscuous" => .ok { cur with promiscuous := intValue value }
  | "numa_on" => .ok { cur with numaOn := intValue value }
  | "tso" => .ok { cur with tso := intValue value }
  | "tx_csum_offoad_skip" => .ok { cur with txCsumOffoadSkip := intValue value }
  | "vlan_strip" => .ok { cur with vlanStrip := intValue value }
  | "idle_sleep" => .ok { cur with idleSleep := UInt32.ofInt (intValue value) }
  | "pkt_tx_delay" => .ok { cur with pktTxDelay := UInt32.ofInt (intValue value) }
  | "symmetric_rss" => .ok { cur with symmetricRss := intValue value }
  | _ => .ok cur

/-- `strncmp` of a section name with the four letters of a device section. -/
def sectionStarts (letters sectionName : String) : Bool :=
  letters.toList.isPrefixOf sectionName.toList

/-- `ini_parse_handler` on every line but that of the lcore mask. -/
def settingsHandler (settings : Settings) (line : IniLine) : ConfigM Settings :=
  if line.sectionName = "dpdk" then setDpdk settings line.name line.value
  else if line.sectionName = "kni" then
    .ok { settings with kni := setKni settings.kni line.name line.value }
  else if line.sectionName = "freebsd.boot" then
    .ok { settings with freebsd := setFreebsdBoot settings.freebsd line.name line.value }
  else if line.sectionName = "freebsd.sysctl" then
    let sysctl := insertFreebsdCfg (sysctlConf line.name line.value) settings.freebsd.sysctl
    .ok { settings with freebsd := { settings.freebsd with sysctl := sysctl } }
  else if sectionStarts "port" line.sectionName then
    portCfgHandler settings line.sectionName line.name line.value
  else if sectionStarts "vdev" line.sectionName then
    vdevCfgHandler settings line.sectionName line.name line.value
  else if sectionStarts "bond" line.sectionName then
    bondCfgHandler settings line.sectionName line.name line.value
  else if line.sectionName = "pcap" then
    .ok { settings with pcap := setPcap settings.pcap line.name line.value }
  else .ok settings

/-- The line of the lcore mask. -/
def isMaskLine (line : IniLine) : Bool := line.sectionName = "dpdk" && line.name = "lcore_mask"

/-- `ini_parse_handler`. -/
def iniParseHandler (cfg : FfConfig) (line : IniLine) : ConfigM FfConfig :=
  if isMaskLine line then
    parseLcoreMask { cfg with settings := { cfg.settings with lcoreMask := some line.value } }
      line.value
  else do
    let settings ← settingsHandler cfg.settings line
    .ok { cfg with settings := settings }

/-- An option of the command line. -/
inductive CmdOption where
  | conf (arg : String)
  | procId (arg : String)
  | procType (arg : String)
  | unknown
deriving DecidableEq, Repr

/-- What `ff_parse_args` has read so far; `proc_id` starts at -1. -/
structure CmdArgs where
  procId : Int := -1
  procType : Option String := none

/-- The option loop of `ff_parse_args`. -/
def readOption (args : CmdArgs) : CmdOption → ConfigM CmdArgs
  | .conf _ => .ok args
  | .procId arg => .ok { args with procId := intValue arg }
  | .procType arg => .ok { args with procType := some arg }
  | .unknown => .error .rejected

/-- `ff_parse_args` on the configuration that `ff_default_config` leaves. -/
def ffParseArgs (options : List CmdOption) : ConfigM FfConfig := do
  let args ← options.foldlM readOption {}
  let procType := args.procType.getD "auto"
  if procType ≠ "primary" ∧ procType ≠ "secondary" ∧ procType ≠ "auto" then .error .rejected
  else
    .ok
      { procId := if rteMaxLcore < (UInt16.ofInt args.procId).toNat then 0 else args.procId
        procType := procType }

end FStack
