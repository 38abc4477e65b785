import FStack.Std.CText

/-!
# The configuration record

`struct ff_config`, split into what the command line decides for one process and
what the configuration file says. The file is the same for all processes, so
the second part is where processes can be compared.
-/

namespace FStack

/-- `RTE_MAX_LCORE`. -/
def rteMaxLcore : Nat := 128

/-- `RTE_MAX_ETHPORTS`. -/
def rteMaxEthports : Nat := 32

/-- `DPDK_MAX_LCORE`. -/
def dpdkMaxLcore : Nat := 128

/-- A configuration step rejects the file, or leaves an array (`undefined`). -/
inductive ConfigFault where
  | rejected
  | undefined
deriving DecidableEq, Repr

abbrev ConfigM := Except ConfigFault

/-- `struct ff_port_cfg`. `lcoreList` is the whole array, of which the first
`nbLcores` entries are in use. -/
structure PortCfg where
  name : Option String := none
  portId : UInt8 := 0
  addr : Option String := none
  netmask : Option String := none
  broadcast : Option String := none
  gateway : Option String := none
  pcap : Option String := none
  nbLcores : Nat := 0
  nbSlaves : Nat := 0
  lcoreList : List UInt16 := List.replicate dpdkMaxLcore 0
  slavePortidList : List UInt16 := []
  sized : lcoreList.length = dpdkMaxLcore := by simp
  inside : nbLcores ≤ dpdkMaxLcore := by simp
deriving DecidableEq, Repr

/-- `struct ff_vdev_cfg`. -/
structure VdevCfg where
  name : Option String := none
  iface : Option String := none
  path : Option String := none
  mac : Option String := none
  vdevId : UInt8 := 0
  nbQueues : UInt8 := 0
  nbCq : UInt8 := 0
  queueSize : UInt16 := 0
deriving DecidableEq, Repr

/-- `struct ff_bond_cfg`. -/
structure BondCfg where
  name : Option String := none
  slave : Option String := none
  primary : Option String := none
  bondMac : Option String := none
  xmitPolicy : Option String := none
  bondId : UInt8 := 0
  mode : UInt8 := 0
  socketId : UInt8 := 0
  lscPollPeriodMs : UInt8 := 0
  upDelay : UInt16 := 0
  downDelay : UInt16 := 0
deriving DecidableEq, Repr

/-- The value of a `struct ff_freebsd_cfg`: the text itself, an `int` or a `long`. -/
inductive FreebsdValue where
  | text
  | int (value : Int)
  | long (value : Int)
deriving DecidableEq, Repr

/-- `struct ff_freebsd_cfg`. -/
structure FreebsdCfg where
  name : String
  str : String
  value : FreebsdValue
deriving DecidableEq, Repr

/-- The `kni` part of `struct ff_config`. -/
structure KniSettings where
  enable : Int := 0
  kniAction : Option String := none
  method : Option String := none
  tcpPort : Option String := none
  udpPort : Option String := none
deriving DecidableEq, Repr

/-- The `freebsd` part of `struct ff_config`. -/
structure FreebsdSettings where
  boot : List FreebsdCfg := []
  sysctl : List FreebsdCfg := []
  physmem : Int := 1048576 * 256
  hz : Int := 100
  fdReserve : Int := 0
  memSize : Int := 256
deriving DecidableEq, Repr

/-- The `pcap` part of `struct ff_config`. -/
structure PcapSettings where
  enable : UInt16 := 0
  snapLen : UInt16 := 0
  saveLen : UInt32 := 0
  savePath : Option String := none
deriving DecidableEq, Repr

/-- What the configuration file says; the defaults are those of
`ff_default_config`. An array that is not allocated yet is `none`; the entries
of `procLcore` behind those stored are zero. -/
structure Settings where
  lcoreMask : Option String := none
  baseVirtaddr : Option String := none
  filePrefix : Option String := none
  pciWhitelist : Option String := none
  nbChannel : Int := 0
  memory : Int := 0
  noHuge : Int := 0
  nbProcs : Nat := 0
  promiscuous : Int := 1
  nbVdev : Int := 0
  nbBond : Int := 0
  numaOn : Int := 1
  tso : Int := 0
  txCsumOffoadSkip : Int := 0
  vlanStrip : Int := 0
  symmetricRss : Int := 0
  idleSleep : UInt32 := 0
  pktTxDelay : UInt32 := 100
  procLcore : Option (List UInt16) := none
  nbPorts : Nat := 0
  maxPortid : UInt16 := 0
  portidList : List UInt16 := []
  portCfgs : Option (Nat → PortCfg) := none
  vdevCfgs : Option (Nat → VdevCfg) := none
  bondCfgs : Option (Nat → BondCfg) := none
  kni : KniSettings := {}
  freebsd : FreebsdSettings := {}
  pcap : PcapSettings := {}

/-- `struct ff_config` of one process. -/
structure FfConfig where
  procId : Int
  procType : String
  procMask : Option String := none
  settings : Settings := {}

/-- One `name = value` line of the file, with the section it stands in. -/
structure IniLine where
  sectionName : String
  name : String
  value : String
deriving DecidableEq, Repr

end FStack
