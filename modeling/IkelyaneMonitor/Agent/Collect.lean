import IkelyaneMonitor.Agent.Snmp

/-!
# Host metrics (`agent/internal/collect/collect.go`)

* `Readings` : what gopsutil returns in one cycle;
* `Inventory`, `CPU`, `Memory`, `Disk`, `Network`, `Temperature`, `System` : the parts of a sample (`telemetry/types.go`), and
  their JSON;
* `inventory`, `collectCPU`, `collectMemory`, `collectDisks`, `collectNetwork`, `hostIPAddresses` : the functions of the file;
* `collect` : one sample, and the collector afterwards.

`rate` and `clampPercent` are those of the package `snmp`, which has the same functions. The warnings, which are only logged,
are left out. How a float that is out of range becomes an `int` is left open by the language and is a parameter.
-/

namespace IkelyaneMonitor.Agent.Collect
open Wire
open Snmp (rate clampPercent)

/-! ## Readings -/

structure HostInfo where
  os : List UInt8
  platform : List UInt8
  platformVersion : List UInt8
  kernelVersion : List UInt8
  kernelArch : List UInt8
  virtualizationSystem : List UInt8
  uptime : Nat
  deriving DecidableEq

structure CpuInfo where
  modelName : List UInt8
  mhz : ℚ
  deriving DecidableEq

structure VirtualMemory where
  total : Nat
  used : Nat
  usedPercent : ℚ
  deriving DecidableEq

structure SwapMemory where
  total : Nat
  usedPercent : ℚ
  deriving DecidableEq

structure PartitionStat where
  mountpoint : List UInt8
  device : List UInt8
  deriving DecidableEq

structure UsageStat where
  total : Nat
  used : Nat
  usedPercent : ℚ
  deriving DecidableEq

structure DiskCounters where
  readCount : Nat
  writeCount : Nat
  readBytes : Nat
  writeBytes : Nat
  deriving DecidableEq

structure NetCounters where
  name : List UInt8
  bytesRecv : Nat
  bytesSent : Nat
  deriving DecidableEq

structure InterfaceStat where
  name : List UInt8
  addrs : List (List UInt8)
  deriving DecidableEq

structure TemperatureStat where
  sensorKey : List UInt8
  temperature : ℚ
  deriving DecidableEq

/-- `none` stands for an error. What is read twice in a cycle may have changed in between. -/
structure Readings where
  now : Instant
  hostInfo : Option HostInfo
  cpuInfo : List CpuInfo
  logicalCount : Int
  physicalCount : Int
  totalMemory : Option VirtualMemory
  interfaces : Option (List InterfaceStat)
  percents : Option (List ℚ)
  loadAverage : Option ℚ
  virtualMemory : Option VirtualMemory
  swapMemory : Option SwapMemory
  /-- Each with its usage. -/
  partitions : Option (List (PartitionStat × Option UsageStat))
  ioCounters : Option (List UInt8 → Option DiskCounters)
  netCounters : Option (List NetCounters)
  temperatures : Option (List TemperatureStat)
  uptime : Option HostInfo
  /-- How many there are. -/
  pids : Option Nat

/-! ## Samples -/

structure Inventory where
  osFamily : String
  osName : List UInt8
  osVersion : List UInt8
  kernelVersion : List UInt8
  arch : List UInt8
  cpuModel : List UInt8
  cpuCores : Int
  cpuThreads : Int
  cpuFrequencyMhz : Int
  memoryTotalBytes : Nat
  diskTotalBytes : Nat
  ipAddresses : List (List UInt8)
  macAddress : List UInt8
  virtualization : List UInt8
  agentVersion : List UInt8
  deriving DecidableEq

structure CPU where
  usagePercent : ℚ
  loadAverage1m : Option ℚ
  deriving DecidableEq

structure Memory where
  usedPercent : Option ℚ
  usedBytes : Option Nat
  swapUsedPercent : Option ℚ
  deriving DecidableEq

structure Disk where
  mount : List UInt8
  device : List UInt8
  usedPercent : Option ℚ
  usedBytes : Option Nat
  readIops : Option ℚ := none
  writeIops : Option ℚ := none
  readBps : Option ℚ := none
  writeBps : Option ℚ := none
  deriving DecidableEq

structure Network where
  name : List UInt8
  inBps : ℚ
  outBps : ℚ
  deriving DecidableEq

structure Temperature where
  sensor : List UInt8
  celsius : ℚ
  deriving DecidableEq

structure System where
  collectedAt : List UInt8
  inventory : Option Inventory
  cpu : Option CPU
  memory : Option Memory
  disks : List Disk
  network : List Network
  processCount : Option Nat
  uptimeSeconds : Option ℚ
  temperatures : List Temperature
  powerWatts : Option ℚ
  deriving DecidableEq

/-- `omitempty` of a number. -/
def countField (n : Int) : Option (Json (List UInt8) ℚ) := if n = 0 then none else some (.num (n : ℚ))

def Inventory.fields (inv : Inventory) : List (String × Option (Json (List UInt8) ℚ)) :=
  [("osFamily", some (.str (utf8 inv.osFamily.toList))),
    ("osName", textField inv.osName),
    ("osVersion", textField inv.osVersion),
    ("kernelVersion", textField inv.kernelVersion),
    ("arch", textField inv.arch),
    ("cpuModel", textField inv.cpuModel),
    ("cpuCores", countField inv.cpuCores),
    ("cpuThreads", countField inv.cpuThreads),
    ("cpuFrequencyMhz", countField inv.cpuFrequencyMhz),
    ("memoryTotalBytes", countField inv.memoryTotalBytes),
    ("diskTotalBytes", countField inv.diskTotalBytes),
    ("ipAddresses", listField (inv.ipAddresses.map .str)),
    ("macAddress", textField inv.macAddress),
    ("virtualization", textField inv.virtualization),
    ("agentVersion", textField inv.agentVersion)]

def CPU.fields (cpu : CPU) : List (String × Option (Json (List UInt8) ℚ)) :=
  [("usagePercent", some (.num cpu.usagePercent)),
    ("loadAverage1m", numField cpu.loadAverage1m)]

def Memory.fields (memory : Memory) : List (String × Option (Json (List UInt8) ℚ)) :=
  [("usedPercent", numField memory.usedPercent),
    ("usedBytes", natField memory.usedBytes),
    ("swapUsedPercent", numField memory.swapUsedPercent)]

def Disk.fields (disk : Disk) : List (String × Option (Json (List UInt8) ℚ)) :=
  [("mount", some (.str disk.mount)),
    ("device", textField disk.device),
    ("usedPercent", numField disk.usedPercent),
    ("usedBytes", natField disk.usedBytes),
    ("readIops", numField disk.readIops),
    ("writeIops", numField disk.writeIops),
    ("readBps", numField disk.readBps),
    ("writeBps", numField disk.writeBps)]

def Network.fields (nic : Network) : List (String × Option (Json (List UInt8) ℚ)) :=
  [("name", some (.str nic.name)),
    ("inBps", some (.num nic.inBps)),
    ("outBps", some (.num nic.outBps))]

def Temperature.fields (t : Temperature) : List (String × Option (Json (List UInt8) ℚ)) :=
  [("sensor", some (.str t.sensor)),
    ("celsius", some (.num t.celsius))]

def System.fields (sys : System) : List (String × Option (Json (List UInt8) ℚ)) :=
  [("collectedAt", some (.str sys.collectedAt)),
    ("inventory", sys.inventory.map fun inv => Json.record inv.fields),
    ("cpu", sys.cpu.map fun cpu => Json.record cpu.fields),
    ("memory", sys.memory.map fun memory => Json.record memory.fields),
    ("disks", listField (sys.disks.map fun disk => Json.record disk.fields)),
    ("network", listField (sys.network.map fun nic => Json.record nic.fields)),
    ("processCount", natField sys.processCount),
    ("uptimeSeconds", numField sys.uptimeSeconds),
    ("temperatures", listField (sys.temperatures.map fun t => Json.record t.fields)),
    ("powerWatts", numField sys.powerWatts)]

/-- The sample as the server reads it. -/
def System.json (sys : System) : Json (List Char) ℚ := (Json.record sys.fields).map decode

/-! ## Names -/

def osFamily (goos : List UInt8) : String :=
  if goos = utf8 "windows".toList then "windows"
  else if goos = utf8 "linux".toList then "linux"
  else if goos = utf8 "darwin".toList then "macos"
  else if ["freebsd", "openbsd", "netbsd", "dragonfly", "solaris", "aix"].any fun name => goos = utf8 name.toList then "unix"
  else "other"

/-- What follows the last slash or backslash. -/
def deviceName (path : List UInt8) : List UInt8 := (path.reverse.takeWhile fun b => b ≠ 47 ∧ b ≠ 92).reverse

def isLoopbackName (name : List UInt8) : Bool := name = utf8 "lo".toList || name = utf8 "lo0".toList

def virtualInterfacePrefixes : List String :=
  ["docker", "br-", "veth", "virbr", "vnet", "cni", "flannel", "kube-", "cali", "tap", "tun"]

def isVirtualInterfaceName (name : List UInt8) : Bool :=
  virtualInterfacePrefixes.any fun start => (utf8 start.toList).isPrefixOf name

/-! ## Addresses -/

/-- `ip[:idx]`, up to the slash. -/
def withoutLength (addr : List UInt8) : List UInt8 := addr.takeWhile (· ≠ 47)

/-- The inner loop, and whether it returned. -/
def addAddresses : (toAdd addrs : List (List UInt8)) → List (List UInt8) × Bool
  | [], addrs => (addrs, false)
  | a :: toAdd, addrs =>
    let ip := withoutLength a
    let addrs := if ip ≠ [] then addrs ++ [ip] else addrs
    if 32 ≤ addrs.length then (addrs, true) else addAddresses toAdd addrs

/-- The outer loop. -/
def addInterfaces : List InterfaceStat → (addrs : List (List UInt8)) → List (List UInt8)
  | [], addrs => addrs
  | iface :: ifaces, addrs =>
    if isLoopbackName iface.name || isVirtualInterfaceName iface.name then addInterfaces ifaces addrs
    else
      match addAddresses iface.addrs addrs with
      | (addrs, true) => addrs
      | (addrs, false) => addInterfaces ifaces addrs

/-- The error is dropped by the caller, with no addresses. -/
def hostIPAddresses (interfaces : Option (List InterfaceStat)) : List (List UInt8) :=
  interfaces.elim [] fun ifaces => addInterfaces ifaces []

/-! ## The collector -/

structure DiskSample where
  nanos : Int
  stats : List UInt8 → Option DiskCounters

structure NetSample where
  nanos : Int
  stats : List UInt8 → Option NetCounters

structure Collector where
  agentVersion : List UInt8
  prevDisk : Option DiskSample
  prevNet : Option NetSample
  /-- `none` stands for the zero time. -/
  lastInventoryAt : Option Int

def new (agentVersion : List UInt8) : Collector := ⟨agentVersion, none, none, none⟩

/-- An hour. -/
def inventoryEvery : Int := 3600 * 10 ^ 9

/-- The inventory is sent at startup and then every hour. -/
def Collector.due (c : Collector) (now : Instant) : Bool :=
  c.lastInventoryAt.all fun last => !decide (now.nanos - last < inventoryEvery)

section Functions
variable (fl : Rounding) (int : ℚ → Int)

def inventoryOf (c : Collector) (g : Readings) (hostInfo : HostInfo) : Inventory where
  osFamily := osFamily hostInfo.os
  osName := hostInfo.platform
  osVersion := hostInfo.platformVersion
  kernelVersion := hostInfo.kernelVersion
  arch := hostInfo.kernelArch
  cpuModel := (g.cpuInfo.head?.map CpuInfo.modelName).getD []
  cpuCores := g.physicalCount
  cpuThreads := g.logicalCount
  cpuFrequencyMhz := (g.cpuInfo.head?.map fun info => int info.mhz).getD 0
  memoryTotalBytes := (g.totalMemory.map VirtualMemory.total).getD 0
  diskTotalBytes := 0
  ipAddresses := hostIPAddresses g.interfaces
  macAddress := []
  virtualization := hostInfo.virtualizationSystem
  agentVersion := c.agentVersion

def inventory (c : Collector) (g : Readings) : Option Inventory :=
  if c.due g.now then g.hostInfo.map (inventoryOf int c g) else none

def collectCPU (g : Readings) : Option CPU :=
  match g.percents with
  | some (percent :: _) => some ⟨clampPercent percent, g.loadAverage⟩
  | _ => none

def collectMemory (g : Readings) : Option Memory :=
  g.virtualMemory.map fun vmem => {
    usedPercent := some (clampPercent vmem.usedPercent)
    usedBytes := some vmem.used
    swapUsedPercent := (g.swapMemory.filter fun swap => 0 < swap.total).map fun swap => clampPercent swap.usedPercent }

/-- The counters of a device in this sample and in the one before, with the time between them. -/
def DiskSample.between (prev : Option DiskSample) (g : Readings) (device : List UInt8) :
    Option (DiskCounters × DiskCounters × Int) := do
  let stats ← g.ioCounters
  let before ← prev
  if 0 < g.now.nanos - before.nanos then
    return (← stats device, ← before.stats device, g.now.nanos - before.nanos)
  else none

def diskOf (prev : Option DiskSample) (g : Readings) (p : PartitionStat) (usage : UsageStat) : Disk :=
  let d : Disk := {
    mount := p.mountpoint
    device := deviceName p.device
    usedPercent := some (clampPercent usage.usedPercent)
    usedBytes := some usage.used }
  match DiskSample.between prev g d.device with
  | none => d
  | some (cur, before, elapsed) =>
    let seconds := floatSeconds fl elapsed
    { d with
      readIops := some (rate fl cur.readCount before.readCount seconds)
      writeIops := some (rate fl cur.writeCount before.writeCount seconds)
      readBps := some (rate fl cur.readBytes before.readBytes seconds)
      writeBps := some (rate fl cur.writeBytes before.writeBytes seconds) }

/-- The partitions whose usage could be read. -/
def mounted (partitions : List (PartitionStat × Option UsageStat)) : List (PartitionStat × UsageStat) :=
  partitions.filterMap fun p => p.2.map (p.1, ·)

/-- The sum is one of 64 bits. -/
def totalBytes (partitions : List (PartitionStat × Option UsageStat)) : Nat :=
  (mounted partitions).foldl (fun total p => (total + p.2.total) % 2 ^ 64) 0

/-- `none` where the partitions cannot be listed: the collector then stays as it is. -/
def collectDisks (c : Collector) (g : Readings) : Option (List Disk × Nat) × Collector :=
  match g.partitions with
  | none => (none, c)
  | some partitions =>
    (some ((mounted partitions).map fun p => diskOf fl c.prevDisk g p.1 p.2, totalBytes partitions),
      { c with prevDisk := (g.ioCounters.map fun stats => ⟨g.now.nanos, stats⟩).or c.prevDisk })

/-- The interfaces that are reported. -/
def reportedNics (counters : List NetCounters) : List NetCounters :=
  counters.filter fun ctr => !(isLoopbackName ctr.name || isVirtualInterfaceName ctr.name)

def networkOf (prev : Option NetSample) (now : Instant) (ctr : NetCounters) : Network :=
  match prev.bind fun before => (before.stats ctr.name).map (before.nanos, ·) with
  | none => ⟨ctr.name, 0, 0⟩
  | some (last, p) =>
    if 0 < now.nanos - last then
      let seconds := floatSeconds fl (now.nanos - last)
      -- bits
      ⟨ctr.name, fl.round (rate fl ctr.bytesRecv p.bytesRecv seconds * 8),
        fl.round (rate fl ctr.bytesSent p.bytesSent seconds * 8)⟩
    else ⟨ctr.name, 0, 0⟩

def collectNetwork (c : Collector) (g : Readings) : Option (List Network) × Collector :=
  match g.netCounters with
  | none => (none, c)
  | some counters =>
    (some ((reportedNics counters).map (networkOf fl c.prevNet g.now)),
      { c with prevNet := some ⟨g.now.nanos, fun name => (reportedNics counters).reverse.find? fun ctr => ctr.name = name⟩ })

/-- Sensors that have a name and a reading. -/
def reportedSensors (temperatures : List TemperatureStat) : List TemperatureStat :=
  temperatures.filter fun t => t.sensorKey ≠ [] ∧ t.temperature ≠ 0

def collect (c : Collector) (g : Readings) : System × Collector :=
  let inv := inventory int c g
  let c := if inv.isSome then { c with lastInventoryAt := some g.now.nanos } else c
  let (disks, c) := collectDisks fl c g
  let diskTotal := (disks.map Prod.snd).getD 0
  let (network, c) := collectNetwork fl c g
  ({
    collectedAt := g.now.format
    inventory := if 0 < diskTotal then inv.map fun inv => { inv with diskTotalBytes := diskTotal } else inv
    cpu := collectCPU g
    memory := collectMemory g
    disks := (disks.map Prod.fst).getD []
    network := network.getD []
    processCount := g.pids
    uptimeSeconds := g.uptime.map fun hostInfo => fl.round hostInfo.uptime
    temperatures := (reportedSensors (g.temperatures.getD [])).map fun t => ⟨t.sensorKey, t.temperature⟩
    powerWatts := none }, c)

end Functions

end IkelyaneMonitor.Agent.Collect
