import Mathlib.Data.Rat.Defs
import IkelyaneMonitor.Remediation.Guard

/-!
# Telemetry payloads (`lib/telemetry/schemas.ts`, the types of schema version 1)

`TelemetryPayload` : what one request reports, after validation, with its sections `SystemMetrics`, `SnmpDevice` and
`DatabaseMetric`. A field that was not reported is `none`.
-/

namespace IkelyaneMonitor.Telemetry
open Remediation (OsFamily RemediationMode)

/-- A time as it was sent, and the milliseconds the server reads from it. -/
structure Timestamp where
  text : String
  ms : Int
  deriving DecidableEq, Repr

structure HostInventory where
  osFamily : OsFamily
  osName : Option String
  osVersion : Option String
  kernelVersion : Option String
  arch : Option String
  cpuModel : Option String
  cpuCores : Option Nat
  cpuThreads : Option Nat
  cpuFrequencyMhz : Option Nat
  memoryTotalBytes : Option Nat
  diskTotalBytes : Option Nat
  ipAddresses : Option (List String)
  macAddress : Option String
  virtualization : Option String
  cloudProvider : Option String
  cloudRegion : Option String
  agentVersion : Option String
  deriving DecidableEq

structure CpuMetrics where
  usagePercent : ℚ
  loadAverage1m : Option ℚ
  deriving DecidableEq

structure MemoryMetrics where
  usedPercent : Option ℚ
  usedBytes : Option Nat
  swapUsedPercent : Option ℚ
  deriving DecidableEq

structure DiskMetrics where
  mount : String
  device : Option String
  usedPercent : Option ℚ
  usedBytes : Option Nat
  readIops : Option ℚ
  writeIops : Option ℚ
  readBps : Option ℚ
  writeBps : Option ℚ
  deriving DecidableEq

structure NicMetrics where
  name : String
  inBps : ℚ
  outBps : ℚ
  deriving DecidableEq

structure Temperature where
  sensor : String
  celsius : ℚ
  deriving DecidableEq

structure SystemMetrics where
  collectedAt : Timestamp
  inventory : Option HostInventory
  cpu : Option CpuMetrics
  memory : Option MemoryMetrics
  disks : Option (List DiskMetrics)
  network : Option (List NicMetrics)
  processCount : Option Nat
  uptimeSeconds : Option ℚ
  temperatures : Option (List Temperature)
  powerWatts : Option ℚ
  deriving DecidableEq

inductive DeviceType where
  | router | switch | firewall | ap | ups | bmc | other
  deriving DecidableEq, Repr

inductive OperStatus where
  | up | down | testing | unknown
  deriving DecidableEq, Repr

inductive SnmpVersion where
  | v1 | v2c | v3
  deriving DecidableEq, Repr

structure SnmpInterface where
  ifIndex : Nat
  name : String
  «alias» : Option String
  description : Option String
  macAddress : Option String
  speedMbps : Option Nat
  mtu : Option Nat
  adminStatus : Option OperStatus
  operStatus : OperStatus
  inBps : ℚ
  outBps : ℚ
  utilizationPercent : Option ℚ
  packetLossPercent : Option ℚ
  inErrors : Option Nat
  outErrors : Option Nat
  crcErrors : Option Nat
  inDiscards : Option Nat
  outDiscards : Option Nat
  errorsPerSec : Option ℚ
  crcErrorsPerSec : Option ℚ
  lastChangeAt : Option Timestamp
  deriving DecidableEq

structure SnmpDeviceInfo where
  ipAddress : String
  name : Option String
  type : Option DeviceType
  vendor : Option String
  model : Option String
  firmwareVersion : Option String
  serialNumber : Option String
  sysName : Option String
  sysDescr : Option String
  sysLocation : Option String
  sysContact : Option String
  uptimeSeconds : Option ℚ
  snmpVersion : Option SnmpVersion
  reachable : Bool
  latencyMs : Option ℚ
  temperatureCelsius : Option ℚ
  powerWatts : Option ℚ
  deriving DecidableEq

structure SnmpDevice where
  collectedAt : Timestamp
  device : SnmpDeviceInfo
  interfaces : List SnmpInterface
  deriving DecidableEq

inductive DatabaseEngine where
  | postgresql | mysql | mariadb | mongodb | redis | mssql
  deriving DecidableEq, Repr

structure SlowQuery where
  capturedAt : Timestamp
  fingerprint : String
  queryText : Option String
  durationMs : ℚ
  calls : Option Nat
  rowsExamined : Option Nat
  rowsReturned : Option Nat
  databaseName : Option String
  userName : Option String
  deriving DecidableEq

structure InstanceInfo where
  name : String
  engine : DatabaseEngine
  version : Option String
  endpoint : Option String
  isReplica : Option Bool
  storageQuotaBytes : Option Nat
  maxConnections : Option Nat
  slowQueryThresholdMs : Option Nat
  deriving DecidableEq

structure DatabaseReadings where
  qps : Option ℚ
  activeConnections : Option Nat
  connectionUsagePercent : Option ℚ
  cacheHitRatio : Option ℚ
  slowQueriesPerMin : Option ℚ
  deadlocksPerMin : Option ℚ
  deadlocksTotal : Option Nat
  replicationLagSeconds : Option ℚ
  storageUsedBytes : Option Nat
  deriving DecidableEq

structure DatabaseMetric where
  collectedAt : Timestamp
  «instance» : InstanceInfo
  reachable : Bool
  metrics : DatabaseReadings
  slowQueries : List SlowQuery
  deriving DecidableEq

/-- The remediation policy of the agent's local configuration. -/
structure RemediationPolicy where
  mode : RemediationMode
  allowedSha256 : List String
  deriving DecidableEq

structure AgentInfo where
  version : String
  remediation : Option RemediationPolicy
  deriving DecidableEq

structure TelemetryPayload where
  agent : AgentInfo
  system : Option SystemMetrics
  snmpDevices : Option (List SnmpDevice)
  databases : Option (List DatabaseMetric)
  deriving DecidableEq

end IkelyaneMonitor.Telemetry
