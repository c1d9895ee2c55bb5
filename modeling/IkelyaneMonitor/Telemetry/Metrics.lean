import Mathlib.Data.Rat.Floor
import IkelyaneMonitor.Telemetry.Auth
import IkelyaneMonitor.Telemetry.Payload
import IkelyaneMonitor.Telemetry.Series

/-!
# Metric rows (`lib/telemetry/metrics.ts`)

* `parseCollectedAt` : the window a point must fall in;
* `RowCollector` : the rows of one source at one time; `systemMetricRows`, `deviceMetricRows`, `databaseMetricRows` : the
  rows of the three kinds of report; `derivedUsage` : the share of connections in use, from the limit that is stored;
* `mem_collect`, `source_of_mem_collect` : every row of a report is of its source and time.

The quotient in `derivedUsage` is taken exactly. The text of a date is a parameter: it only stands in a message.
-/

namespace IkelyaneMonitor.Telemetry

structure IngestContext where
  now : Int
  maxBackfillMs : Nat
  maxSkewMs : Nat
  deriving DecidableEq, Repr

/-- The time of the point is neither too old nor too far in the future. -/
def IngestContext.covers (ctx : IngestContext) (time : Timestamp) : Bool :=
  ctx.now - time.ms ≤ ctx.maxBackfillMs && -(ctx.maxSkewMs : Int) ≤ ctx.now - time.ms

theorem IngestContext.covers_iff {ctx : IngestContext} {time : Timestamp} : ctx.covers time = true ↔
    ctx.now - time.ms ≤ ctx.maxBackfillMs ∧ -(ctx.maxSkewMs : Int) ≤ ctx.now - time.ms := by
  rw [covers, Bool.and_eq_true, decide_eq_true_iff, decide_eq_true_iff]

section Messages
variable (toISOString : Int → String)

def timestampOutOfRange (iso : String) (ctx : IngestContext) (label : String) : HttpError :=
  ⟨422, .timestampOutOfRange, label ++ ": collectedAt (" ++ iso ++
    ") is too old or too far in the future compared to server time " ++ toISOString ctx.now ++ "."⟩

def parseCollectedAt (time : Timestamp) (ctx : IngestContext) (label : String) : Except HttpError Int :=
  if ctx.covers time then .ok time.ms else .error (timestampOutOfRange toISOString time.text ctx label)

theorem parseCollectedAt_eq_ok {time : Timestamp} {ctx : IngestContext} {label : String} {ms : Int} :
    parseCollectedAt toISOString time ctx label = .ok ms ↔ ctx.covers time = true ∧ ms = time.ms := by
  unfold parseCollectedAt
  split
  · simp [*, eq_comm]
  · simp [*]

end Messages

/-- Whose rows are collected, and at which time. -/
structure RowCollector where
  orgId : Nat
  sourceKind : MetricSource
  sourceId : Nat
  time : Int

/-- `add`: nothing for a value that is absent. -/
def RowCollector.add (c : RowCollector) (metric : MetricType) (value : Option ℚ) («instance» : String) : List MetricRow :=
  match value with
  | none => []
  | some v => [⟨c.time, c.orgId, c.sourceKind, c.sourceId, metric, «instance», v⟩]

/-- The calls of `add` in the order they are made. -/
def RowCollector.collect (c : RowCollector) (points : List (MetricType × Option ℚ × String)) : List MetricRow :=
  points.flatMap fun p => c.add p.1 p.2.1 p.2.2

/-- A count as a value. -/
def ofNat (n : Option Nat) : Option ℚ := n.map fun k => (k : ℚ)

def diskPoints (disk : DiskMetrics) : List (MetricType × Option ℚ × String) :=
  -- capacity is per mount point, I/O per block device where there is one
  let ioInstance := disk.device.getD disk.mount
  [(.diskUsedPercent, disk.usedPercent, disk.mount), (.diskUsedBytes, ofNat disk.usedBytes, disk.mount),
    (.diskReadIops, disk.readIops, ioInstance), (.diskWriteIops, disk.writeIops, ioInstance),
    (.diskReadBps, disk.readBps, ioInstance), (.diskWriteBps, disk.writeBps, ioInstance)]

def systemPoints (system : SystemMetrics) : List (MetricType × Option ℚ × String) :=
  [(.cpuUsagePercent, system.cpu.map CpuMetrics.usagePercent, ""),
    (.loadAverage1m, system.cpu.bind CpuMetrics.loadAverage1m, ""),
    (.memoryUsedPercent, system.memory.bind MemoryMetrics.usedPercent, ""),
    (.memoryUsedBytes, ofNat (system.memory.bind MemoryMetrics.usedBytes), ""),
    (.swapUsedPercent, system.memory.bind MemoryMetrics.swapUsedPercent, "")] ++
  (system.disks.getD []).flatMap diskPoints ++
  ((system.network.getD []).flatMap fun nic =>
    [(.networkInBps, some nic.inBps, nic.name), (.networkOutBps, some nic.outBps, nic.name)]) ++
  ((system.temperatures.getD []).map fun sensor => (.temperatureCelsius, some sensor.celsius, sensor.sensor)) ++
  [(.processCount, ofNat system.processCount, ""), (.uptimeSeconds, system.uptimeSeconds, ""),
    (.powerWatts, system.powerWatts, "")]

def systemMetricRows (orgId hostId : Nat) (system : SystemMetrics) (time : Int) : List MetricRow :=
  RowCollector.collect ⟨orgId, .host, hostId, time⟩ (systemPoints system)

def portPoints (port : SnmpInterface) : List (MetricType × Option ℚ × String) :=
  [(.bandwidthInBps, some port.inBps, port.name), (.bandwidthOutBps, some port.outBps, port.name),
    (.bandwidthUtilizationPercent, port.utilizationPercent, port.name),
    (.packetLossPercent, port.packetLossPercent, port.name), (.interfaceErrorsPerSec, port.errorsPerSec, port.name),
    (.interfaceCrcErrorsPerSec, port.crcErrorsPerSec, port.name)]

def devicePoints (snmp : SnmpDevice) : List (MetricType × Option ℚ × String) :=
  [(.latencyMs, snmp.device.latencyMs, ""), (.uptimeSeconds, snmp.device.uptimeSeconds, ""),
    (.temperatureCelsius, snmp.device.temperatureCelsius, ""), (.powerWatts, snmp.device.powerWatts, "")] ++
  snmp.interfaces.flatMap portPoints

def deviceMetricRows (orgId deviceId : Nat) (snmp : SnmpDevice) (time : Int) : List MetricRow :=
  RowCollector.collect ⟨orgId, .networkDevice, deviceId, time⟩ (devicePoints snmp)

/-- Of the connections the instance allows, the share in use; a limit that is not known or zero gives none. -/
def derivedUsage (activeConnections : Nat) (maxConnections : Option Nat) : Option ℚ :=
  match maxConnections with
  | none | some 0 => none
  | some max => some (min 100 ((activeConnections : ℚ) / max * 100))

def usage (m : DatabaseReadings) (maxConnections : Option Nat) : Option ℚ :=
  match m.connectionUsagePercent, m.activeConnections with
  | some percent, _ => some percent
  | none, some active => derivedUsage active maxConnections
  | none, none => none

def databasePoints (m : DatabaseReadings) (maxConnections : Option Nat) : List (MetricType × Option ℚ × String) :=
  [(.dbQps, m.qps, ""), (.dbActiveConnections, ofNat m.activeConnections, ""),
    (.dbConnectionUsagePercent, usage m maxConnections, ""), (.dbCacheHitRatio, m.cacheHitRatio, ""),
    (.dbSlowQueriesPerMin, m.slowQueriesPerMin, ""), (.dbDeadlocksPerMin, m.deadlocksPerMin, ""),
    (.dbReplicationLagSeconds, m.replicationLagSeconds, ""), (.dbStorageUsedBytes, ofNat m.storageUsedBytes, "")]

def databaseMetricRows (orgId dbId : Nat) (db : DatabaseMetric) (time : Int) (maxConnections : Option Nat) :
    List MetricRow :=
  RowCollector.collect ⟨orgId, .database, dbId, time⟩ (databasePoints db.metrics maxConnections)

theorem mem_collect {c : RowCollector} {points : List (MetricType × Option ℚ × String)} {row : MetricRow} :
    row ∈ c.collect points ↔ ∃ metric v «instance», (metric, some v, «instance») ∈ points ∧
      row = ⟨c.time, c.orgId, c.sourceKind, c.sourceId, metric, «instance», v⟩ := by
  simp only [RowCollector.collect, List.mem_flatMap, Prod.exists]
  constructor
  · rintro ⟨metric, value, inst, hp, hrow⟩
    cases value with
    | none => cases hrow
    | some v =>
        simp only [RowCollector.add, List.mem_singleton] at hrow
        exact ⟨metric, v, inst, hp, hrow⟩
  · rintro ⟨metric, v, inst, hp, rfl⟩
    exact ⟨metric, some v, inst, hp, by simp [RowCollector.add]⟩

/-- The rows of a report have its source and its time. -/
theorem source_of_mem_collect {c : RowCollector} {points : List (MetricType × Option ℚ × String)} {row : MetricRow}
    (h : row ∈ c.collect points) : row.sourceId = c.sourceId ∧ row.time = c.time := by
  obtain ⟨_, _, _, -, rfl⟩ := mem_collect.mp h
  exact ⟨rfl, rfl⟩

end IkelyaneMonitor.Telemetry
