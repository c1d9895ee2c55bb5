import Mathlib.Data.List.Sort
import Mathlib.Data.Rat.Defs

/-!
# Metric series (`model MetricEntry`)

* `MetricRow` : one row of `metric_entries`; `SeriesKey` : the series it belongs to;
* `MetricEntries` : the hypertable, with its primary key; `MetricEntries.series`, `MetricEntries.history` : the points of
  a series, and those up to a time, newest first.

Values are rationals: every finite double is one.
-/

namespace IkelyaneMonitor.Telemetry

inductive MetricSource where
  | host | networkDevice | networkInterface | database | endpoint
  deriving DecidableEq, Repr

inductive MetricType where
  | cpuUsagePercent | loadAverage1m | memoryUsedPercent | memoryUsedBytes | swapUsedPercent | diskUsedPercent
  | diskUsedBytes | diskReadIops | diskWriteIops | diskReadBps | diskWriteBps | networkInBps | networkOutBps
  | processCount | uptimeSeconds | temperatureCelsius | powerWatts
  | bandwidthInBps | bandwidthOutBps | bandwidthUtilizationPercent | packetLossPercent | interfaceErrorsPerSec
  | interfaceCrcErrorsPerSec | latencyMs
  | dbQps | dbActiveConnections | dbConnectionUsagePercent | dbCacheHitRatio | dbSlowQueriesPerMin | dbDeadlocksPerMin
  | dbReplicationLagSeconds | dbStorageUsedBytes
  | endpointResponseMs | endpointAvailable | endpointSslDaysLeft
  deriving DecidableEq, Repr

structure MetricRow where
  time : Int
  orgId : Nat
  sourceKind : MetricSource
  sourceId : Nat
  metric : MetricType
  «instance» : String
  value : ℚ
  deriving DecidableEq

structure SeriesKey where
  orgId : Nat
  sourceKind : MetricSource
  sourceId : Nat
  metric : MetricType
  «instance» : String
  deriving DecidableEq, Repr

/-- The primary key. -/
def MetricRow.id (row : MetricRow) : Nat × MetricType × String × Int := (row.sourceId, row.metric, row.instance, row.time)

structure MetricEntries where
  rows : List MetricRow
  nodup : (rows.map MetricRow.id).Nodup

structure MetricPoint where
  time : Int
  value : ℚ
  deriving DecidableEq

def MetricRow.inSeries (series : SeriesKey) (row : MetricRow) : Bool :=
  row.orgId == series.orgId && row.sourceKind == series.sourceKind && row.sourceId == series.sourceId &&
    row.metric == series.metric && row.instance == series.instance

namespace MetricEntries

/-- The points of a series, newest first. -/
def series (entries : MetricEntries) (series : SeriesKey) : List MetricPoint :=
  ((entries.rows.filter (MetricRow.inSeries series)).insertionSort fun a b => b.time ≤ a.time).map
    fun row => ⟨row.time, row.value⟩

/-- Those up to `now`. -/
def history (entries : MetricEntries) (series : SeriesKey) (now : Int) : List MetricPoint :=
  (entries.series series).filter fun point => point.time ≤ now

end MetricEntries

end IkelyaneMonitor.Telemetry
