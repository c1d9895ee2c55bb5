import Mathlib.Algebra.Order.Field.Rat
import Mathlib.Algebra.Order.Ring.Abs
import IkelyaneMonitor.Telemetry.Series

/-!
# Anomaly detection (`modules/aiops/anomaly.ts`, `modules/aiops/baseline.ts`)

* `baselineRanges`, `computeBaseline`, `assess` : the statistics, in exact arithmetic;
* `Cache` : the baselines of one process, oldest key first; `Cache.hit`, `Cache.store` : the two halves of
  `loadBaseline`, before and after its query, whose result is `sample`.
-/

namespace IkelyaneMonitor.Aiops
open Telemetry

inductive AnomalySensitivity where
  | low | medium | high
  deriving DecidableEq, Repr

def recentWindowMs : Int := 6 * 60 * 60 * 1000
def seasonalDays : Nat := 7
def seasonalHalfWidthMs : Int := 30 * 60 * 1000
def minBaselinePoints : Nat := 30
def dayMs : Int := 24 * 60 * 60 * 1000
def madToSigma : ℚ := 14826 / 10000
def relativeScaleFloor : ℚ := 5 / 100
def absoluteScaleFloor : ℚ := 1 / 1000000000

/-- `Z_THRESHOLD`. -/
def zThreshold : AnomalySensitivity → ℚ
  | .high => 3
  | .medium => 9 / 2
  | .low => 6

/-- From `start` on, up to and without `stop`. -/
structure TimeRange where
  start : Int
  stop : Int
  deriving DecidableEq, Repr

def baselineRanges (now : Int) (durationSec : Nat) : List TimeRange :=
  let guard := durationSec * 1000 + 10 * 60 * 1000
  let recent : TimeRange := ⟨now - recentWindowMs, now - guard⟩
  let seasonal := (List.range seasonalDays).map fun n =>
    let centre := now - (n + 1) * dayMs
    (⟨centre - seasonalHalfWidthMs, centre + seasonalHalfWidthMs⟩ : TimeRange)
  (recent :: seasonal).filter fun range => range.start < range.stop

structure Baseline where
  median : ℚ
  scale : ℚ
  points : Nat
  deriving DecidableEq

def median (sorted : List ℚ) : ℚ :=
  let mid := sorted.length / 2
  if sorted.length % 2 = 1 then sorted.getD mid 0 else (sorted.getD (mid - 1) 0 + sorted.getD mid 0) / 2

def computeBaseline (values : List ℚ) : Option Baseline :=
  if values.length < minBaselinePoints then none
  else
    let sorted := values.insertionSort (· ≤ ·)
    let med := median sorted
    let mad := median ((sorted.map fun v => |v - med|).insertionSort (· ≤ ·))
    let scale := max (max (madToSigma * mad) (relativeScaleFloor * |med|)) absoluteScaleFloor
    some ⟨med, scale, values.length⟩

structure AnomalyVerdict where
  anomalous : Bool
  z : ℚ
  score : ℚ
  deriving DecidableEq

def assess (value : ℚ) (baseline : Baseline) (sensitivity : AnomalySensitivity) : AnomalyVerdict :=
  let z := (value - baseline.median) / baseline.scale
  let threshold := zThreshold sensitivity
  ⟨decide (threshold ≤ |z|), z, |z| / (|z| + threshold)⟩

/-! ## Loading -/

def cacheTtlMs : Int := 10 * 60 * 1000
def cacheMaxEntries : Nat := 10000
def maxSamplePoints : Nat := 6000

structure CacheKey where
  sourceId : Nat
  metric : MetricType
  «instance» : String
  durationSec : Nat
  deriving DecidableEq, Repr

structure CacheEntry where
  loadedAt : Int
  baseline : Option Baseline

def cacheKey (series : SeriesKey) (durationSec : Nat) : CacheKey :=
  ⟨series.sourceId, series.metric, series.instance, durationSec⟩

abbrev Cache := List (CacheKey × CacheEntry)

/-- A baseline still fresh at `now`. -/
def Cache.hit (cache : Cache) (key : CacheKey) (now : Int) : Option (Option Baseline) :=
  (cache.find? fun e => e.1 == key).bind fun e =>
    if now - e.2.loadedAt < cacheTtlMs ∧ e.2.loadedAt ≤ now then some e.2.baseline else none

/-- The values of a series inside the ranges. -/
def sample (entries : MetricEntries) (series : SeriesKey) (ranges : List TimeRange) : List ℚ :=
  ((entries.rows.filter fun row =>
    row.inSeries series && ranges.any fun range => range.start ≤ row.time && row.time < range.stop).take
      maxSamplePoints).map MetricRow.value

/-- A full cache drops its oldest key first. A key that is set again keeps its place. -/
def Cache.store (cache : Cache) (key : CacheKey) (now : Int) (baseline : Option Baseline) : Cache :=
  let kept := if cacheMaxEntries ≤ cache.length then cache.tail else cache
  if kept.any fun e => e.1 == key then kept.map fun e => if e.1 == key then (key, ⟨now, baseline⟩) else e
  else kept ++ [(key, ⟨now, baseline⟩)]

end IkelyaneMonitor.Aiops
