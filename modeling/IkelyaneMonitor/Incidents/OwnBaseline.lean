import Mathlib
import IkelyaneMonitor.Incidents.Shared

/-!
# An anomaly and its own baseline

* `guardMs` : how much of the newest past a baseline leaves out; `CleanRanges` : the ranges of `baselineRanges` do;
* `Loads` : the cache of a process with the samples each baseline in it was computed from, in any run of loads (`Loaded`);
* `Loads.source` : the samples behind what `loadBaseline` returns, `exec_loadBaseline`, `source_spec`; `CleanLoads` : they are
  older than what is left out;
* `own_baseline_iff` : both hold exactly for durations up to 84 000 s. The seasonal ranges do not leave anything out, and the
  first of them ends 23.5 h ago (`own_baseline_day`).
-/

namespace IkelyaneMonitor.Incidents
open Interleave Telemetry Aiops

/-- `guard`, in `baselineRanges`. -/
def guardMs (durationSec : Nat) : Int := durationSec * 1000 + 10 * 60 * 1000

def TimeRange.disjoint (a b : TimeRange) : Prop := a.stop ≤ b.start ∨ b.stop ≤ a.start

/-- The ranges of an evaluation are ranges, apart from each other, and without the time that is left out. -/
structure CleanRanges (now : Int) (durationSec : Nat) : Prop where
  nonempty : ∀ range ∈ baselineRanges now durationSec, range.start < range.stop
  disjoint : (baselineRanges now durationSec).Pairwise TimeRange.disjoint
  early : ∀ range ∈ baselineRanges now durationSec, ∀ time, range.start ≤ time → time < range.stop →
    time ≤ now - guardMs durationSec

/-! ## The ranges -/

section Ranges
variable {now : Int} {durationSec : Nat}

/-- The recent past, and the hour around this time of the day `n` days ago. -/
theorem baselineRanges_eq (now : Int) (durationSec : Nat) : baselineRanges now durationSec =
    ((⟨now - 21600000, now - guardMs durationSec⟩ : TimeRange) :: (List.range 7).map fun n : Nat =>
      ⟨now - ((n : Int) + 1) * 86400000 - 1800000, now - ((n : Int) + 1) * 86400000 + 1800000⟩).filter fun range =>
        range.start < range.stop := rfl

theorem mem_baselineRanges {range : TimeRange} : range ∈ baselineRanges now durationSec ↔
    (range = ⟨now - 21600000, now - guardMs durationSec⟩ ∨ ∃ n : Nat, n < 7 ∧
      range = ⟨now - ((n : Int) + 1) * 86400000 - 1800000, now - ((n : Int) + 1) * 86400000 + 1800000⟩) ∧
    range.start < range.stop := by
  rw [baselineRanges_eq]
  simp only [List.mem_filter, List.mem_cons, List.mem_map, List.mem_range, decide_eq_true_eq]
  refine and_congr_left fun _ => or_congr Iff.rfl ⟨?_, ?_⟩
  · rintro ⟨n, hn, rfl⟩
    exact ⟨n, hn, rfl⟩
  · rintro ⟨n, hn, rfl⟩
    exact ⟨n, hn, rfl⟩

theorem disjoint_ranges (now : Int) (durationSec : Nat) : (baselineRanges now durationSec).Pairwise TimeRange.disjoint := by
  rw [baselineRanges_eq]
  apply List.Pairwise.filter
  refine List.pairwise_cons.mpr ⟨?_, ?_⟩
  · -- the recent past begins 6 h ago, the seasonal ranges end before that
    intro range hrange
    obtain ⟨n, -, rfl⟩ := List.mem_map.mp hrange
    refine Or.inr ?_
    show now - ((n : Int) + 1) * 86400000 + 1800000 ≤ now - 21600000
    omega
  · rw [List.pairwise_map]
    refine List.pairwise_lt_range.imp fun {m n} hlt => Or.inr ?_
    show now - ((n : Int) + 1) * 86400000 + 1800000 ≤ now - ((m : Int) + 1) * 86400000 - 1800000
    omega

/-- For durations up to 84 000 s each range ends where what is left out begins, or before. -/
theorem stop_le (h : durationSec ≤ 84000) {range : TimeRange} (hrange : range ∈ baselineRanges now durationSec) :
    range.stop ≤ now - guardMs durationSec := by
  obtain ⟨rfl | ⟨n, -, rfl⟩, -⟩ := mem_baselineRanges.mp hrange
  · exact le_rfl
  · unfold guardMs
    show now - ((n : Int) + 1) * 86400000 + 1800000 ≤ _
    omega

/-- The last hour of the day before, around this time of the day. -/
theorem yesterday_mem (now : Int) (durationSec : Nat) :
    (⟨now - 88200000, now - 84600000⟩ : TimeRange) ∈ baselineRanges now durationSec := by
  refine mem_baselineRanges.mpr ⟨Or.inr ⟨0, by decide, ?_⟩, ?_⟩
  · rw [TimeRange.mk.injEq]
    omega
  · show now - 88200000 < now - 84600000
    omega

theorem cleanRanges_iff : CleanRanges now durationSec ↔ durationSec ≤ 84000 := by
  constructor
  · intro h
    have hearly := h.early _ (yesterday_mem now durationSec) (now - 84600001)
      (show now - 88200000 ≤ now - 84600001 by omega) (show now - 84600001 < now - 84600000 by omega)
    unfold guardMs at hearly
    omega
  · intro h
    refine ⟨fun range hrange => (mem_baselineRanges.mp hrange).2, disjoint_ranges now durationSec, ?_⟩
    intro range hrange time _ htime
    have := stop_le h hrange
    omega

end Ranges

/-! ## The cache -/

/-- The rows whose values are a sample. -/
def sampleRows (entries : MetricEntries) (series : SeriesKey) (ranges : List TimeRange) : List MetricRow :=
  (entries.rows.filter fun row =>
    row.inSeries series && ranges.any fun range => range.start ≤ row.time && row.time < range.stop).take maxSamplePoints

/-- The cache of a process. -/
structure Loads where
  cache : Cache
  /-- The rows that the last baseline of a key was computed from: a record of the run that no function reads. -/
  drawn : CacheKey → List MetricRow

namespace Loads

/-- A load that does not find its key, or no longer fresh, computes the baseline and stores it. -/
def compute (s : Loads) (entries : MetricEntries) (series : SeriesKey) (durationSec : Nat) (now : Int) : Loads where
  cache := s.cache.store (cacheKey series durationSec) now
    (computeBaseline (sample entries series (baselineRanges now durationSec)))
  drawn := Function.update s.drawn (cacheKey series durationSec) (sampleRows entries series (baselineRanges now durationSec))

/-- The rows behind what a load returns. -/
def source (s : Loads) (entries : MetricEntries) (series : SeriesKey) (durationSec : Nat) (now : Int) : List MetricRow :=
  match s.cache.hit (cacheKey series durationSec) now with
  | some _ => s.drawn (cacheKey series durationSec)
  | none => sampleRows entries series (baselineRanges now durationSec)

end Loads

/-- Loads of any series, for any duration, at any times and over any content of the database. What is found fresh in the
cache changes nothing. -/
inductive Loaded : Loads → Prop
  | start : Loaded ⟨[], fun _ => []⟩
  | compute {s : Loads} (entries : MetricEntries) (series : SeriesKey) (durationSec : Nat) (now : Int) :
      Loaded s → Loaded (s.compute entries series durationSec now)

/-- What a load for the duration at `now` returns was computed from samples older than what is left out. -/
def CleanLoads (now : Int) (durationSec : Nat) : Prop :=
  ∀ s, Loaded s → ∀ entries series,
    (loadedBaseline entries s.cache series durationSec now).1 =
        computeBaseline ((s.source entries series durationSec now).map MetricRow.value) ∧
      ∀ row ∈ s.source entries series durationSec now, row.time < now - guardMs durationSec

section Cache
variable {s : Loads} {entries : MetricEntries} {series : SeriesKey} {durationSec : Nat} {now : Int}

/-- `loadedBaseline` is what the statements of `loadBaseline` go on with. -/
theorem exec_loadBaseline (t : Store) (k : Option Baseline → Call) :
    (loadBaseline series durationSec now k).exec sem () t =
      (k (loadedBaseline t.entries t.cache series durationSec now).1).exec sem ()
        { t with cache := (loadedBaseline t.entries t.cache series durationSec now).2 } := by
  unfold loadBaseline loadedBaseline
  dsimp only
  show (match t.cache.hit (cacheKey series durationSec) now with | some baseline => _ | none => _ : Call).exec sem () t = _
  cases t.cache.hit (cacheKey series durationSec) now with
  | some baseline => rfl
  | none => rfl

theorem mem_store {cache : Cache} {key : CacheKey} {baseline : Option Baseline} {e : CacheKey × CacheEntry}
    (h : e ∈ cache.store key now baseline) : e = (key, ⟨now, baseline⟩) ∨ e ∈ cache ∧ e.1 ≠ key := by
  have hkept : ∀ {e}, e ∈ (if cacheMaxEntries ≤ cache.length then cache.tail else cache) → e ∈ cache := by
    intro e he
    split at he
    · exact List.mem_of_mem_tail he
    · exact he
  unfold Cache.store at h
  dsimp only at h
  generalize (if cacheMaxEntries ≤ cache.length then cache.tail else cache) = kept at h hkept
  split at h
  · obtain ⟨e', he', rfl⟩ := List.mem_map.mp h
    split
    · exact Or.inl rfl
    · rename_i hne
      exact Or.inr ⟨hkept he', by simpa using hne⟩
  · rename_i hnone
    rcases List.mem_append.mp h with hold | hnew
    · refine Or.inr ⟨hkept hold, fun hkey => hnone ?_⟩
      exact List.any_eq_true.mpr ⟨e, hold, beq_iff_eq.mpr hkey⟩
    · exact Or.inl (List.mem_singleton.mp hnew)

theorem hit_some {cache : Cache} {key : CacheKey} {baseline : Option Baseline} (h : cache.hit key now = some baseline) :
    ∃ e ∈ cache, e.1 = key ∧ e.2.loadedAt ≤ now ∧ e.2.baseline = baseline := by
  unfold Cache.hit at h
  obtain ⟨e, hfind, hfresh⟩ := Option.bind_eq_some_iff.mp h
  have hkey : e.1 = key := by simpa using List.find?_some hfind
  split at hfresh
  · rename_i hage
    exact ⟨e, List.mem_of_find?_eq_some hfind, hkey, hage.2, Option.some.inj hfresh⟩
  · cases hfresh

/-- A cached baseline was computed from the recorded rows, which its own ranges hold. -/
structure Sound (s : Loads) (e : CacheKey × CacheEntry) : Prop where
  computed : e.2.baseline = computeBaseline ((s.drawn e.1).map MetricRow.value)
  early : e.1.durationSec ≤ 84000 → ∀ row ∈ s.drawn e.1, row.time < e.2.loadedAt - guardMs e.1.durationSec

theorem sampleRows_early (h : durationSec ≤ 84000) :
    ∀ row ∈ sampleRows entries series (baselineRanges now durationSec), row.time < now - guardMs durationSec := by
  intro row hrow
  have hin := (List.mem_filter.mp (List.mem_of_mem_take hrow)).2
  obtain ⟨range, hrange, htime⟩ := List.any_eq_true.mp (Bool.and_eq_true_iff.mp hin).2
  simp only [Bool.and_eq_true, decide_eq_true_eq] at htime
  have := stop_le h hrange
  omega

theorem sound_of_loaded (h : Loaded s) : ∀ e ∈ s.cache, Sound s e := by
  induction h with
  | start =>
      intro e he
      cases he
  | @compute s entries series durationSec now _ ih =>
      intro e he
      rcases mem_store he with rfl | ⟨hold, hne⟩
      · have hdrawn : (s.compute entries series durationSec now).drawn (cacheKey series durationSec) =
            sampleRows entries series (baselineRanges now durationSec) := Function.update_self ..
        refine ⟨?_, fun hduration => ?_⟩
        · rw [hdrawn]
          rfl
        · rw [hdrawn]
          exact sampleRows_early hduration
      · have hdrawn : (s.compute entries series durationSec now).drawn e.1 = s.drawn e.1 := Function.update_of_ne hne ..
        refine ⟨?_, fun hduration => ?_⟩
        · rw [hdrawn]
          exact (ih e hold).computed
        · rw [hdrawn]
          exact (ih e hold).early hduration

/-- What a load returns is the baseline of its source. -/
theorem source_spec (h : Loaded s) : (loadedBaseline entries s.cache series durationSec now).1 =
    computeBaseline ((s.source entries series durationSec now).map MetricRow.value) := by
  unfold loadedBaseline Loads.source
  dsimp only
  cases hhit : s.cache.hit (cacheKey series durationSec) now with
  | some baseline =>
      obtain ⟨e, he, hkey, -, rfl⟩ := hit_some hhit
      have hcomputed := (sound_of_loaded h e he).computed
      rw [hkey] at hcomputed
      exact hcomputed
  | none => rfl

theorem source_early (h : Loaded s) (hduration : durationSec ≤ 84000) :
    ∀ row ∈ s.source entries series durationSec now, row.time < now - guardMs durationSec := by
  unfold Loads.source
  cases hhit : s.cache.hit (cacheKey series durationSec) now with
  | some baseline =>
      -- the ranges of the earlier time it was computed at
      obtain ⟨e, he, hkey, hle, -⟩ := hit_some hhit
      have hearly := (sound_of_loaded h e he).early
      rw [hkey] at hearly
      intro row hrow
      have := hearly hduration row hrow
      show row.time < now - guardMs durationSec
      change row.time < e.2.loadedAt - guardMs durationSec at this
      omega
  | none => exact sampleRows_early hduration

/-- A sample taken 23.5 h before `now`. -/
def yesterday (now : Int) : MetricRow := ⟨now - 84600001, 1, .host, 7, .cpuUsagePercent, "", 99⟩

theorem cleanLoads_iff : CleanLoads now durationSec ↔ durationSec ≤ 84000 := by
  constructor
  · intro h
    have hmem : yesterday now ∈ Loads.source ⟨[], fun _ => []⟩ ⟨[yesterday now], by simp⟩ ⟨1, .host, 7, .cpuUsagePercent, ""⟩
        durationSec now := by
      show yesterday now ∈ (List.filter _ [yesterday now]).take maxSamplePoints
      rw [List.filter_cons_of_pos, List.filter_nil]
      · exact List.mem_cons_self
      · refine Bool.and_eq_true_iff.mpr ⟨rfl, List.any_eq_true.mpr ⟨_, yesterday_mem now durationSec, ?_⟩⟩
        show (decide (now - 88200000 ≤ now - 84600001) && decide (now - 84600001 < now - 84600000)) = true
        rw [Bool.and_eq_true, decide_eq_true_eq, decide_eq_true_eq]
        omega
    have hearly := (h _ .start _ _).2 _ hmem
    change now - 84600001 < now - guardMs durationSec at hearly
    unfold guardMs at hearly
    omega
  · intro h s hs entries series
    exact ⟨source_spec hs, source_early hs h⟩

end Cache

/-- **An anomaly and its own baseline.** At every time and for every duration, the ranges are non-empty, apart and without the
newest `durationSec` and ten minutes exactly for durations up to 84 000 s, and exactly then every baseline that is loaded,
cached or fresh, was computed from samples older than that. -/
theorem own_baseline_iff (now : Int) (durationSec : Nat) :
    (CleanRanges now durationSec ↔ durationSec ≤ 84000) ∧ (CleanLoads now durationSec ↔ durationSec ≤ 84000) :=
  ⟨cleanRanges_iff, cleanLoads_iff⟩

/-- **A duration of a whole day.** What happened between 24.5 and 23.5 hours ago is in the baseline, though the rule is to
look back on it. -/
theorem own_baseline_day : ¬ CleanRanges 1790000000000 86400 := by
  intro h
  have hmem : (⟨1789911800000, 1789915400000⟩ : TimeRange) ∈ baselineRanges 1790000000000 86400 := by decide
  have hearly := h.early _ hmem 1789915399999 (by decide) (by decide)
  exact absurd hearly (by decide)

end IkelyaneMonitor.Incidents
