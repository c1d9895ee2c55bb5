import Mathlib
import IkelyaneMonitor.Aiops.Baseline
import IkelyaneMonitor.Stats.OrderStatistics

/-!
# The robustness of a baseline

* `Number` : what a sample holds, the values that are not finite included; `computeBaselineOf` : these are left out;
* `median_mem_Icc` : where more than half of the values lie, there lies the median; `computeBaseline_some` : the parts of a
  baseline, its scale between its floors and the spread of that half;
* `score_mem`, `score_mono`, `half_le_score_iff` : the score of a verdict;
* `baseline_robust` : all of it, for every sample that is large enough.
-/

namespace IkelyaneMonitor.Aiops
open Stats

/-- A JavaScript number. -/
inductive Number where
  | finite (value : ℚ)
  | infinite (negative : Bool)
  | nan
  deriving DecidableEq

def Number.finite? : Number → Option ℚ
  | .finite value => some value
  | _ => none

/-- `values.filter(Number.isFinite)`. -/
def finiteValues (values : List Number) : List ℚ := values.filterMap Number.finite?

/-- `computeBaseline`, with the values that it leaves out. -/
def computeBaselineOf (values : List Number) : Option Baseline := computeBaseline (finiteValues values)

/-! ## The median -/

def within (lo hi value : ℚ) : Bool := decide (lo ≤ value) && decide (value ≤ hi)

/-- More than half of the values lie in the interval. -/
def Most (values : List ℚ) (lo hi : ℚ) : Prop := values.length < 2 * values.countP (within lo hi)

theorem Most.perm {values values' : List ℚ} {lo hi : ℚ} (h : Most values lo hi) (hp : values.Perm values') :
    Most values' lo hi := by
  unfold Most at h ⊢
  rwa [← hp.length_eq, ← hp.countP_eq]

theorem median_mem_Icc {sorted : List ℚ} (hs : sorted.Pairwise (· ≤ ·)) {lo hi : ℚ} (hmost : Most sorted lo hi) :
    lo ≤ median sorted ∧ median sorted ≤ hi := by
  have hcount := List.countP_le_length (p := within lo hi) (l := sorted)
  have hmiddle : ∀ k, k < sorted.length → sorted.length ≤ 2 * k + 2 → 2 * k ≤ sorted.length →
      lo ≤ sorted.getD k 0 ∧ sorted.getD k 0 ≤ hi := by
    intro k hk hlow hhigh
    rw [List.getD_eq_getElem _ _ hk]
    exact mem_Icc_of_majority hs hmost hk hlow hhigh
  unfold Most at hmost
  unfold median
  dsimp only
  split
  · apply hmiddle <;> omega
  · -- the mean of the two middle entries
    obtain ⟨hlo, hhi⟩ := hmiddle (sorted.length / 2 - 1) (by omega) (by omega) (by omega)
    obtain ⟨hlo', hhi'⟩ := hmiddle (sorted.length / 2) (by omega) (by omega) (by omega)
    constructor
    · linarith
    · linarith

/-! ## The baseline -/

section Baseline
variable {values : List ℚ}

/-- `sorted`, in `computeBaseline`. -/
def ascending (values : List ℚ) : List ℚ := values.insertionSort (· ≤ ·)

/-- The deviations from the median, sorted. -/
def deviations (values : List ℚ) : List ℚ :=
  ((ascending values).map fun v => |v - median (ascending values)|).insertionSort (· ≤ ·)

theorem computeBaseline_some (h : minBaselinePoints ≤ values.length) : computeBaseline values =
    some ⟨median (ascending values), max (max (madToSigma * median (deviations values))
      (relativeScaleFloor * |median (ascending values)|)) absoluteScaleFloor, values.length⟩ := by
  unfold computeBaseline
  rw [if_neg (by omega)]
  rfl

theorem computeBaseline_perm {values' : List ℚ} (h : values.Perm values') :
    computeBaseline values = computeBaseline values' := by
  unfold computeBaseline
  rw [h.length_eq, insertionSort_eq_of_perm h]

theorem most_ascending {lo hi : ℚ} (hmost : Most values lo hi) : Most (ascending values) lo hi :=
  hmost.perm (List.perm_insertionSort _ _).symm

theorem median_ascending {lo hi : ℚ} (hmost : Most values lo hi) :
    lo ≤ median (ascending values) ∧ median (ascending values) ≤ hi :=
  median_mem_Icc (List.pairwise_insertionSort _ _) (most_ascending hmost)

/-- The values of the interval are no further from the median than the interval is long. -/
theorem most_deviations {lo hi : ℚ} (hmost : Most values lo hi) : Most (deviations values) 0 (hi - lo) := by
  obtain ⟨hlo, hhi⟩ := median_ascending hmost
  refine Most.perm ?_ (List.perm_insertionSort _ _).symm
  have hsorted := most_ascending hmost
  unfold Most at hsorted ⊢
  rw [List.length_map, List.countP_map]
  refine hsorted.trans_le (Nat.mul_le_mul_left 2 (List.countP_mono_left fun v _ hv => ?_))
  simp only [within, Bool.and_eq_true, decide_eq_true_eq] at hv
  simp only [Function.comp_apply, within, Bool.and_eq_true, decide_eq_true_eq]
  refine ⟨abs_nonneg _, abs_le.mpr ⟨?_, ?_⟩⟩
  · linarith
  · linarith

theorem median_deviations {lo hi : ℚ} (hmost : Most values lo hi) : median (deviations values) ≤ hi - lo :=
  (median_mem_Icc (List.pairwise_insertionSort _ _) (most_deviations hmost)).2

theorem abs_le_of_mem_Icc {x lo hi : ℚ} (hlo : lo ≤ x) (hhi : x ≤ hi) : |x| ≤ max |lo| |hi| := by
  apply abs_le.mpr
  have hneg : -|lo| ≤ lo := neg_abs_le lo
  have hpos : hi ≤ |hi| := le_abs_self hi
  constructor
  · linarith [le_max_left |lo| |hi|]
  · linarith [le_max_right |lo| |hi|]

/-- The parts of a baseline: where the median is, and how large the scale gets. -/
theorem scale_le {baseline : Baseline} (h : computeBaseline values = some baseline) {lo hi : ℚ} (hmost : Most values lo hi) :
    lo ≤ baseline.median ∧ baseline.median ≤ hi ∧
      baseline.scale ≤ max (max (madToSigma * (hi - lo)) (relativeScaleFloor * max |lo| |hi|)) absoluteScaleFloor := by
  have hmin : minBaselinePoints ≤ values.length := by
    by_contra hless
    rw [computeBaseline, if_pos (by omega)] at h
    cases h
  rw [computeBaseline_some hmin] at h
  obtain rfl := Option.some.inj h
  obtain ⟨hlo, hhi⟩ := median_ascending hmost
  refine ⟨hlo, hhi, max_le_max (max_le_max ?_ ?_) le_rfl⟩
  · exact mul_le_mul_of_nonneg_left (median_deviations hmost) (by norm_num [madToSigma])
  · exact mul_le_mul_of_nonneg_left (abs_le_of_mem_Icc hlo hhi) (by norm_num [relativeScaleFloor])

theorem scale_pos {baseline : Baseline} (h : computeBaseline values = some baseline) : 0 < baseline.scale := by
  unfold computeBaseline at h
  split at h
  · cases h
  · obtain rfl := Option.some.inj h
    refine lt_of_lt_of_le ?_ (le_max_right _ _)
    norm_num [absoluteScaleFloor]

end Baseline

/-! ## The score -/

section Score
variable (value value' : ℚ) (baseline : Baseline) (sensitivity : AnomalySensitivity)

theorem zThreshold_pos : 0 < zThreshold sensitivity := by
  cases sensitivity <;> norm_num [zThreshold]

theorem score_mem : 0 ≤ (assess value baseline sensitivity).score ∧ (assess value baseline sensitivity).score < 1 := by
  have hthreshold := zThreshold_pos sensitivity
  have hz := abs_nonneg (assess value baseline sensitivity).z
  have hpos : 0 < |(assess value baseline sensitivity).z| + zThreshold sensitivity := by linarith
  constructor
  · exact div_nonneg hz hpos.le
  · apply (div_lt_one hpos).mpr
    show |(assess value baseline sensitivity).z| < |(assess value baseline sensitivity).z| + zThreshold sensitivity
    linarith

theorem score_mono (h : |(assess value baseline sensitivity).z| ≤ |(assess value' baseline sensitivity).z|) :
    (assess value baseline sensitivity).score ≤ (assess value' baseline sensitivity).score := by
  have hthreshold := zThreshold_pos sensitivity
  have hz := abs_nonneg (assess value baseline sensitivity).z
  show |(assess value baseline sensitivity).z| / (|(assess value baseline sensitivity).z| + zThreshold sensitivity) ≤
    |(assess value' baseline sensitivity).z| / (|(assess value' baseline sensitivity).z| + zThreshold sensitivity)
  rw [div_le_div_iff₀ (by linarith) (by linarith)]
  nlinarith only [h, hthreshold]

theorem half_le_score_iff :
    1 / 2 ≤ (assess value baseline sensitivity).score ↔ (assess value baseline sensitivity).anomalous = true := by
  have hthreshold := zThreshold_pos sensitivity
  have hz := abs_nonneg (assess value baseline sensitivity).z
  have hanomalous : (assess value baseline sensitivity).anomalous = true ↔
      zThreshold sensitivity ≤ |(assess value baseline sensitivity).z| := decide_eq_true_iff
  rw [hanomalous]
  show 1 / 2 ≤ |(assess value baseline sensitivity).z| /
    (|(assess value baseline sensitivity).z| + zThreshold sensitivity) ↔ _
  rw [div_le_div_iff₀ (by norm_num) (by linarith)]
  constructor
  · intro h
    linarith
  · intro h
    linarith

end Score

/-- **Past outages teach nothing.** A sample with enough finite values has a baseline that does not depend on their order,
with a positive scale; where more than half of them lie in an interval, the median lies in it and the scale is bounded by it,
whatever the others are. Under such a baseline the score of a value is in [0, 1), grows with its distance and reaches one half
exactly when the value is anomalous. -/
theorem baseline_robust (values : List Number) (h : minBaselinePoints ≤ (finiteValues values).length) :
    ∃ baseline, computeBaselineOf values = some baseline ∧
      (∀ values', values'.Perm values → computeBaselineOf values' = some baseline) ∧
      0 < baseline.scale ∧
      (∀ lo hi, Most (finiteValues values) lo hi → lo ≤ baseline.median ∧ baseline.median ≤ hi ∧
        baseline.scale ≤ max (max (madToSigma * (hi - lo)) (relativeScaleFloor * max |lo| |hi|)) absoluteScaleFloor) ∧
      (∀ value sensitivity, 0 ≤ (assess value baseline sensitivity).score ∧ (assess value baseline sensitivity).score < 1 ∧
        (1 / 2 ≤ (assess value baseline sensitivity).score ↔ (assess value baseline sensitivity).anomalous = true)) ∧
      ∀ value value' sensitivity, |(assess value baseline sensitivity).z| ≤ |(assess value' baseline sensitivity).z| →
        (assess value baseline sensitivity).score ≤ (assess value' baseline sensitivity).score := by
  have hsome := computeBaseline_some h
  refine ⟨_, hsome, fun values' hperm => ?_, scale_pos hsome, fun lo hi hmost => scale_le hsome hmost,
    fun value sensitivity => ?_, fun value value' sensitivity hz => score_mono value value' _ sensitivity hz⟩
  · have hfinite : (finiteValues values').Perm (finiteValues values) := hperm.filterMap Number.finite?
    rw [computeBaselineOf, computeBaseline_perm hfinite]
    exact hsome
  · obtain ⟨hnonneg, hlt⟩ := score_mem value _ sensitivity
    exact ⟨hnonneg, hlt, half_le_score_iff value _ sensitivity⟩

/-- A week around 20, with an outage at 100 and some readings that are no numbers. -/
def outage : List Number :=
  List.replicate 20 (.finite 19) ++ List.replicate 20 (.finite 21) ++ List.replicate 30 (.finite 100) ++
    [.nan, .infinite false]

theorem baseline_robust_outage : ∃ baseline, computeBaselineOf outage = some baseline ∧
    19 ≤ baseline.median ∧ baseline.median ≤ 21 ∧ 0 < baseline.scale ∧ baseline.scale ≤ 3 := by
  obtain ⟨baseline, hsome, -, hpos, hmost, -⟩ := baseline_robust outage (by decide)
  obtain ⟨hlo, hhi, hscale⟩ := hmost 19 21 (by unfold Most; decide +kernel)
  refine ⟨baseline, hsome, hlo, hhi, hpos, hscale.trans ?_⟩
  norm_num [madToSigma, relativeScaleFloor, absoluteScaleFloor, abs_of_pos]

end IkelyaneMonitor.Aiops
