import Mathlib
import IkelyaneMonitor.Incidents.Turns

/-!
# Flap protection along a series

* `spans` : the samples of the streak that ends a series span the duration of a rule. `opens_spanned_iff` : exactly when an
  evaluation opens incidents on such streaks only. The age of a streak is taken at reception, so one old sample is enough
  when it comes late (`opened_by_delay`); `live_spanned` : without a delay there is no such streak;
* `Sampled` : a series sampled at a fixed interval, each sample evaluated when stored. `lasting_breach_opens` : a lasting
  breach opens an incident when the streak among the newest 500 samples is old enough at some reception, and only then.
  A day at ten seconds is not reached (`never_opens`).
-/

namespace IkelyaneMonitor.Incidents
open Interleave Telemetry Aiops Alerts

/-! ## The streak that ends a series -/

/-- From its oldest to its newest sample, the streak that ends a series lasts the duration. -/
def spans (holds : ℚ → Bool) (durationSec : Nat) : List MetricPoint → Bool
  | [] => false
  | newest :: older => isSustained (streakSince holds (newest :: older)) durationSec newest.time

section Streak
variable {holds : ℚ → Bool}

theorem streakSince_cons {point : MetricPoint} {points : List MetricPoint} (h : holds point.value = true) :
    streakSince holds (point :: points) = some ((streakSince holds points).getD point.time) := by
  rw [streakSince, if_pos h]

theorem streakSince_eq_none {points : List MetricPoint} (h : ∀ point ∈ points.head?, holds point.value = false) :
    streakSince holds points = none := by
  cases points with
  | nil => rfl
  | cons point points => rw [streakSince, h point rfl, if_neg Bool.false_ne_true]

/-- The streak begins at one of the points. -/
theorem streakSince_mem {points : List MetricPoint} {since : Int} (h : streakSince holds points = some since) :
    ∃ point ∈ points, point.time = since := by
  induction points generalizing since with
  | nil => cases h
  | cons point points ih =>
      rw [streakSince] at h
      split at h
      · cases hrest : streakSince holds points with
        | none =>
            rw [hrest] at h
            exact ⟨point, List.mem_cons_self, Option.some.inj h⟩
        | some t =>
            rw [hrest] at h
            obtain ⟨older, hmem, ht⟩ := ih hrest
            exact ⟨older, List.mem_cons_of_mem _ hmem, ht.trans (Option.some.inj h)⟩
      · cases h

/-- With more of the past in view, the streak is no younger. -/
theorem streakSince_take {points : List MetricPoint} (hsorted : points.Pairwise fun a b => b.time ≤ a.time) {n : Nat}
    {since : Int} (h : streakSince holds (points.take n) = some since) :
    ∃ since', streakSince holds points = some since' ∧ since' ≤ since := by
  induction points generalizing n since with
  | nil =>
      rw [List.take_nil] at h
      cases h
  | cons point points ih =>
      obtain ⟨hnewest, hrest⟩ := List.pairwise_cons.mp hsorted
      cases n with
      | zero => cases h
      | succ n =>
          rw [List.take_succ_cons, streakSince] at h
          split at h
          · rename_i hholds
            rw [streakSince_cons hholds]
            refine ⟨_, rfl, ?_⟩
            cases hcut : streakSince holds (points.take n) with
            | some t =>
                obtain ⟨t', ht', hle⟩ := ih hrest hcut
                rw [hcut] at h
                rw [ht', ← Option.some.inj h]
                exact hle
            | none =>
                rw [hcut] at h
                rw [← Option.some.inj h]
                cases hall : streakSince holds points with
                | none => exact le_refl _
                | some t' =>
                    obtain ⟨older, hmem, rfl⟩ := streakSince_mem hall
                    exact hnewest older hmem
          · cases h

end Streak

/-- The points of a series, newest first. -/
theorem series_sorted (entries : MetricEntries) (series : SeriesKey) :
    (entries.series series).Pairwise fun a b => b.time ≤ a.time := by
  unfold MetricEntries.series
  rw [List.pairwise_map]
  exact List.pairwise_insertionSort _ _

/-! ## What an evaluation opens -/

/-- The condition of a rule on a series, with the baseline that its turn loads. -/
def turnCondition (orgId : Nat) (now : Int) (point : MetricRow) (rule : AlertRule) (s : Store) : ℚ → Bool :=
  conditionHolds (rule.condition (ruleBaseline s.entries s.cache rule (MetricRow.series point orgId) now).1)

/-- The samples of the streak that ends with the newest sample stored of the series span the duration. -/
def Spanned (orgId : Nat) (now : Int) (point : MetricRow) (rule : AlertRule) (s : Store) : Prop :=
  spans (turnCondition orgId now point rule s) rule.durationSec (s.entries.series (MetricRow.series point orgId)) = true

/-- The streak in view began the duration before the reception, but its samples do not span the duration. -/
def OldButShort (orgId : Nat) (now : Int) (point : MetricRow) (rule : AlertRule) (s : Store) : Prop :=
  ∃ since, streakSince (turnCondition orgId now point rule s)
      ((s.entries.history (MetricRow.series point orgId) now).take historyLookbackPoints) = some since ∧
    (rule.durationSec * 1000 : Int) ≤ now - since ∧ ¬ Spanned orgId now point rule s

section Opened
variable {s s' : Store} {orgId : Nat} {rows : List MetricRow} {now : Int} {point : MetricRow} {rule : AlertRule}

/-- A rule without a condition never holds. -/
theorem conditionHolds_none {condition : RuleCondition}
    (h : (condition.threshold.isNone && condition.anomaly.isNone) = true) (value : ℚ) :
    conditionHolds condition value = false := by
  rw [Bool.and_eq_true, Option.isNone_iff_eq_none, Option.isNone_iff_eq_none] at h
  simp [conditionHolds, h.1, h.2]

theorem itemVerdict_iff : itemVerdict s.entries s.cache orgId now (point, rule) = some true ↔
    ∃ since, streakSince (turnCondition orgId now point rule s)
        ((s.entries.history (MetricRow.series point orgId) now).take historyLookbackPoints) = some since ∧
      (rule.durationSec * 1000 : Int) ≤ now - since := by
  unfold itemVerdict verdictWith
  dsimp only
  split
  · rename_i hnone
    refine iff_of_false (by simp) ?_
    rintro ⟨since, hsince, -⟩
    have hnever : streakSince (turnCondition orgId now point rule s)
        ((s.entries.history (MetricRow.series point orgId) now).take historyLookbackPoints) = none :=
      streakSince_eq_none fun point _ => conditionHolds_none hnone point.value
    rw [hnever] at hsince
    cases hsince
  · rw [Option.some.injEq]
    unfold sustainedBreach isSustained turnCondition
    rw [Option.any_eq_true]
    simp only [decide_eq_true_eq]

theorem opens_iff_streak : Opens orgId now point rule s ↔
    (∃ since, streakSince (turnCondition orgId now point rule s)
        ((s.entries.history (MetricRow.series point orgId) now).take historyLookbackPoints) = some since ∧
      (rule.durationSec * 1000 : Int) ≤ now - since) ∧ hasOpen (MetricRow.incidentKey point orgId rule) s = false := by
  rw [opens_iff, itemVerdict_iff]

/-- **Late samples.** Whatever is stored, received and when: an evaluation opens incidents only on streaks whose samples
span the duration exactly when it comes to no rule, without an open incident, on a streak that is old at reception and
shorter than the duration. -/
theorem opens_spanned_iff (s : Store) (orgId : Nat) (rows : List MetricRow) (now : Int) :
    (∀ point rule s', Turn s orgId rows now point rule s' → Opens orgId now point rule s' → Spanned orgId now point rule s') ↔
      ∀ point rule s', Turn s orgId rows now point rule s' → hasOpen (MetricRow.incidentKey point orgId rule) s' = false →
        ¬ OldButShort orgId now point rule s' := by
  constructor
  · rintro h point rule s' hturn hclosed ⟨since, hsince, hle, hshort⟩
    exact hshort (h point rule s' hturn (opens_iff_streak.mpr ⟨⟨since, hsince, hle⟩, hclosed⟩))
  · intro h point rule s' hturn hopens
    obtain ⟨⟨since, hsince, hle⟩, hclosed⟩ := opens_iff_streak.mp hopens
    by_contra hshort
    exact h point rule s' hturn hclosed ⟨since, hsince, hle, hshort⟩

/-- Where the newest sample stored is of the time of reception, incidents are opened on such streaks only. -/
theorem live_spanned {newest : MetricPoint} (hnewest : (s.entries.series (MetricRow.series point orgId)).head? = some newest)
    (hlive : newest.time = now) (hopens : Opens orgId now point rule s) : Spanned orgId now point rule s := by
  obtain ⟨⟨since, hsince, hle⟩, -⟩ := opens_iff_streak.mp hopens
  have hsorted := series_sorted s.entries (MetricRow.series point orgId)
  obtain ⟨older, hseries⟩ := List.head?_eq_some_iff.mp hnewest
  have hall : s.entries.history (MetricRow.series point orgId) now = s.entries.series (MetricRow.series point orgId) := by
    refine List.filter_eq_self.mpr fun point hpoint => decide_eq_true ?_
    rw [hseries] at hpoint hsorted
    rcases List.mem_cons.mp hpoint with rfl | hmem
    · exact hlive.le
    · exact hlive ▸ (List.pairwise_cons.mp hsorted).1 point hmem
  rw [hall] at hsince
  obtain ⟨since', hsince', hearlier⟩ := streakSince_take hsorted hsince
  unfold Spanned
  rw [hseries] at hsince' ⊢
  rw [spans, hsince', isSustained, Option.any_some]
  refine decide_eq_true ?_
  omega

end Opened

/-- The sample above was taken an hour before it is received, and is the only one. -/
def lateRows : List MetricRow := [⟨1790000000000, 1, .host, 7, .diskUsedPercent, "/", 95⟩]

def lateStore : Store := { diskStore with entries := ⟨lateRows, by decide⟩ }

theorem opened_by_delay : ∃ point rule s', Turn lateStore 1 lateRows 1790003600000 point rule s' ∧
    Opens 1 1790003600000 point rule s' ∧ ¬ Spanned 1 1790003600000 point rule s' := by
  refine ⟨⟨1790000000000, 1, .host, 7, .diskUsedPercent, "/", 95⟩, diskRule, lateStore, ⟨[], [], rfl, rfl⟩, ?_, ?_⟩
  · unfold Opens
    decide +kernel
  · unfold Spanned
    decide +kernel

/-! ## A series sampled at a fixed interval -/

/-- A rule with a threshold alone, a series sampled every `interval` milliseconds, and the evaluation of each sample: the
batch it comes with, the time it is received, and what is stored by then. -/
structure Sampled where
  orgId : Nat
  rule : AlertRule
  operator : AlertOperator
  threshold : ℚ
  sourceId : Nat
  inst : String
  start : Int
  interval : Int
  value : Nat → ℚ
  now : Nat → Int
  rows : Nat → List MetricRow
  stored : Nat → Store
  interval_pos : 0 < interval
  enabled : rule.enabled = true
  org : rule.orgId = orgId
  condition : rule.operator = some operator ∧ rule.threshold = some threshold ∧ rule.anomalyDetection = false
  scope : rule.sourceId.all (· == sourceId) = true ∧ rule.instanceFilter.all (· == inst) = true
  received : ∀ n : Nat, start + n * interval ≤ now n
  batch : ∀ n : Nat,
    ⟨start + n * interval, orgId, rule.sourceKind, sourceId, rule.metric, inst, value n⟩ ∈ latestPoints (rows n)
  rule_stored : ∀ n, rule ∈ (stored n).rules
  series_stored : ∀ n, (stored n).entries.series ⟨orgId, rule.sourceKind, sourceId, rule.metric, inst⟩ =
    (List.range (n + 1)).reverse.map fun i => ⟨start + i * interval, value i⟩

namespace Sampled
variable (r : Sampled)

def time (n : Nat) : Int := r.start + n * r.interval

def sample (n : Nat) : MetricRow := ⟨r.time n, r.orgId, r.rule.sourceKind, r.sourceId, r.rule.metric, r.inst, r.value n⟩

def key : IncidentKey := ⟨r.orgId, r.rule.id, r.sourceId, r.rule.metric⟩

/-- The condition holds of a sample. -/
def breached (n : Nat) : Bool := breaches r.operator (r.value n) r.threshold

/-- The samples up to one, newest first. -/
def points (n : Nat) : List MetricPoint := (List.range (n + 1)).reverse.map fun i => ⟨r.time i, r.value i⟩

/-- An incident of the rule is open when the evaluation of a sample has come to the rule. -/
def OpenAt (n : Nat) : Prop := OpenAfter (r.stored n) r.orgId (r.rows n) (r.now n) (r.sample n) r.rule

/-- When sample `n` is received, the oldest sample of the breach among the newest 500 is as old as the duration. -/
def Overdue (first n : Nat) : Prop := (r.rule.durationSec * 1000 : Int) ≤ r.now n - r.time (max first (n - 499))

/-- From a sample on, incidents of the rule on the source come from this series alone. -/
structure Undisturbed (k : Nat) : Prop where
  closed : hasOpen r.key (r.stored k) = false
  between : ∀ n ≥ k, ∀ s, (evaluateIngestedMetrics r.orgId (r.rows n) (r.now n)).exec sem () (r.stored n) =
    some (s, .evaluated) → hasOpen r.key s = false → hasOpen r.key (r.stored (n + 1)) = false
  alone : ∀ n ≥ k, ∀ item ∈ evaluatedItems (r.stored n) r.orgId (r.rows n),
    MetricRow.incidentKey item.1 r.orgId item.2 = r.key → item = (r.sample n, r.rule)

variable {r}

theorem points_zero : r.points 0 = [⟨r.time 0, r.value 0⟩] := rfl

theorem points_succ (n : Nat) : r.points (n + 1) = ⟨r.time (n + 1), r.value (n + 1)⟩ :: r.points n := by
  unfold points
  rw [List.range_succ, List.reverse_append]
  rfl

theorem time_le {i n : Nat} (h : i ≤ n) : r.time i ≤ r.time n := by
  unfold time
  have hmul : (i : Int) * r.interval ≤ n * r.interval :=
    mul_le_mul_of_nonneg_right (by exact_mod_cast h) r.interval_pos.le
  omega

/-- Every sample stored is of a time before the reception. -/
theorem history_eq (n : Nat) :
    (r.stored n).entries.history ⟨r.orgId, r.rule.sourceKind, r.sourceId, r.rule.metric, r.inst⟩ (r.now n) = r.points n := by
  unfold MetricEntries.history
  rw [r.series_stored]
  refine List.filter_eq_self.mpr fun point hpoint => decide_eq_true ?_
  obtain ⟨i, hi, rfl⟩ := List.mem_map.mp hpoint
  have hle : i ≤ n := Nat.lt_succ_iff.mp (List.mem_range.mp (List.mem_reverse.mp hi))
  exact (time_le (r := r) hle).trans (r.received n)

/-- The streak among the newest `m + 1` samples begins with the breach, or with the oldest of these. -/
theorem streakSince_points {first : Nat} (hholds : ∀ i ≥ first, r.breached i = true)
    (hfirst : ∀ i, i + 1 = first → r.breached i = false) (m n : Nat) (hn : first ≤ n) :
    streakSince (fun value => breaches r.operator value r.threshold) ((r.points n).take (m + 1)) =
      some (r.time (max first (n - m))) := by
  induction m generalizing n with
  | zero =>
      have hhead : (r.points n).take 1 = [⟨r.time n, r.value n⟩] := by
        cases n with
        | zero => rfl
        | succ n => rw [points_succ, List.take_succ_cons, List.take_zero]
      rw [hhead, streakSince_cons (hholds n hn), Nat.sub_zero, max_eq_right hn]
      rfl
  | succ m ih =>
      cases n with
      | zero =>
          have hzero : first = 0 := Nat.le_zero.mp hn
          rw [points_zero, List.take_succ_cons, List.take_nil, streakSince_cons (hholds 0 hn), hzero]
          simp [streakSince]
      | succ n =>
          rw [points_succ, List.take_succ_cons, streakSince_cons (hholds (n + 1) hn)]
          by_cases hmore : first ≤ n
          · rw [ih n hmore, Option.getD_some, Nat.add_sub_add_right]
          · have heq : n + 1 = first := by omega
            have hcut : streakSince (fun value => breaches r.operator value r.threshold) ((r.points n).take (m + 1)) =
              none := by
              refine streakSince_eq_none fun point hpoint => ?_
              have hhead : point = ⟨r.time n, r.value n⟩ := by
                cases n with
                | zero =>
                    rw [points_zero, List.take_succ_cons] at hpoint
                    exact (Option.mem_some_iff.mp hpoint).symm
                | succ n =>
                    rw [points_succ, List.take_succ_cons] at hpoint
                    exact (Option.mem_some_iff.mp hpoint).symm
              rw [hhead]
              exact hfirst n heq
            rw [hcut, Option.getD_none, max_eq_left (by omega), ← heq]

theorem turnCondition_eq (s : Store) (n : Nat) : turnCondition r.orgId (r.now n) (r.sample n) r.rule s =
    fun value => breaches r.operator value r.threshold := by
  obtain ⟨hoperator, hthreshold, hplain⟩ := r.condition
  funext value
  simp [turnCondition, AlertRule.condition, conditionHolds, hoperator, hthreshold, hplain]

theorem verdict_iff {first : Nat} (hholds : ∀ i ≥ first, r.breached i = true)
    (hfirst : ∀ i, i + 1 = first → r.breached i = false) {n : Nat} (hn : first ≤ n) {s : Store}
    (hs : s.entries = (r.stored n).entries) :
    itemVerdict s.entries s.cache r.orgId (r.now n) (r.sample n, r.rule) = some true ↔ r.Overdue first n := by
  have hpoints : s.entries.history (MetricRow.series (r.sample n) r.orgId) (r.now n) = r.points n := by
    rw [hs]
    exact history_eq n
  rw [itemVerdict_iff, turnCondition_eq, hpoints]
  have hsince : streakSince (fun value => breaches r.operator value r.threshold) ((r.points n).take historyLookbackPoints) =
      some (r.time (max first (n - 499))) := streakSince_points hholds hfirst 499 n hn
  rw [hsince]
  constructor
  · rintro ⟨since, heq, hle⟩
    rw [← Option.some.inj heq] at hle
    exact hle
  · exact fun hle => ⟨_, rfl, hle⟩

theorem mem_evaluatedItems (n : Nat) : (r.sample n, r.rule) ∈ evaluatedItems (r.stored n) r.orgId (r.rows n) := by
  have hbatch : r.sample n ∈ latestPoints (r.rows n) := r.batch n
  obtain ⟨hoperator, hthreshold, hplain⟩ := r.condition
  refine List.mem_flatMap.mpr ⟨r.sample n, hbatch, List.mem_map.mpr ⟨r.rule, List.mem_filter.mpr ⟨?_, ?_⟩, rfl⟩⟩
  · refine List.mem_filter.mpr ⟨r.rule_stored n, ?_⟩
    have hkind : r.rule.sourceKind ∈ (latestPoints (r.rows n)).map MetricRow.sourceKind :=
      List.mem_map.mpr ⟨r.sample n, hbatch, rfl⟩
    have hmetric : r.rule.metric ∈ (latestPoints (r.rows n)).map MetricRow.metric :=
      List.mem_map.mpr ⟨r.sample n, hbatch, rfl⟩
    rw [AlertRule.watches, r.org, r.enabled, hplain, hoperator, hthreshold, List.contains_iff_mem.mpr hkind,
      List.contains_iff_mem.mpr hmetric]
    simp
  · have hscope := r.scope
    rw [AlertRule.watchesPoint]
    show (r.rule.sourceKind == r.rule.sourceKind && r.rule.metric == r.rule.metric &&
      r.rule.sourceId.all (· == r.sourceId) && r.rule.instanceFilter.all (· == r.inst)) = true
    rw [hscope.1, hscope.2, beq_self_eq_true, beq_self_eq_true]
    rfl

/-- A sample that is overdue is evaluated with an open incident, whatever else is in its batch. -/
theorem openAt_of_overdue {first n : Nat} (hholds : ∀ i ≥ first, r.breached i = true)
    (hfirst : ∀ i, i + 1 = first → r.breached i = false) (hn : first ≤ n) (hover : r.Overdue first n) : r.OpenAt n := by
  have hitem := mem_evaluatedItems (r := r) n
  obtain ⟨s, hturn⟩ : ∃ s, Turn _ _ _ (r.now n) _ _ s := exists_turn hitem
  obtain ⟨s', ws, hthrough, hsettled⟩ := evaluateItem_settles r.orgId (r.now n) (r.sample n) r.rule s
  refine ⟨s, s', hturn, (hthrough (.ret .evaluated)).1, hsettled.opens ?_⟩
  exact (verdict_iff hholds hfirst hn hturn.entries).mpr hover

section Closed
variable {first n : Nat} (hholds : ∀ i ≥ first, r.breached i = true) (hfirst : ∀ i, i + 1 = first → r.breached i = false)
include hholds hfirst

/-- A turn that is not the sample's, or not overdue, opens nothing of the rule on the source. -/
theorem closed_item (hn : first ≤ n) (hover : ¬ r.Overdue first n) {item : MetricRow × AlertRule}
    (halone : MetricRow.incidentKey item.1 r.orgId item.2 = r.key → item = (r.sample n, r.rule)) {s s' : Store}
    {ws : List (Store × Stmt)} (hs : s.entries = (r.stored n).entries) (hclosed : hasOpen r.key s = false)
    (hsettled : Settled (MetricRow.incidentKey item.1 r.orgId item.2) (itemVerdict s.entries s.cache r.orgId (r.now n) item)
      s s' ws) : hasOpen r.key s' = false := by
  by_cases hkey : MetricRow.incidentKey item.1 r.orgId item.2 = r.key
  · have hitem := halone hkey
    rw [hkey, hitem] at hsettled
    exact hsettled.stays (fun hverdict => hover ((verdict_iff hholds hfirst hn hs).mp hverdict)) hclosed
  · rw [hsettled.others r.key (Ne.symm hkey)]
    exact hclosed

theorem passes_closed (hn : first ≤ n) (hover : ¬ r.Overdue first n) {pre : List (MetricRow × AlertRule)}
    (halone : ∀ item ∈ pre, MetricRow.incidentKey item.1 r.orgId item.2 = r.key → item = (r.sample n, r.rule)) {s : Store}
    (hs : s.entries = (r.stored n).entries) (hclosed : hasOpen r.key s = false) :
    ∃ s' ws, Passes r.orgId (r.now n) pre s s' ws ∧ s'.entries = (r.stored n).entries ∧ hasOpen r.key s' = false := by
  induction pre generalizing s with
  | nil => exact ⟨s, [], fun _ => ⟨rfl, rfl⟩, hs, hclosed⟩
  | cons item pre ih =>
      obtain ⟨s₁, ws, hthrough, hsettled⟩ := evaluateItem_settles r.orgId (r.now n) item.1 item.2 s
      have hclosed₁ := closed_item hholds hfirst hn hover (halone item List.mem_cons_self) hs hclosed hsettled
      obtain ⟨s', vs, hpasses, hs', hclosed'⟩ :=
        ih (fun item hitem => halone item (List.mem_cons_of_mem _ hitem)) (hsettled.entries.trans hs) hclosed₁
      exact ⟨s', _, hpasses.cons hthrough, hs', hclosed'⟩

/-- While no sample is overdue, no incident is open at any sample. -/
theorem closed_of_undisturbed {k : Nat} (hk : first ≤ k) (halone : r.Undisturbed k) (hnever : ∀ n ≥ k, ¬ r.Overdue first n)
    (hn : k ≤ n) : hasOpen r.key (r.stored n) = false := by
  induction n, hn using Nat.le_induction with
  | base => exact halone.closed
  | succ n hn ih =>
      obtain ⟨s', ws, hpasses, -, hclosed⟩ := passes_closed hholds hfirst (hk.trans hn) (hnever n hn)
        (halone.alone n hn) rfl ih
      refine halone.between n hn s' ?_ hclosed
      have hexec := hpasses.exec
      unfold evaluateIngestedMetrics
      split
      · rename_i hempty
        have hsample := r.batch n
        rw [hempty] at hsample
        cases hsample
      · exact hexec

theorem overdue_of_openAt {k : Nat} (hk : first ≤ k) (halone : r.Undisturbed k) (hopen : ∃ n ≥ k, r.OpenAt n) :
    ∃ n ≥ k, r.Overdue first n := by
  by_contra hnone
  have hnever : ∀ n ≥ k, ¬ r.Overdue first n := fun n hn hover => hnone ⟨n, hn, hover⟩
  obtain ⟨n, hn, s, s', ⟨pre, post, hsplit, hexec⟩, hturn, hopen⟩ := hopen
  have hitems := halone.alone n hn
  rw [hsplit] at hitems
  obtain ⟨s₁, ws, hpasses, hs₁, hclosed⟩ := passes_closed hholds hfirst (hk.trans hn) (hnever n hn)
    (fun item hitem => hitems item (List.mem_append_left _ hitem)) rfl
    (closed_of_undisturbed hholds hfirst hk halone hnever hn)
  obtain rfl := (Prod.mk.inj (Option.some.inj (hpasses.exec.symm.trans hexec))).1
  obtain ⟨s₂, vs, hthrough, hsettled⟩ := evaluateItem_settles r.orgId (r.now n) (r.sample n) r.rule s₁
  obtain rfl := (Prod.mk.inj (Option.some.inj ((hthrough (.ret .evaluated)).1.symm.trans hturn))).1
  have hstays := hsettled.stays (fun hv => hnever n hn ((verdict_iff hholds hfirst (hk.trans hn) hs₁).mp hv)) hclosed
  exact absurd (hopen.symm.trans hstays) (by decide)

end Closed

/-- **A lasting breach.** From its first sample `first` on the condition holds; from `k` on, at some sample an incident of
the rule is open if at some sample the oldest of the breach among the newest 500 is as old as the duration; and only if,
where the incidents of the rule come from this series. -/
theorem lasting_breach_opens (r : Sampled) {first k : Nat} (hk : first ≤ k) (hholds : ∀ i ≥ first, r.breached i = true)
    (hfirst : ∀ i, i + 1 = first → r.breached i = false) :
    ((∃ n ≥ k, r.Overdue first n) → ∃ n ≥ k, r.OpenAt n) ∧
      (r.Undisturbed k → (∃ n ≥ k, r.OpenAt n) → ∃ n ≥ k, r.Overdue first n) := by
  refine ⟨?_, overdue_of_openAt hholds hfirst hk⟩
  rintro ⟨n, hn, hover⟩
  exact ⟨n, hn, openAt_of_overdue hholds hfirst (hk.trans hn) hover⟩

end Sampled

/-! ## A disk that stays full -/

def fullSample (n : Nat) : MetricRow := ⟨n * 10000, 1, .host, 7, .diskUsedPercent, "/", 95⟩

/-- The samples up to one, the newest first. -/
def fullSamples (n : Nat) : List MetricRow := (List.range (n + 1)).reverse.map fullSample

theorem fullSample_time_inj {i j : Nat} (h : (fullSample i).time = (fullSample j).time) : i = j := by
  have heq : (i : Int) * 10000 = j * 10000 := h
  omega

theorem fullSamples_nodup (n : Nat) : ((fullSamples n).map MetricRow.id).Nodup := by
  unfold fullSamples
  rw [List.map_map]
  refine List.Nodup.map (fun i j h => fullSample_time_inj ?_) (List.nodup_reverse.mpr List.nodup_range)
  exact (Prod.mk.inj (Prod.mk.inj (Prod.mk.inj h).2).2).2

theorem fullSamples_series (n : Nat) : (⟨fullSamples n, fullSamples_nodup n⟩ : MetricEntries).series
    ⟨1, .host, 7, .diskUsedPercent, "/"⟩ = (List.range (n + 1)).reverse.map fun i => ⟨0 + i * 10000, 95⟩ := by
  have hall : (fullSamples n).filter (MetricRow.inSeries ⟨1, .host, 7, .diskUsedPercent, "/"⟩) = fullSamples n := by
    refine List.filter_eq_self.mpr fun row hrow => ?_
    obtain ⟨i, -, rfl⟩ := List.mem_map.mp hrow
    rfl
  have hsorted : (fullSamples n).Pairwise fun a b => b.time ≤ a.time := by
    unfold fullSamples
    rw [List.pairwise_map, List.pairwise_reverse]
    refine List.pairwise_lt_range.imp fun {i j} hlt => ?_
    show (i : Int) * 10000 ≤ j * 10000
    omega
  unfold MetricEntries.series
  rw [hall, hsorted.insertionSort_eq, fullSamples, List.map_map]
  refine List.map_congr_left fun i _ => ?_
  show (⟨(i : Int) * 10000, 95⟩ : MetricPoint) = ⟨0 + i * 10000, 95⟩
  rw [Int.zero_add]

def steadyRule (durationSec : Nat) : AlertRule := { diskRule with durationSec := durationSec }

def steadyStore (durationSec n : Nat) : Store :=
  { diskStore with
    rules := Table.empty.insert (fun id => { steadyRule durationSec with id := id }) fun _ => rfl
    entries := ⟨fullSamples n, fullSamples_nodup n⟩ }

/-- A reading every ten seconds, received at once. -/
def steady (durationSec : Nat) : Sampled where
  orgId := 1
  rule := steadyRule durationSec
  operator := .gt
  threshold := 90
  sourceId := 7
  inst := "/"
  start := 0
  interval := 10000
  value := fun _ => 95
  now := fun n => n * 10000
  rows := fun n => [fullSample n]
  stored := steadyStore durationSec
  interval_pos := by decide
  enabled := rfl
  org := rfl
  condition := ⟨rfl, rfl, rfl⟩
  scope := ⟨rfl, rfl⟩
  received := fun n => by rw [Int.zero_add]
  batch := fun n => by
    rw [Int.zero_add]
    exact List.mem_singleton.mpr rfl
  rule_stored := fun _ => List.mem_singleton.mpr rfl
  series_stored := fullSamples_series

theorem steady_breached (durationSec n : Nat) : (steady durationSec).breached n = true := rfl

theorem steady_undisturbed (durationSec : Nat) : (steady durationSec).Undisturbed 0 where
  closed := rfl
  between := fun _ _ _ _ _ => rfl
  alone := by
    intro n _ item hitem _
    obtain ⟨point, hpoint, hrules⟩ := List.mem_flatMap.mp hitem
    obtain ⟨rule, hrule, rfl⟩ := List.mem_map.mp hrules
    have hrow : point = fullSample n := List.mem_singleton.mp hpoint
    have hone : rule = steadyRule durationSec :=
      List.mem_singleton.mp (List.mem_filter.mp (List.mem_filter.mp hrule).1).1
    rw [hrow, hone]
    show (fullSample n, steadyRule durationSec) = ((steady durationSec).sample n, (steady durationSec).rule)
    rw [Sampled.sample, Sampled.time]
    show (fullSample n, steadyRule durationSec) =
      ((⟨0 + n * 10000, 1, .host, 7, .diskUsedPercent, "/", 95⟩ : MetricRow), steadyRule durationSec)
    rw [Int.zero_add]
    rfl

/-- For a minute, the seventh reading opens an incident. -/
theorem lasting_breach_opens_minute : ∃ n ≥ 0, (steady 60).OpenAt n :=
  (Sampled.lasting_breach_opens (steady 60) (le_refl 0) (fun i _ => steady_breached 60 i) (fun _ h => absurd h (by omega))).1
    ⟨6, Nat.zero_le 6, by unfold Sampled.Overdue; decide⟩

/-- **A day is never reached.** Of a breach that lasts for ever, the newest 500 readings span 83 minutes. -/
theorem never_opens : (∀ n, (steady 86400).breached n = true) ∧ ∀ n, ¬ (steady 86400).OpenAt n := by
  refine ⟨steady_breached 86400, fun n hopen => ?_⟩
  obtain ⟨m, -, hover⟩ := Sampled.overdue_of_openAt (fun i _ => steady_breached 86400 i) (fun _ h => absurd h (by omega))
    (le_refl 0) (steady_undisturbed 86400) ⟨n, Nat.zero_le n, hopen⟩
  have hle : (86400 * 1000 : Int) ≤ m * 10000 - (0 + (max 0 (m - 499) : Nat) * 10000) := hover
  omega

end IkelyaneMonitor.Incidents
