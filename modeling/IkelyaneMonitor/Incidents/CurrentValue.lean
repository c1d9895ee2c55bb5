import Mathlib
import IkelyaneMonitor.Incidents.Effects
import IkelyaneMonitor.Incidents.Flapping

/-!
# The value that an incident shows

A breach is decided on the stored samples, and the value that its incident shows is taken from the batch.

* `Newest` : the newest stored sample of a series up to a time; `head?_history_iff` : the first one the evaluator looks at;
* `current_value_iff` : incidents show the newest stored value exactly when no turn finds a lasting breach with another value
  in the batch. `stale_behind` : then the batch is behind the stored samples (`shows_backfilled`).
-/

namespace IkelyaneMonitor.Incidents
open Interleave Telemetry Aiops Alerts

/-- The newest stored sample of a series up to a time. -/
structure Newest (entries : MetricEntries) (series : SeriesKey) (now : Int) (row : MetricRow) : Prop where
  stored : row ∈ entries.rows
  inSeries : MetricRow.inSeries series row = true
  le : row.time ≤ now
  last : ∀ other ∈ entries.rows, MetricRow.inSeries series other = true → other.time ≤ now → other.time ≤ row.time

section Newest
variable {entries : MetricEntries} {series : SeriesKey} {now : Int} {row other : MetricRow}

theorem id_eq_of_inSeries (h : MetricRow.inSeries series row = true) (h' : MetricRow.inSeries series other = true)
    (htime : row.time = other.time) : row.id = other.id := by
  simp only [MetricRow.inSeries, Bool.and_eq_true, beq_iff_eq] at h h'
  obtain ⟨⟨⟨⟨-, -⟩, hsource⟩, hmetric⟩, hinstance⟩ := h
  obtain ⟨⟨⟨⟨-, -⟩, hsource'⟩, hmetric'⟩, hinstance'⟩ := h'
  unfold MetricRow.id
  rw [hsource, hsource', hmetric, hmetric', hinstance, hinstance', htime]

theorem Newest.eq (h : Newest entries series now row) (h' : Newest entries series now other) : row = other := by
  have htime : row.time = other.time :=
    le_antisymm (h'.last row h.stored h.inSeries h.le) (h.last other h'.stored h'.inSeries h'.le)
  exact List.inj_on_of_nodup_map entries.nodup h.stored h'.stored (id_eq_of_inSeries h.inSeries h'.inSeries htime)

theorem mem_history {p : MetricPoint} : p ∈ entries.history series now ↔
    ∃ row ∈ entries.rows, MetricRow.inSeries series row = true ∧ row.time ≤ now ∧ p = ⟨row.time, row.value⟩ := by
  unfold MetricEntries.history MetricEntries.series
  simp only [List.mem_filter, List.mem_map, List.mem_insertionSort, decide_eq_true_eq]
  constructor
  · rintro ⟨⟨row, ⟨hmem, hseries⟩, rfl⟩, hle⟩
    exact ⟨row, hmem, hseries, hle, rfl⟩
  · rintro ⟨row, hmem, hseries, hle, rfl⟩
    exact ⟨⟨row, ⟨hmem, hseries⟩, rfl⟩, hle⟩

theorem history_sorted : (entries.history series now).Pairwise fun a b => b.time ≤ a.time :=
  (series_sorted entries series).sublist List.filter_sublist

theorem newest_of_head? {p : MetricPoint} (h : (entries.history series now).head? = some p) :
    ∃ row, Newest entries series now row ∧ p = ⟨row.time, row.value⟩ := by
  obtain ⟨older, hhistory⟩ := List.head?_eq_some_iff.mp h
  obtain ⟨row, hmem, hseries, hle, rfl⟩ := mem_history.mp (hhistory ▸ List.mem_cons_self : p ∈ entries.history series now)
  refine ⟨row, ⟨hmem, hseries, hle, fun other hother hseries' hle' => ?_⟩, rfl⟩
  have hpoint : (⟨other.time, other.value⟩ : MetricPoint) ∈ entries.history series now :=
    mem_history.mpr ⟨other, hother, hseries', hle', rfl⟩
  have hsorted : (entries.history series now).Pairwise fun a b => b.time ≤ a.time := history_sorted
  rw [hhistory] at hpoint hsorted
  obtain heq | hold := List.mem_cons.mp hpoint
  · exact (congrArg MetricPoint.time heq).le
  · exact (List.pairwise_cons.mp hsorted).1 _ hold

/-- The first sample the evaluator looks at is the newest one. -/
theorem head?_history_iff {p : MetricPoint} : (entries.history series now).head? = some p ↔
    ∃ row, Newest entries series now row ∧ p = ⟨row.time, row.value⟩ := by
  constructor
  · exact newest_of_head?
  · rintro ⟨row, hnewest, rfl⟩
    have hmem : (⟨row.time, row.value⟩ : MetricPoint) ∈ entries.history series now :=
      mem_history.mpr ⟨row, hnewest.stored, hnewest.inSeries, hnewest.le, rfl⟩
    obtain ⟨p, hp⟩ := Option.isSome_iff_exists.mp (List.isSome_head?.mpr (List.ne_nil_of_mem hmem))
    obtain ⟨other, hother, rfl⟩ := newest_of_head? hp
    rw [hp, hnewest.eq hother]

end Newest

/-! ## The value of an incident -/

/-- The turn opens the incident, or updates its value. -/
def Writes (orgId : Nat) (now : Int) (point : MetricRow) (rule : AlertRule) (s : Store) (id : Nat) : Prop :=
  id ∈ touched ((evaluateItem orgId now point rule (.ret .evaluated)).stmts sem () s)

/-- The turn finds a lasting breach. -/
def Lasting (orgId : Nat) (now : Int) (point : MetricRow) (rule : AlertRule) (s : Store) : Prop :=
  itemVerdict s.entries s.cache orgId now (point, rule) = some true

/-- After the turn the incident shows the value of the newest sample stored, and the condition of the rule holds of it. -/
def Current (orgId : Nat) (now : Int) (point : MetricRow) (rule : AlertRule) (s : Store) (id : Nat) : Prop :=
  ∃ s', (evaluateItem orgId now point rule (.ret .evaluated)).exec sem () s = some (s', .evaluated) ∧
    ∃ incident ∈ s'.incidents, incident.id = id ∧
      ∃ row, Newest s.entries (MetricRow.series point orgId) now row ∧ incident.triggerValue = some row.value ∧
        turnCondition orgId now point rule s row.value = true

section Value
variable {s : Store} {orgId : Nat} {now : Int} {point : MetricRow} {rule : AlertRule} {id : Nat}

theorem streakSince_head? {holds : ℚ → Bool} {points : List MetricPoint} {since : Int}
    (h : streakSince holds points = some since) : ∃ p, points.head? = some p ∧ holds p.value = true := by
  cases points with
  | nil => cases h
  | cons p points =>
      refine ⟨p, rfl, ?_⟩
      rw [streakSince] at h
      split at h
      · assumption
      · cases h

/-- A lasting breach ends with the newest sample. -/
theorem Lasting.newest (h : Lasting orgId now point rule s) : ∃ row, Newest s.entries (MetricRow.series point orgId) now row ∧
    turnCondition orgId now point rule s row.value = true := by
  obtain ⟨since, hsince, -⟩ := itemVerdict_iff.mp h
  obtain ⟨p, hp, hholds⟩ := streakSince_head? hsince
  rw [List.head?_take, if_neg (by decide)] at hp
  obtain ⟨row, hnewest, rfl⟩ := newest_of_head? hp
  exact ⟨row, hnewest, hholds⟩

theorem writes_iff : Writes orgId now point rule s id ↔
    Lasting orgId now point rule s ∧ id = s.target (MetricRow.incidentKey point orgId rule) := by
  unfold Writes Lasting
  rw [touched_evaluateItem, touchedBy]
  split
  · rename_i hlasting
    rw [List.mem_singleton, and_iff_right hlasting]
  · rename_i hnot
    exact iff_of_false List.not_mem_nil fun h => hnot h.1

/-- The incident of a lasting breach shows the value of the batch. -/
theorem settled_value (baseline : Option Baseline) (s : Store) :
    ∃ incident ∈ (s.settled orgId now point rule baseline true).incidents,
      incident.id = s.target (MetricRow.incidentKey point orgId rule) ∧ incident.triggerValue = some point.value := by
  unfold Store.settled Store.target
  cases hopen : s.findOpen (MetricRow.incidentKey point orgId rule) with
  | none =>
      dsimp only
      unfold Store.opened
      rw [incidents_notified]
      exact ⟨_, mem_openIncident.mpr (.inr rfl), rfl, rfl⟩
  | some incident =>
      have hmem := (findOpen_mem hopen).1
      have hupdated : refreshed point rule baseline incident incident ∈ (s.updated point rule baseline incident).incidents :=
        List.mem_map.mpr ⟨incident, hmem, if_pos (beq_self_eq_true incident.id)⟩
      refine ⟨refreshed point rule baseline incident incident, ?_, rfl, rfl⟩
      dsimp only
      split
      · rw [incidents_notified]
        exact hupdated
      · exact hupdated

theorem turned_value (h : Lasting orgId now point rule s) : ∃ incident ∈ (s.turned orgId now (point, rule)).incidents,
    incident.id = s.target (MetricRow.incidentKey point orgId rule) ∧ incident.triggerValue = some point.value := by
  unfold Lasting at h
  unfold Store.turned
  rw [h]
  exact settled_value _ (s.loaded orgId now (point, rule))

/-- The incident of a lasting breach is current exactly when the newest sample has the value of the batch. -/
theorem current_iff (h : Lasting orgId now point rule s) :
    Current orgId now point rule s (s.target (MetricRow.incidentKey point orgId rule)) ↔
      ∀ row, Newest s.entries (MetricRow.series point orgId) now row → row.value = point.value := by
  obtain ⟨incident, hmem, hid, hvalue⟩ := turned_value h
  obtain ⟨newest, hnewest, hholds⟩ := h.newest
  constructor
  · rintro ⟨s', hexec, shown, hshown, hid', row', hrow', hvalue', -⟩ row hrow
    rw [evaluateItem_exec] at hexec
    obtain rfl := (Prod.mk.inj (Option.some.inj hexec)).1
    have hsame : shown = incident := Table.eq_of_key hshown hmem (hid'.trans hid.symm)
    rw [hsame, hvalue] at hvalue'
    rw [hrow.eq hrow', Option.some.inj hvalue']
  · intro hsame
    refine ⟨_, evaluateItem_exec _, incident, hmem, hid, newest, hnewest, ?_, hholds⟩
    rw [hvalue, hsame newest hnewest]

end Value

/-- **The value shown.** Whatever is stored, received and when: after each turn the incident that it opens or updates shows
the newest stored value of the series, which satisfies the condition of the rule, exactly when every lasting breach is found
with that value in the batch. -/
theorem current_value_iff (s : Store) (orgId : Nat) (rows : List MetricRow) (now : Int) :
    (∀ point rule s', Turn s orgId rows now point rule s' → ∀ id, Writes orgId now point rule s' id →
      Current orgId now point rule s' id) ↔
    ∀ point rule s', Turn s orgId rows now point rule s' → Lasting orgId now point rule s' →
      ∀ row, Newest s'.entries (MetricRow.series point orgId) now row → row.value = point.value := by
  constructor
  · intro h point rule s' hturn hlasting
    exact (current_iff hlasting).mp (h point rule s' hturn _ (writes_iff.mpr ⟨hlasting, rfl⟩))
  · intro h point rule s' hturn id hwrites
    obtain ⟨hlasting, rfl⟩ := writes_iff.mp hwrites
    exact (current_iff hlasting).mpr (h point rule s' hturn hlasting)

/-! ## Batches that are behind -/

section Behind
variable {entries : MetricEntries} {series : SeriesKey} {now : Int} {point row : MetricRow}

/-- A stored batch with another value is behind. -/
theorem stale_behind (hstored : point ∈ entries.rows) (hseries : MetricRow.inSeries series point = true)
    (hle : point.time ≤ now) (hrow : Newest entries series now row) (hstale : row.value ≠ point.value) :
    point.time < row.time := by
  apply lt_of_le_of_ne (hrow.last point hstored hseries hle)
  intro htime
  have hsame : point = row :=
    List.inj_on_of_nodup_map entries.nodup hstored hrow.stored (id_eq_of_inSeries hseries hrow.inSeries htime)
  exact hstale (congrArg MetricRow.value hsame.symm)

end Behind

/-- A reading of an hour ago, from the buffer of the agent. -/
def backfilledRows : List MetricRow := [⟨1789996400000, 1, .host, 7, .diskUsedPercent, "/", 50⟩]

/-- It is stored beside the readings of the last five minutes. -/
def backfilledStore : Store :=
  { diskStore with entries := ⟨backfilledRows ++ diskStore.entries.rows, by decide⟩ }

/-- **An old value.** The disk is at 95 % and has been above 90 % for five minutes; the incident opens with 50 %. -/
theorem shows_backfilled : ∃ s', Turn backfilledStore 1 backfilledRows 1790000000000
      ⟨1789996400000, 1, .host, 7, .diskUsedPercent, "/", 50⟩ diskRule s' ∧
    Writes 1 1790000000000 ⟨1789996400000, 1, .host, 7, .diskUsedPercent, "/", 50⟩ diskRule s' 0 ∧
    ¬ Current 1 1790000000000 ⟨1789996400000, 1, .host, 7, .diskUsedPercent, "/", 50⟩ diskRule s' 0 := by
  have hlasting : Lasting 1 1790000000000 ⟨1789996400000, 1, .host, 7, .diskUsedPercent, "/", 50⟩ diskRule
      backfilledStore := by
    unfold Lasting
    decide +kernel
  refine ⟨backfilledStore, ⟨[], [], rfl, rfl⟩, writes_iff.mpr ⟨hlasting, rfl⟩, fun hcurrent => ?_⟩
  have hsame := (current_iff hlasting).mp hcurrent ⟨1790000000000, 1, .host, 7, .diskUsedPercent, "/", 95⟩
    ⟨by decide, by decide, by decide, by decide⟩
  exact absurd hsame (by decide)

end IkelyaneMonitor.Incidents
