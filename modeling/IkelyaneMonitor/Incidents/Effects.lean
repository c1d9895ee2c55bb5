import Mathlib
import IkelyaneMonitor.Incidents.Turns

/-!
# The store after an evaluation

* `Store.notified`, `Store.settled`, `Store.turned` : the store after a notification, after the incident is settled, after
  the turn of a point and a rule;
* `touched` : the incidents that statements open, or update with a value; `evaluateItem_leaves` : a turn leaves the store
  `turned` and touches the incident of a sustained breach;
* `evaluateAll_exec`, `turn_iff`, `evaluateIngestedMetrics_exec` : an evaluation is a fold of turns.
-/

namespace IkelyaneMonitor.Incidents
open Interleave Telemetry Aiops Alerts

/-- The store after `notify`. -/
def Store.notified (rule : AlertRule) (key : IncidentKey) (incidentId : Nat) (outcome : NotificationOutcome) (s : Store) :
    Store :=
  if rule.dispatched.isEmpty then s
  else
    Store.addEvent { s with dispatches := ⟨key.ruleId, key.sourceId, incidentId, outcome, s.clock⟩ :: s.dispatches }
      incidentId .notified none

@[simp] theorem incidents_notified (rule : AlertRule) (key : IncidentKey) (incidentId : Nat) (outcome : NotificationOutcome)
    (s : Store) : (s.notified rule key incidentId outcome).incidents = s.incidents := by
  unfold Store.notified
  split <;> rfl

section Settled
variable (orgId : Nat) (now : Int) (point : MetricRow) (rule : AlertRule) (baseline : Option Baseline)

/-- The incident that a sustained breach opens. -/
def newIncident (s : Store) : NewIncident :=
  ⟨MetricRow.incidentKey point orgId rule, rule.name, rule.severity, point.sourceKind,
    s.findLabel orgId point.sourceKind point.sourceId, point.value,
    (rule.verdict baseline point.value).map AnomalyVerdict.score, now⟩

/-- The incident with the values of a breach that goes on. -/
def refreshed (incident r : Incident) : Incident :=
  r.refresh point.value
    (worstFor (rule.condition baseline) (rule.verdict baseline point.value) (incident.peakValue.getD point.value) point.value)
    ((rule.verdict baseline point.value).map fun v => max (incident.anomalyScore.getD 0) v.score)

theorem id_refreshed (incident r : Incident) : (refreshed point rule baseline incident r).id = r.id := rfl

def Store.opened (s : Store) : Store :=
  Store.notified rule (MetricRow.incidentKey point orgId rule) s.incidents.next .opened
    ((s.openIncident (newIncident orgId now point rule baseline s)).addEvent s.incidents.next .opened none)

def Store.updated (incident : Incident) (s : Store) : Store :=
  s.write incident.id (refreshed point rule baseline incident) (id_refreshed point rule baseline incident)

def Store.closed (incident : Incident) (s : Store) : Store :=
  Store.notified rule (MetricRow.incidentKey point orgId rule) incident.id .resolved
    ((s.write incident.id (fun r => r.autoResolve now) fun r => r.id_autoResolve now).addEvent incident.id .resolved none)

/-- The store after `settleIncident`. -/
def Store.settled (sustained : Bool) (s : Store) : Store :=
  match sustained, s.findOpen (MetricRow.incidentKey point orgId rule) with
  | true, none => s.opened orgId now point rule baseline
  | true, some incident =>
    if shouldRenotify (s.lastNotified incident.id) rule.cooldownSec now then
      Store.notified rule (MetricRow.incidentKey point orgId rule) incident.id .stillOpen
        (s.updated point rule baseline incident)
    else s.updated point rule baseline incident
  | false, some incident => s.closed orgId now point rule incident
  | false, none => s

end Settled

/-- The baseline of the rule is loaded. -/
def Store.loaded (orgId : Nat) (now : Int) (item : MetricRow × AlertRule) (s : Store) : Store :=
  { s with cache := (ruleBaseline s.entries s.cache item.2 (MetricRow.series item.1 orgId) now).2 }

/-- The store after the turn of a point and a rule. -/
def Store.turned (orgId : Nat) (now : Int) (s : Store) (item : MetricRow × AlertRule) : Store :=
  let baseline := (ruleBaseline s.entries s.cache item.2 (MetricRow.series item.1 orgId) now).1
  match itemVerdict s.entries s.cache orgId now item with
  | none => s.loaded orgId now item
  | some sustained => (s.loaded orgId now item).settled orgId now item.1 item.2 baseline sustained

/-! ## The incidents that are touched -/

/-- The incident that the statement opens, or updates with a value. -/
def Stmt.touches (s : Store) : Stmt → Option Nat
  | .createIncident _ => some s.incidents.next
  | .updateIncident id _ _ _ => some id
  | _ => none

def touched (ws : List (Store × Stmt)) : List Nat := ws.filterMap fun x => x.2.touches x.1

/-- The incident of a sustained breach: the open one, or the next. -/
def Store.target (s : Store) (key : IncidentKey) : Nat := ((s.findOpen key).map Incident.id).getD s.incidents.next

def touchedBy (s : Store) (key : IncidentKey) (verdict : Option Bool) : List Nat :=
  if verdict = some true then [s.target key] else []

/-- Whatever comes next, the part `f` of a call leaves `s'` and touches these incidents. -/
def Leaves (f : Call → Call) (s s' : Store) (ids : List Nat) : Prop := ∃ ws, Through f s s' ws ∧ touched ws = ids

section Leaves
variable {f : Call → Call} {body : Store → Call → Call} {w : Stmt} {s s₁ s' : Store} {ids : List Nat}

theorem Leaves.none (hf : ∀ k, f k = k) (s : Store) : Leaves f s s [] := ⟨[], Through.none hf s, rfl⟩

/-- A statement that touches no incident. -/
theorem Leaves.stmt (hf : ∀ k, f k = .stmt w fun x => body x k) (h : sem () w s = some s₁) (hw : w.touches s = Option.none)
    (hbody : Leaves (body s) s₁ s' ids) : Leaves f s s' ids := by
  obtain ⟨ws, hthrough, htouched⟩ := hbody
  refine ⟨_, hthrough.stmt hf h, ?_⟩
  rw [← htouched]
  exact List.filterMap_cons_none (f := fun x : Store × Stmt => x.2.touches x.1) hw

theorem Leaves.touch {id : Nat} (hf : ∀ k, f k = .stmt w fun x => body x k) (h : sem () w s = some s₁)
    (hw : w.touches s = some id) (hbody : Leaves (body s) s₁ s' ids) : Leaves f s s' (id :: ids) := by
  obtain ⟨ws, hthrough, htouched⟩ := hbody
  refine ⟨_, hthrough.stmt hf h, ?_⟩
  rw [← htouched]
  exact List.filterMap_cons_some (f := fun x : Store × Stmt => x.2.touches x.1) hw

theorem notify_leaves (rule : AlertRule) (key : IncidentKey) (incidentId : Nat) (outcome : NotificationOutcome) (s : Store) :
    Leaves (notify rule key incidentId outcome) s (s.notified rule key incidentId outcome) [] := by
  unfold Store.notified
  by_cases hnone : rule.dispatched.isEmpty = true
  · rw [if_pos hnone]
    exact .none (fun _ => if_pos hnone) s
  · rw [if_neg hnone]
    refine .stmt (fun _ => if_neg hnone) rfl rfl ?_
    exact .stmt (fun _ => rfl) rfl rfl (.none (fun _ => rfl) _)

theorem settleIncident_leaves (orgId : Nat) (now : Int) (point : MetricRow) (rule : AlertRule) (baseline : Option Baseline)
    (sustained : Bool) (s : Store) :
    Leaves (settleIncident orgId now point rule baseline sustained) s (s.settled orgId now point rule baseline sustained)
      (touchedBy s (MetricRow.incidentKey point orgId rule) (some sustained)) := by
  refine .stmt (fun _ => rfl) rfl rfl ?_
  unfold Store.settled touchedBy Store.target
  cases s.findOpen (MetricRow.incidentKey point orgId rule) with
  | none =>
      cases sustained with
      | true =>
          refine .stmt (fun _ => rfl) rfl rfl ?_
          refine .touch (fun _ => rfl) rfl rfl ?_
          exact .stmt (fun _ => rfl) rfl rfl (notify_leaves rule _ _ _ _)
      | false => exact .none (fun _ => rfl) s
  | some incident =>
      cases sustained with
      | true =>
          refine .touch (fun _ => rfl) rfl rfl ?_
          refine .stmt (fun _ => rfl) rfl rfl ?_
          show Leaves (fun k => if shouldRenotify (s.lastNotified incident.id) rule.cooldownSec now then _ else _) _ _ _
          dsimp only
          split
          · exact notify_leaves rule _ _ _ _
          · exact .none (fun _ => rfl) _
      | false =>
          refine .stmt (fun _ => rfl) rfl rfl ?_
          exact .stmt (fun _ => rfl) rfl rfl (notify_leaves rule _ _ _ _)

theorem evaluateWith_leaves (orgId : Nat) (now : Int) (point : MetricRow) (rule : AlertRule) (baseline : Option Baseline)
    (s : Store) :
    Leaves (fun k => evaluateWith orgId now point rule k baseline) s
      (match verdictWith s.entries rule baseline (MetricRow.series point orgId) now with
        | none => s
        | some sustained => s.settled orgId now point rule baseline sustained)
      (touchedBy s (MetricRow.incidentKey point orgId rule)
        (verdictWith s.entries rule baseline (MetricRow.series point orgId) now)) := by
  unfold verdictWith
  by_cases hnone : ((rule.condition baseline).threshold.isNone && (rule.condition baseline).anomaly.isNone) = true
  · rw [if_pos hnone]
    exact .none (fun _ => if_pos hnone) s
  · rw [if_neg hnone]
    exact .stmt (fun _ => if_neg hnone) rfl rfl (settleIncident_leaves orgId now point rule baseline _ s)

/-- A turn leaves the store `turned` and touches the incident of a sustained breach. -/
theorem evaluateItem_leaves (orgId : Nat) (now : Int) (point : MetricRow) (rule : AlertRule) (s : Store) :
    Leaves (evaluateItem orgId now point rule) s (s.turned orgId now (point, rule))
      (touchedBy s (MetricRow.incidentKey point orgId rule) (itemVerdict s.entries s.cache orgId now (point, rule))) := by
  unfold Store.turned Store.loaded itemVerdict ruleBaseline
  by_cases hanomaly : rule.anomalyDetection = true
  · have hload : ∀ k, evaluateItem orgId now point rule k =
        loadBaseline (MetricRow.series point orgId) rule.durationSec now (evaluateWith orgId now point rule k) :=
      fun k => if_pos hanomaly
    dsimp only
    rw [if_pos hanomaly]
    refine .stmt hload rfl rfl ?_
    unfold loadedBaseline
    dsimp only
    cases s.cache.hit (cacheKey (MetricRow.series point orgId) rule.durationSec) now with
    | some baseline => exact evaluateWith_leaves orgId now point rule baseline s
    | none =>
        refine .stmt (fun _ => rfl) rfl rfl ?_
        refine .stmt (fun _ => rfl) rfl rfl ?_
        exact evaluateWith_leaves orgId now point rule _ _
  · have hplain : evaluateItem orgId now point rule = fun k => evaluateWith orgId now point rule k none :=
      funext fun k => if_neg hanomaly
    dsimp only
    rw [if_neg hanomaly, hplain]
    exact evaluateWith_leaves orgId now point rule none s

end Leaves

/-! ## Turn after turn -/

section Evaluation
variable {s s' : Store} {orgId : Nat} {rows : List MetricRow} {now : Int} {point : MetricRow} {rule : AlertRule}

theorem evaluateItem_exec (k : Call) :
    (evaluateItem orgId now point rule k).exec sem () s = k.exec sem () (s.turned orgId now (point, rule)) := by
  obtain ⟨ws, hthrough, -⟩ := evaluateItem_leaves orgId now point rule s
  exact (hthrough k).1

theorem touched_evaluateItem : touched ((evaluateItem orgId now point rule (.ret .evaluated)).stmts sem () s) =
    touchedBy s (MetricRow.incidentKey point orgId rule) (itemVerdict s.entries s.cache orgId now (point, rule)) := by
  obtain ⟨ws, hthrough, htouched⟩ := evaluateItem_leaves orgId now point rule s
  rw [(hthrough (.ret .evaluated)).2, Prog.stmts, List.append_nil]
  exact htouched

theorem evaluateAll_exec (items : List (MetricRow × AlertRule)) :
    (evaluateAll orgId now items).exec sem () s = some (items.foldl (Store.turned orgId now) s, .evaluated) := by
  induction items generalizing s with
  | nil => rfl
  | cons item items ih =>
      rw [evaluateAll, evaluateItem_exec, ih]
      rfl

theorem turn_iff : Turn s orgId rows now point rule s' ↔
    ∃ pre post, evaluatedItems s orgId rows = pre ++ (point, rule) :: post ∧ pre.foldl (Store.turned orgId now) s = s' := by
  unfold Turn
  simp only [evaluateAll_exec, Option.some.injEq, Prod.mk.injEq, and_true]

theorem evaluateIngestedMetrics_exec : (evaluateIngestedMetrics orgId rows now).exec sem () s =
    some ((evaluatedItems s orgId rows).foldl (Store.turned orgId now) s, .evaluated) := by
  unfold evaluateIngestedMetrics
  split
  · rename_i hnone
    rw [hnone]
    rfl
  · exact evaluateAll_exec _

end Evaluation

end IkelyaneMonitor.Incidents
