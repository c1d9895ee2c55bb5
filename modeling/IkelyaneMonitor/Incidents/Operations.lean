import IkelyaneMonitor.Auth.Permissions
import IkelyaneMonitor.Incidents.Tables

/-!
# The evaluator and the incident operations (`modules/alerts/evaluate.ts`, `modules/incidents/service.ts`)

* `evaluateIngestedMetrics` : the loop over the points of a batch and the rules that watch them, with `evaluateItem`
  and `settleIncident` its body;
* `acknowledgeIncident`, `resolveIncident`, `reopenIncident` : what people do; `Op` : the calls.

The root-cause analysis and the remediation that follow an opening run after it and touch no column modelled here.
-/

namespace IkelyaneMonitor.Incidents
open Interleave Telemetry Aiops Alerts Auth

inductive IncidentWriteError where
  | forbidden | notFound | invalidStatus
  deriving DecidableEq, Repr

inductive Outcome where
  | evaluated
  | written (result : Except IncidentWriteError Unit)
  | ticked

abbrev Call := Prog Stmt Store Outcome

/-! ## The evaluator -/

/-- `loadBaseline`, going on with `k`. -/
def loadBaseline (series : SeriesKey) (durationSec : Nat) (now : Int) (k : Option Baseline → Call) : Call :=
  let key := cacheKey series durationSec
  .stmt (.readCache key now) fun s =>
    match s.cache.hit key now with
    | some baseline => k baseline
    | none =>
      let ranges := baselineRanges now durationSec
      .stmt (.findSample series ranges) fun s =>
        let baseline := computeBaseline (sample s.entries series ranges)
        .stmt (.storeBaseline key now baseline) fun _ => k baseline

/-- `notify`: nothing is sent, nor recorded, when no channel of the rule has a target. -/
def notify (rule : AlertRule) (key : IncidentKey) (incidentId : Nat) (outcome : NotificationOutcome) (k : Call) : Call :=
  if rule.dispatched.isEmpty then k
  else .stmt (.dispatch key incidentId outcome) fun _ => .stmt (.createEvent incidentId .notified) fun _ => k

def MetricRow.incidentKey (point : MetricRow) (orgId : Nat) (rule : AlertRule) : IncidentKey :=
  ⟨orgId, rule.id, point.sourceId, point.metric⟩

/-- What happens to the incident of the rule on the source, once it is known whether the breach is sustained. -/
def settleIncident (orgId : Nat) (now : Int) (point : MetricRow) (rule : AlertRule) (baseline : Option Baseline)
    (sustained : Bool) (k : Call) : Call :=
  let key := MetricRow.incidentKey point orgId rule
  let verdict := rule.verdict baseline point.value
  .stmt (.findOpen key) fun s =>
    match sustained, s.findOpen key with
    | true, none =>
      .stmt (.findLabel key point.sourceKind) fun s =>
        .stmt (.createIncident ⟨key, rule.name, rule.severity, point.sourceKind,
            s.findLabel orgId point.sourceKind point.sourceId, point.value, verdict.map AnomalyVerdict.score, now⟩) fun s =>
          let incidentId := s.incidents.next
          .stmt (.createEvent incidentId .opened) fun _ => notify rule key incidentId .opened k
    | true, some incident =>
      .stmt (.updateIncident incident.id point.value
          (worstFor (rule.condition baseline) verdict (incident.peakValue.getD point.value) point.value)
          (verdict.map fun v => max (incident.anomalyScore.getD 0) v.score)) fun _ =>
        .stmt (.findLastNotified incident.id) fun s =>
          if shouldRenotify (s.lastNotified incident.id) rule.cooldownSec now then
            notify rule key incident.id .stillOpen k
          else k
    | false, some incident =>
      .stmt (.autoResolve incident.id now) fun _ =>
        .stmt (.createEvent incident.id .resolved) fun _ => notify rule key incident.id .resolved k
    | false, none => k

/-- Whether a point of a series is in a sustained breach of a rule, from the points before it. -/
def sustainedBreach (rule : AlertRule) (baseline : Option Baseline) (history : List MetricPoint) (now : Int) : Bool :=
  isSustained (streakSince (conditionHolds (rule.condition baseline)) history) rule.durationSec now

/-- A rule without a condition is skipped; otherwise the points of the series decide. -/
def evaluateWith (orgId : Nat) (now : Int) (point : MetricRow) (rule : AlertRule) (k : Call) (baseline : Option Baseline) :
    Call :=
  if (rule.condition baseline).threshold.isNone && (rule.condition baseline).anomaly.isNone then k
  else
    let series := MetricRow.series point orgId
    .stmt (.findHistory series now) fun s =>
      let history := (s.entries.history series now).take historyLookbackPoints
      settleIncident orgId now point rule baseline (sustainedBreach rule baseline history now) k

/-- The body of the loop. -/
def evaluateItem (orgId : Nat) (now : Int) (point : MetricRow) (rule : AlertRule) (k : Call) : Call :=
  if rule.anomalyDetection then
    loadBaseline (MetricRow.series point orgId) rule.durationSec now (evaluateWith orgId now point rule k)
  else evaluateWith orgId now point rule k none

/-- The points of a batch, each with the rules that watch it, in the order they are evaluated. -/
def workItems (points : List MetricRow) (rules : List AlertRule) : List (MetricRow × AlertRule) :=
  points.flatMap fun point => (rules.filter fun rule => rule.watchesPoint point).map fun rule => (point, rule)

def evaluateAll (orgId : Nat) (now : Int) : List (MetricRow × AlertRule) → Call
  | [] => .ret .evaluated
  | item :: items => evaluateItem orgId now item.1 item.2 (evaluateAll orgId now items)

def evaluateIngestedMetrics (orgId : Nat) (rows : List MetricRow) (now : Int) : Call :=
  if rows = [] then .ret .evaluated
  else
    let points := latestPoints rows
    let kinds := points.map MetricRow.sourceKind
    let metrics := points.map MetricRow.metric
    .stmt (.findRules orgId kinds metrics) fun s =>
      evaluateAll orgId now (workItems points (s.findRules orgId kinds metrics))

/-! ## What people do -/

/-- The common shape of the three operations: the incident is read, its status checked, and the row written. -/
def writeIncident (actor : Actor) (id : Nat) (allowed : IncidentStatus → Bool) (write : Int → Stmt) : Call :=
  if !can actor.role .incidentsAcknowledge then .ret (.written (.error .forbidden))
  else
    .stmt (.ownedIncident id actor.orgId) fun s =>
      match s.ownedIncident id actor.orgId with
      | none => .ret (.written (.error .notFound))
      | some incident =>
        if !allowed incident.status then .ret (.written (.error .invalidStatus))
        else .stmt (write s.clock) fun _ => .ret (.written (.ok ()))

def acknowledgeIncident (actor : Actor) (id : Nat) : Call :=
  writeIncident actor id (fun status => status == .open) fun now => .acknowledge id actor.userId now

def resolveIncident (actor : Actor) (id : Nat) (note : Option String) : Call :=
  writeIncident actor id (fun status => status != .resolved) fun now => .resolve id actor.userId note now

def reopenIncident (actor : Actor) (id : Nat) : Call :=
  writeIncident actor id (fun status => status == .resolved) fun _ => .reopen id actor.userId

inductive Op where
  | evaluateIngestedMetrics (orgId : Nat) (rows : List MetricRow) (now : Int)
  | acknowledgeIncident (actor : Actor) (id : Nat)
  | resolveIncident (actor : Actor) (id : Nat) (note : Option String)
  | reopenIncident (actor : Actor) (id : Nat)
  /-- Time goes by. -/
  | tick (ms : Nat)

def Op.call : Op → Call
  | .evaluateIngestedMetrics orgId rows now => Incidents.evaluateIngestedMetrics orgId rows now
  | .acknowledgeIncident actor id => Incidents.acknowledgeIncident actor id
  | .resolveIncident actor id note => Incidents.resolveIncident actor id note
  | .reopenIncident actor id => Incidents.reopenIncident actor id
  | .tick ms => .stmt (.tick ms) fun _ => .ret .ticked

/-- Calls over a store, none of them started. -/
def start {ι : Type} (ops : ι → Op) (s : Store) : Conf ι Stmt Store Outcome where
  store := s
  calls := fun i => (ops i).call

end IkelyaneMonitor.Incidents
