import IkelyaneMonitor.Aiops.Baseline

/-!
# Alert rules and their conditions (`modules/alerts/evaluate.ts`, `modules/alerts/notify.ts`)

* `AlertRule` : the rule; `AlertRule.watchesPoint` : the points it is evaluated on;
* `breaches`, `conditionHolds` : one value; `streakSince`, `isSustained` : the flap protection over a history;
* `worstFor` : the peak; `shouldRenotify`, `AlertRule.dispatched` : the notifications.
-/

namespace IkelyaneMonitor.Alerts
open Telemetry Aiops

inductive AlertOperator where
  | gt | gte | lt | lte | eq | neq
  deriving DecidableEq, Repr

inductive Severity where
  | info | warning | critical
  deriving DecidableEq, Repr

inductive NotificationChannel where
  | email | slack | teams | webhook | sms | push
  deriving DecidableEq, Repr

structure AlertRule where
  id : Nat
  orgId : Nat
  name : String
  enabled : Bool
  sourceKind : MetricSource
  /-- `none`: every source of the kind. -/
  sourceId : Option Nat
  metric : MetricType
  /-- `none`: every instance. -/
  instanceFilter : Option String
  operator : Option AlertOperator
  threshold : Option ℚ
  durationSec : Nat
  severity : Severity
  anomalyDetection : Bool
  anomalySensitivity : AnomalySensitivity
  channels : List NotificationChannel
  notifyEmails : List String
  slackWebhookUrl : Option String
  teamsWebhookUrl : Option String
  webhookUrl : Option String
  cooldownSec : Nat

def breaches (operator : AlertOperator) (value threshold : ℚ) : Bool :=
  match operator with
  | .gt => threshold < value
  | .gte => threshold ≤ value
  | .lt => value < threshold
  | .lte => value ≤ threshold
  | .eq => value = threshold
  | .neq => value ≠ threshold

/-- The time of the oldest point of the unbroken streak of values that ends with the newest, if that one holds. -/
def streakSince (holds : ℚ → Bool) : List MetricPoint → Option Int
  | [] => none
  | point :: points => if holds point.value then some ((streakSince holds points).getD point.time) else none

structure RuleCondition where
  threshold : Option (AlertOperator × ℚ)
  /-- The baseline, while there is one, and the sensitivity. -/
  anomaly : Option (Option Baseline × AnomalySensitivity)

/-- With both a threshold and anomaly detection both must hold; without a baseline an anomaly condition never does. -/
def conditionHolds (condition : RuleCondition) (value : ℚ) : Bool :=
  condition.threshold.all (fun t => breaches t.1 value t.2) &&
    condition.anomaly.all (fun a => a.1.any fun baseline => (assess value baseline a.2).anomalous) &&
    (condition.threshold.isSome || condition.anomaly.isSome)

/-- The breach has lasted `durationSec` at `now`. -/
def isSustained (since : Option Int) (durationSec : Nat) (now : Int) : Bool :=
  since.any fun since => (durationSec * 1000 : Int) ≤ now - since

def worstValue (operator : AlertOperator) (a b : ℚ) : ℚ :=
  match operator with
  | .gt | .gte => max a b
  | .lt | .lte => min a b
  | .eq | .neq => b

def worstFor (condition : RuleCondition) (verdict : Option AnomalyVerdict) (a b : ℚ) : ℚ :=
  match condition.threshold, verdict with
  | some t, _ => worstValue t.1 a b
  | none, some v => if 0 ≤ v.z then max a b else min a b
  | none, none => b

def historyLookbackPoints : Nat := 500

/-! ## Rules -/

namespace AlertRule

/-- The rules `evaluateIngestedMetrics` asks for. -/
def watches (orgId : Nat) (kinds : List MetricSource) (metrics : List MetricType) (rule : AlertRule) : Bool :=
  rule.orgId == orgId && rule.enabled && (rule.anomalyDetection || rule.operator.isSome && rule.threshold.isSome) &&
    kinds.contains rule.sourceKind && metrics.contains rule.metric

/-- The points a rule is evaluated on. -/
def watchesPoint (rule : AlertRule) (point : MetricRow) : Bool :=
  rule.sourceKind == point.sourceKind && rule.metric == point.metric && rule.sourceId.all (· == point.sourceId) &&
    rule.instanceFilter.all (· == point.instance)

def condition (rule : AlertRule) (baseline : Option Baseline) : RuleCondition where
  threshold := rule.operator.bind fun operator => rule.threshold.map fun value => (operator, value)
  anomaly := if rule.anomalyDetection then some (baseline, rule.anomalySensitivity) else none

/-- How unusual the newest value is, once there is a baseline. -/
def verdict (rule : AlertRule) (baseline : Option Baseline) (value : ℚ) : Option AnomalyVerdict :=
  if rule.anomalyDetection then baseline.map fun baseline => assess value baseline rule.anomalySensitivity else none

/-- The channels that have a target. -/
def dispatched (rule : AlertRule) : List NotificationChannel :=
  let url : Option String → Bool := fun url => url.any (· != "")
  (if rule.channels.contains .email && !rule.notifyEmails.isEmpty then [.email] else []) ++
    (if rule.channels.contains .slack && url rule.slackWebhookUrl then [.slack] else []) ++
    (if rule.channels.contains .teams && url rule.teamsWebhookUrl then [.teams] else []) ++
    (if rule.channels.contains .webhook && url rule.webhookUrl then [.webhook] else [])

end AlertRule

def shouldRenotify (lastNotifiedAt : Option Int) (cooldownSec : Nat) (now : Int) : Bool :=
  lastNotifiedAt.all fun lastNotifiedAt => (cooldownSec * 1000 : Int) ≤ now - lastNotifiedAt

/-! ## The points of a batch -/

def MetricRow.series (row : MetricRow) (orgId : Nat) : SeriesKey :=
  ⟨orgId, row.sourceKind, row.sourceId, row.metric, row.instance⟩

/-- The same entry of the map `latest`. -/
def sameSeries (a b : MetricRow) : Bool :=
  a.sourceKind == b.sourceKind && a.sourceId == b.sourceId && a.metric == b.metric && a.instance == b.instance

/-- A newer row of a series takes the place of the one before it. -/
def addLatest (latest : List MetricRow) (row : MetricRow) : List MetricRow :=
  if latest.any (sameSeries row) then
    latest.map fun current => if sameSeries row current && current.time < row.time then row else current
  else latest ++ [row]

def latestPoints (rows : List MetricRow) : List MetricRow := rows.foldl addLatest []

end IkelyaneMonitor.Alerts
