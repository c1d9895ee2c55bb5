import IkelyaneMonitor.Notify.Http
import IkelyaneMonitor.Replay.Upsert
import IkelyaneMonitor.Tenancy.Calls

/-!
# Alert rules (`modules/alerts/rules.ts`, `modules/alerts/resolve-source.ts`)

* `conditionError`, `webhookError`, `sourceExists`, `remediationInOrg` : the checks of a rule that is saved;
* `createAlertRule`, `updateAlertRule`, `setAlertRuleEnabled`, `deleteAlertRule`, `listAlertRules` : the functions of the
  module;
* one lemma for each: it stays within the organization of its requester.

A threshold is a rational, so it is finite.
-/

namespace IkelyaneMonitor.Tenancy
open Interleave Relational
open Aiops (AnomalySensitivity)
open Alerts (AlertOperator NotificationChannel Severity)
open Auth (can)
open Notify (webhookUrlAllowed)
open Remediation (JsonValue)
open Telemetry (MetricSource MetricType)

structure AlertRuleInput where
  name : String
  description : Option String
  sourceKind : MetricSource
  sourceId : Option Nat
  metric : MetricType
  instanceFilter : Option String
  operator : Option AlertOperator
  threshold : Option ℚ
  anomalyDetection : Bool
  anomalySensitivity : AnomalySensitivity
  durationSec : Nat
  severity : Severity
  channels : List NotificationChannel
  notifyEmails : List String
  slackWebhookUrl : Option String
  teamsWebhookUrl : Option String
  webhookUrl : Option String
  cooldownSec : Nat
  remediationActionId : Option Nat
  autoRemediate : Bool

inductive AlertRuleWriteError where
  | forbidden | invalidSource | notFound | conditionRequired | invalidRemediation | invalidWebhook
  deriving DecidableEq, Repr

structure AlertRuleRow where
  rule : AlertRule
  sourceLabel : Option String

/-- The rows of `resolveSourceLabels`, with their labels. -/
def sourceLabels (s : Db) (orgId : Nat) (kind : MetricSource) (wanted : List Nat) : List (Nat × String) :=
  match kind with
  | .host =>
    (monitoredHost.findMany s fun r => r.orgId == orgId && wanted.contains r.id).map fun r =>
      (r.id, r.displayName.getD r.hostname)
  | .networkDevice | .networkInterface =>
    (networkDevice.findMany s fun r => r.orgId == orgId && wanted.contains r.id).map fun r => (r.id, r.name)
  | .database =>
    (databaseInstance.findMany s fun r => r.orgId == orgId && wanted.contains r.id).map fun r => (r.id, r.name)
  | .endpoint =>
    (endpointCheck.findMany s fun r => r.orgId == orgId && wanted.contains r.id).map fun r => (r.id, r.name)

def resolveSourceLabels {α : Type} (orgId : Nat) (kind : MetricSource) (ids : List Nat)
    (k : List (Nat × String) → DbCall α) : DbCall α :=
  match ids.eraseDups with
  | [] => k []
  | wanted => read (fun s => sourceLabels s orgId kind wanted) k

def sourceExists {α : Type} (orgId : Nat) (kind : MetricSource) (sourceId : Nat) (k : Bool → DbCall α) : DbCall α :=
  resolveSourceLabels orgId kind [sourceId] fun labels => k (labels.any fun label => label.1 == sourceId)

/-- A query for each kind, in turn. -/
def resolveLabelsByKind {α : Type} (orgId : Nat) :
    List (MetricSource × List Nat) → (List (MetricSource × List (Nat × String)) → DbCall α) → DbCall α
  | [], k => k []
  | (kind, ids) :: rest, k =>
    resolveSourceLabels orgId kind ids fun labels => resolveLabelsByKind orgId rest fun more => k ((kind, labels) :: more)

def remediationInOrg {α : Type} (orgId : Nat) (id : Option Nat) (k : Bool → DbCall α) : DbCall α :=
  match id with
  | none => k true
  | some id => read (fun s => (remediationAction.findFirst s fun r => r.id == id && r.orgId == orgId).isSome) k

section Functions
variable {URL : Type} (platform : Platform URL)

def webhookError (input : AlertRuleInput) (allowPrivateTargets : Bool) : Option AlertRuleWriteError :=
  let urls := [input.slackWebhookUrl, input.teamsWebhookUrl, input.webhookUrl].filterMap id
  if urls.all fun url => webhookUrlAllowed platform.web url allowPrivateTargets then none else some .invalidWebhook

def conditionError (input : AlertRuleInput) : Option AlertRuleWriteError :=
  let hasThreshold := input.operator.isSome && input.threshold.isSome
  let halfThreshold := input.operator.isNone != input.threshold.isNone
  if halfThreshold || (!hasThreshold && !input.anomalyDetection) then some .conditionRequired else none

/-- `data: input`. -/
def AlertRuleInput.edit (input : AlertRuleInput) (rule : AlertRule) : AlertRule :=
  { rule with
    name := input.name
    description := input.description
    sourceKind := input.sourceKind
    sourceId := input.sourceId
    metric := input.metric
    instanceFilter := input.instanceFilter
    operator := input.operator
    threshold := input.threshold
    anomalyDetection := input.anomalyDetection
    anomalySensitivity := input.anomalySensitivity
    durationSec := input.durationSec
    severity := input.severity
    channels := input.channels
    notifyEmails := input.notifyEmails
    slackWebhookUrl := input.slackWebhookUrl
    teamsWebhookUrl := input.teamsWebhookUrl
    webhookUrl := input.webhookUrl
    cooldownSec := input.cooldownSec
    remediationActionId := input.remediationActionId
    autoRemediate := input.autoRemediate }

/-- `data: { orgId, ...input }`. -/
def AlertRuleInput.row (input : AlertRuleInput) (orgId : Nat) (draws : Draws) : AlertRule where
  id := draws.id
  orgId := orgId
  name := input.name
  enabled := true
  sourceKind := input.sourceKind
  sourceId := input.sourceId
  metric := input.metric
  instanceFilter := input.instanceFilter
  operator := input.operator
  threshold := input.threshold
  durationSec := input.durationSec
  severity := input.severity
  anomalyDetection := input.anomalyDetection
  anomalySensitivity := input.anomalySensitivity
  channels := input.channels
  notifyEmails := input.notifyEmails
  slackWebhookUrl := input.slackWebhookUrl
  teamsWebhookUrl := input.teamsWebhookUrl
  webhookUrl := input.webhookUrl
  cooldownSec := input.cooldownSec
  description := input.description
  remediationActionId := input.remediationActionId
  autoRemediate := input.autoRemediate
  createdAt := draws.now

/-- The enumeration's text on the metadata of an entry is a parameter. -/
def ruleMetadata (metricText : MetricType → String) (input : AlertRuleInput) : Option JsonValue :=
  some (.obj [("name", .str input.name), ("metric", .str (metricText input.metric))])

/-- The checks that the two functions share, then how they differ. -/
def saveRule {α : Type} (actor : Requester) (input : AlertRuleInput) (allowPrivateTargets : Bool)
    (save : DbCall (Outcome AlertRuleWriteError α)) : DbCall (Outcome AlertRuleWriteError α) :=
  if !can actor.role .alertsWrite then .ret (.fail .forbidden)
  else
    match conditionError input <|> webhookError platform input allowPrivateTargets with
    | some invalid => .ret (.fail invalid)
    | none =>
      let checkRemediation : DbCall (Outcome AlertRuleWriteError α) :=
        remediationInOrg actor.orgId input.remediationActionId fun found =>
          if !found then .ret (.fail .invalidRemediation) else save
      match input.sourceId with
      | none => checkRemediation
      | some sourceId =>
        sourceExists actor.orgId input.sourceKind sourceId fun found =>
          if !found then .ret (.fail .invalidSource) else checkRemediation

def createAlertRule (metricText : MetricType → String) (actor : Requester) (draws : Draws) (input : AlertRuleInput)
    (allowPrivateTargets : Bool) : DbCall (Outcome AlertRuleWriteError Nat) :=
  saveRule platform actor input allowPrivateTargets
    (audited (alertRule.create (input.row actor.orgId draws))
      (recordAudit actor draws ⟨.rule, .created⟩ draws.id (ruleMetadata metricText input)) fun _ => .ok draws.id)

def updateAlertRule (metricText : MetricType → String) (actor : Requester) (draws : Draws) (id : Nat) (input : AlertRuleInput)
    (allowPrivateTargets : Bool) : DbCall (Outcome AlertRuleWriteError Unit) :=
  saveRule platform actor input allowPrivateTargets
    (audited (alertRule.updateMany id (fun r => r.orgId == actor.orgId) input.edit)
      (recordAudit actor draws ⟨.rule, .updated⟩ id (ruleMetadata metricText input)) (counted .notFound))

def setAlertRuleEnabled (actor : Requester) (draws : Draws) (id : Nat) (enabled : Bool) :
    DbCall (Outcome AlertRuleWriteError Unit) :=
  if !can actor.role .alertsWrite then .ret (.fail .forbidden)
  else
    audited (alertRule.updateMany id (fun r => r.orgId == actor.orgId) fun r => { r with enabled := enabled })
      (recordAudit actor draws ⟨.rule, if enabled then .enabled else .disabled⟩ id none) (counted .notFound)

def deleteAlertRule (actor : Requester) (draws : Draws) (id : Nat) : DbCall (Outcome AlertRuleWriteError Unit) :=
  if !can actor.role .alertsWrite then .ret (.fail .forbidden)
  else
    audited (alertRule.deleteMany id fun r => r.orgId == actor.orgId)
      (recordAudit actor draws ⟨.rule, .deleted⟩ id none) (counted .notFound)

def listAlertRules (actor : Requester) : DbCall (Outcome ReadError (List AlertRuleRow)) :=
  if !can actor.role .alertsRead then .ret (.fail .forbidden)
  else
    read (fun s => orderBy platform.collate (fun r => r.name) (alertRule.findMany s fun r => r.orgId == actor.orgId))
      fun rows =>
      let idsByKind := Replay.groupBy (fun p : MetricSource × Nat => p.1) (fun p => p.2)
        (rows.filterMap fun r => r.sourceId.map fun id => (r.sourceKind, id))
      resolveLabelsByKind actor.orgId idsByKind fun labels =>
        .ret (.ok (rows.map fun r =>
          ⟨r, r.sourceId.bind fun id => (labels.lookup r.sourceKind).bind fun byId => byId.lookup id⟩))

/-! ## Within the organization -/

variable {α : Type} {d : Nat} {P : Db → Prop}

/-- The labels of one table. -/
theorem labels_alike {τ : Type} (m : Model τ) {s t : Db} {p : τ → Bool} {label : τ → Nat × String}
    (halike : Alike schema AuditLog.orgId d s t) (hp : ∀ x, p x = true → m.orgId x = d) :
    (m.findMany t p).map label = (m.findMany s p).map label := by
  rw [m.findMany_alike halike hp]

theorem sourceLabels_alike {s t : Db} (halike : Alike schema AuditLog.orgId d s t) (kind : MetricSource) (wanted : List Nat) :
    sourceLabels t d kind wanted = sourceLabels s d kind wanted := by
  cases kind with
  | host => exact labels_alike monitoredHost halike fun x hx => by simp_all [monitoredHost]
  | networkDevice => exact labels_alike networkDevice halike fun x hx => by simp_all [networkDevice]
  | networkInterface => exact labels_alike networkDevice halike fun x hx => by simp_all [networkDevice]
  | database => exact labels_alike databaseInstance halike fun x hx => by simp_all [databaseInstance]
  | endpoint => exact labels_alike endpointCheck halike fun x hx => by simp_all [endpointCheck]

/-- A label of one table tells that its row is of the organization. -/
theorem labels_knows {τ : Type} (m : Model τ) {s : Db} {p : τ → Bool} {label : τ → Nat × String} {id : Nat}
    (hs : schema.Sound s.rows s.drawn) (hp : ∀ x, p x = true → m.orgId x = d) (hid : ∀ x, (label x).1 = m.id x)
    (h : (((m.findMany s p).map label).any fun l => l.1 == id) = true) : Knows d [(m.kind, id)] s := by
  simp only [List.any_map, List.any_eq_true, Function.comp, beq_iff_eq] at h
  obtain ⟨x, hx, hxid⟩ := h
  obtain ⟨hmem, hpx⟩ := List.mem_filter.mp hx
  have hknown := Known.of_mem hs (m.mem_all.mp hmem)
  intro k hk
  rw [List.mem_singleton.mp hk]
  rwa [show schema.owner (m.row x) = d from (m.orgId_row x).trans (hp x hpx),
    show schema.key (m.row x) = (m.kind, id) from (m.key_row x).trans (by rw [← hid x, hxid])] at hknown

theorem Confined.sourceExists {kind : MetricSource} {sourceId : Nat} {k : Bool → DbCall α} (hP : Steady P)
    (hk : ∀ b, Confined d (fun s => P s ∧ (b = true → Knows d [(sourceTable kind, sourceId)] s)) (k b)) :
    Confined d P (Tenancy.sourceExists d kind sourceId k) := by
  have hwanted : [sourceId].eraseDups = [sourceId] := by simp [List.eraseDups_cons]
  unfold Tenancy.sourceExists resolveSourceLabels
  rw [hwanted]
  refine .read (Q := fun labels s => P s ∧ ((labels.any fun label => label.1 == sourceId) = true →
      Knows d [(sourceTable kind, sourceId)] s)) (fun s t _ _ _ _ halike => sourceLabels_alike halike _ _)
    (fun s hs hPs => ⟨hPs, fun h => ?_⟩) (fun _ => hP.and (Steady.knows d _).imp) fun labels => hk _
  cases kind with
  | host => exact labels_knows monitoredHost hs (fun x hx => by simp_all [monitoredHost]) (fun _ => rfl) h
  | networkDevice => exact labels_knows networkDevice hs (fun x hx => by simp_all [networkDevice]) (fun _ => rfl) h
  | networkInterface => exact labels_knows networkDevice hs (fun x hx => by simp_all [networkDevice]) (fun _ => rfl) h
  | database => exact labels_knows databaseInstance hs (fun x hx => by simp_all [databaseInstance]) (fun _ => rfl) h
  | endpoint => exact labels_knows endpointCheck hs (fun x hx => by simp_all [endpointCheck]) (fun _ => rfl) h

theorem Confined.remediationInOrg {id : Option Nat} {k : Bool → DbCall α} (hP : Steady P)
    (hk : ∀ b, Confined d (fun s => P s ∧ (b = true → Knows d (refTo .action id) s)) (k b)) :
    Confined d P (Tenancy.remediationInOrg d id k) := by
  cases id with
  | none => exact (hk true).mono fun s hs => ⟨hs, fun _ k hk => by cases hk⟩
  | some id => exact .exists remediationAction hP (fun x hx => by simpa [remediationAction] using hx) hk

theorem Confined.resolveLabelsByKind (groups : List (MetricSource × List Nat))
    {k : List (MetricSource × List (Nat × String)) → DbCall α} (hk : ∀ labels, Confined d (fun _ => True) (k labels)) :
    Confined d (fun _ => True) (Tenancy.resolveLabelsByKind d groups k) := by
  induction groups generalizing k with
  | nil => exact hk []
  | cons group groups ih =>
      obtain ⟨kind, ids⟩ := group
      unfold Tenancy.resolveLabelsByKind resolveSourceLabels
      split
      · exact ih fun more => hk _
      · exact .look Steady.true (fun s t halike => sourceLabels_alike halike _ _) fun labels => ih fun more => hk _

variable (actor : Requester) (draws : Draws) (metricText : MetricType → String)

theorem saveRule_confined {input : AlertRuleInput} {allowPrivateTargets : Bool}
    {save : DbCall (Outcome AlertRuleWriteError α)}
    (hsave : Confined actor.orgId (fun s => Knows actor.orgId (refTo (sourceTable input.sourceKind) input.sourceId) s ∧
      Knows actor.orgId (refTo .action input.remediationActionId) s) save) :
    Confined actor.orgId (fun _ => True) (saveRule platform actor input allowPrivateTargets save) := by
  have hremediation : Confined actor.orgId (Knows actor.orgId (refTo (sourceTable input.sourceKind) input.sourceId))
      (remediationInOrg actor.orgId input.remediationActionId fun found =>
        if !found then .ret (.fail .invalidRemediation) else save) :=
    .remediationInOrg (Steady.knows _ _) fun found => .ite (fun _ => .ret _) fun hfound =>
      hsave.mono fun s hs => ⟨hs.1, hs.2 (by simpa using hfound)⟩
  refine .ite (fun _ => .ret _) fun _ => ?_
  split
  · exact .ret _
  · split
    · rename_i hnone
      exact hremediation.mono fun s _ k hk => by simp [hnone, refTo] at hk
    · rename_i sourceId hsome
      refine .sourceExists Steady.true fun found => .ite (fun _ => .ret _) fun hfound => hremediation.mono fun s hs => ?_
      rw [hsome]
      exact hs.2 (by simpa using hfound)

theorem createAlertRule_confined (input : AlertRuleInput) (allowPrivateTargets : Bool) :
    Confined actor.orgId (fun _ => True) (createAlertRule platform metricText actor draws input allowPrivateTargets) :=
  saveRule_confined platform actor (.audited (fun _ _ hs => alertRule.within_create rfl hs.2 hs.1) rfl)

theorem updateAlertRule_confined (id : Nat) (input : AlertRuleInput) (allowPrivateTargets : Bool) :
    Confined actor.orgId (fun _ => True) (updateAlertRule platform metricText actor draws id input allowPrivateTargets) :=
  saveRule_confined platform actor (.audited (fun _ _ hs => alertRule.within_update (fun _ _ _ hx => eq_of_beq hx)
    (fun _ => rfl) (fun _ => rfl) (fun _ k hk => .inr (hs.2 k hk)) fun _ k hk => .inr (hs.1 k hk)) rfl)

theorem setAlertRuleEnabled_confined (id : Nat) (enabled : Bool) :
    Confined actor.orgId (fun _ => True) (setAlertRuleEnabled actor draws id enabled) :=
  .ite (fun _ => .ret _) fun _ => .audited (fun _ _ _ => alertRule.within_edit (fun _ hx => eq_of_beq hx)
    (fun _ => rfl) (fun _ => rfl) (fun _ => rfl) fun _ => rfl) rfl

theorem deleteAlertRule_confined (id : Nat) : Confined actor.orgId (fun _ => True) (deleteAlertRule actor draws id) :=
  .ite (fun _ => .ret _) fun _ => .audited (fun _ _ _ => alertRule.within_delete fun _ hx => eq_of_beq hx) rfl

theorem listAlertRules_confined : Confined actor.orgId (fun _ => True) (listAlertRules platform actor) := by
  refine .ite (fun _ => .ret _) fun _ => .look Steady.true (fun s t halike => ?_) fun rows =>
    .resolveLabelsByKind _ fun labels => .ret _
  rw [alertRule.findMany_alike halike fun x hx => by simpa [alertRule] using hx]

end Functions

end IkelyaneMonitor.Tenancy
