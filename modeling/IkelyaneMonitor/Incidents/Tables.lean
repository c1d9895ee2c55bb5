import IkelyaneMonitor.Interleave.Table
import IkelyaneMonitor.Interleave.Prog
import IkelyaneMonitor.Alerts.Rules

/-!
# Incidents: tables and statements (`model Incident`, `model IncidentEvent`)

* `Incident`, `IncidentEvent`, `Store` : the rows the evaluator and the people work on, with the evaluator's process cache;
* `Stmt`, `sem` : the statements of `evaluateIngestedMetrics` and of the incident operations. The transactions of the
  latter read one row, write it and add to its timeline: they take effect with that write.

`hasOpen` : some incident of a key is unresolved, before and after a write (`hasOpen_write`, `hasOpen_openIncident_self`,
`hasOpen_openIncident_other`).

The texts and the JSON of the timeline and the columns of the root-cause analysis are left out: nothing here reads them.
-/

namespace IkelyaneMonitor.Incidents
open Interleave Telemetry Aiops Alerts

inductive IncidentStatus where
  | «open» | acknowledged | resolved
  deriving DecidableEq, Repr

structure Incident where
  id : Nat
  orgId : Nat
  ruleId : Option Nat
  title : String
  severity : Severity
  status : IncidentStatus
  sourceKind : Option MetricSource
  sourceId : Option Nat
  sourceLabel : Option String
  metric : Option MetricType
  triggerValue : Option ℚ
  peakValue : Option ℚ
  anomalyScore : Option ℚ
  startedAt : Int
  acknowledgedAt : Option Int
  acknowledgedBy : Option Nat
  resolvedAt : Option Int
  resolvedBy : Option Nat
  resolutionNote : Option String

inductive IncidentEventType where
  | opened | acknowledged | notified | resolved | reopened
  deriving DecidableEq, Repr

structure IncidentEvent where
  id : Nat
  incidentId : Nat
  type : IncidentEventType
  actorId : Option Nat
  createdAt : Int

/-- A monitored source, with the name people gave it. -/
structure Source where
  id : Nat
  orgId : Nat
  kind : MetricSource
  label : String

inductive NotificationOutcome where
  | opened | stillOpen | resolved
  deriving DecidableEq, Repr

/-- A notification handed to the channels of a rule. -/
structure Dispatch where
  ruleId : Nat
  sourceId : Nat
  incidentId : Nat
  outcome : NotificationOutcome
  sentAt : Int
  deriving DecidableEq, Repr

instance : Keyed AlertRule := ⟨AlertRule.id⟩
instance : Keyed Incident := ⟨Incident.id⟩
instance : Keyed IncidentEvent := ⟨IncidentEvent.id⟩
instance : Keyed Source := ⟨Source.id⟩

structure Store where
  clock : Int
  rules : Table AlertRule
  entries : MetricEntries
  sources : Table Source
  incidents : Table Incident
  events : Table IncidentEvent
  cache : Cache
  /-- The notifications sent so far: a record of the run that no function reads. -/
  dispatches : List Dispatch

/-- What the evaluator looks an open incident up by. -/
structure IncidentKey where
  orgId : Nat
  ruleId : Nat
  sourceId : Nat
  metric : MetricType
  deriving DecidableEq, Repr

/-- What the evaluator opens an incident with. -/
structure NewIncident where
  key : IncidentKey
  title : String
  severity : Severity
  sourceKind : MetricSource
  sourceLabel : Option String
  value : ℚ
  anomalyScore : Option ℚ
  now : Int

inductive Stmt where
  | tick (ms : Nat)
  | findRules (orgId : Nat) (kinds : List MetricSource) (metrics : List MetricType)
  /-- No statement: the cache is looked up. -/
  | readCache (key : CacheKey) (now : Int)
  | findSample (series : SeriesKey) (ranges : List TimeRange)
  /-- No statement: the cache is filled. -/
  | storeBaseline (key : CacheKey) (now : Int) (baseline : Option Baseline)
  | findHistory (series : SeriesKey) (now : Int)
  | findOpen (key : IncidentKey)
  | findLabel (key : IncidentKey) (kind : MetricSource)
  | createIncident (d : NewIncident)
  | createEvent (incidentId : Nat) (type : IncidentEventType)
  | updateIncident (id : Nat) (triggerValue peakValue : ℚ) (anomalyScore : Option ℚ)
  | findLastNotified (incidentId : Nat)
  /-- No statement: a notification goes out. -/
  | dispatch (key : IncidentKey) (incidentId : Nat) (outcome : NotificationOutcome)
  | autoResolve (id : Nat) (now : Int)
  | ownedIncident (id orgId : Nat)
  | acknowledge (id userId : Nat) (now : Int)
  | resolve (id userId : Nat) (note : Option String) (now : Int)
  | reopen (id userId : Nat)

/-! ## The rows the statements write -/

/-- `AUTO_RESOLUTION_NOTE`. -/
def autoResolutionNote : String := "auto"

def NewIncident.row (d : NewIncident) (id : Nat) : Incident where
  id := id
  orgId := d.key.orgId
  ruleId := some d.key.ruleId
  title := d.title
  severity := d.severity
  status := .open
  sourceKind := some d.sourceKind
  sourceId := some d.key.sourceId
  sourceLabel := d.sourceLabel
  metric := some d.key.metric
  triggerValue := some d.value
  peakValue := some d.value
  anomalyScore := d.anomalyScore
  startedAt := d.now
  acknowledgedAt := none
  acknowledgedBy := none
  resolvedAt := none
  resolvedBy := none
  resolutionNote := none

namespace Incident

def unresolved (incident : Incident) : Bool := incident.status != .resolved

def hasKey (incident : Incident) (key : IncidentKey) : Bool :=
  incident.orgId == key.orgId && incident.ruleId == some key.ruleId && incident.sourceId == some key.sourceId &&
    incident.metric == some key.metric

/-- The evaluator's update; without a verdict the score stays. -/
def refresh (incident : Incident) (triggerValue peakValue : ℚ) (anomalyScore : Option ℚ) : Incident :=
  { incident with
    triggerValue := some triggerValue
    peakValue := some peakValue
    anomalyScore := anomalyScore <|> incident.anomalyScore }

def autoResolve (incident : Incident) (now : Int) : Incident :=
  { incident with
    status := .resolved
    resolvedAt := some now
    resolvedBy := none
    resolutionNote := some autoResolutionNote }

def acknowledge (incident : Incident) (userId : Nat) (now : Int) : Incident :=
  { incident with status := .acknowledged, acknowledgedAt := some now, acknowledgedBy := some userId }

def resolve (incident : Incident) (userId : Nat) (note : Option String) (now : Int) : Incident :=
  { incident with status := .resolved, resolvedAt := some now, resolvedBy := some userId, resolutionNote := note }

def reopen (incident : Incident) : Incident :=
  { incident with
    status := .open
    acknowledgedAt := none
    acknowledgedBy := none
    resolvedAt := none
    resolvedBy := none
    resolutionNote := none }

variable (incident : Incident)

@[simp] theorem id_refresh (triggerValue peakValue : ℚ) (anomalyScore : Option ℚ) :
    (incident.refresh triggerValue peakValue anomalyScore).id = incident.id := rfl

@[simp] theorem id_autoResolve (now : Int) : (incident.autoResolve now).id = incident.id := rfl

@[simp] theorem id_acknowledge (userId : Nat) (now : Int) : (incident.acknowledge userId now).id = incident.id := rfl

@[simp] theorem id_resolve (userId : Nat) (note : Option String) (now : Int) :
    (incident.resolve userId note now).id = incident.id := rfl

@[simp] theorem id_reopen : incident.reopen.id = incident.id := rfl

end Incident

namespace Store

def addEvent (s : Store) (incidentId : Nat) (type : IncidentEventType) (actorId : Option Nat) : Store :=
  { s with events := s.events.insert (fun id => ⟨id, incidentId, type, actorId, s.clock⟩) fun _ => rfl }

def openIncident (s : Store) (d : NewIncident) : Store :=
  { s with incidents := s.incidents.insert d.row fun _ => rfl }

/-- A write of one incident. -/
def write (s : Store) (id : Nat) (f : Incident → Incident) (hf : ∀ r, (f r).id = r.id) : Store :=
  { s with incidents := s.incidents.updateMany (fun r => r.id == id) f hf }

end Store

section Semantics
variable {ι : Type}

/-- What a statement does, whoever runs it. The reads change nothing. -/
def sem (_ : ι) : Stmt → Store → Option Store
  | .tick ms, s => some { s with clock := s.clock + ms }
  | .storeBaseline key now baseline, s => some { s with cache := s.cache.store key now baseline }
  | .createIncident d, s => some (s.openIncident d)
  | .createEvent incidentId type, s => some (s.addEvent incidentId type none)
  | .updateIncident id triggerValue peakValue anomalyScore, s =>
    some (s.write id (fun r => r.refresh triggerValue peakValue anomalyScore) fun r => r.id_refresh ..)
  | .dispatch key incidentId outcome, s =>
    some { s with dispatches := ⟨key.ruleId, key.sourceId, incidentId, outcome, s.clock⟩ :: s.dispatches }
  | .autoResolve id now, s => some (s.write id (fun r => r.autoResolve now) fun r => r.id_autoResolve now)
  | .acknowledge id userId now, s =>
    some ((s.write id (fun r => r.acknowledge userId now) fun r => r.id_acknowledge ..).addEvent id .acknowledged
      (some userId))
  | .resolve id userId note now, s =>
    some ((s.write id (fun r => r.resolve userId note now) fun r => r.id_resolve ..).addEvent id .resolved (some userId))
  | .reopen id userId, s => some ((s.write id Incident.reopen Incident.id_reopen).addEvent id .reopened (some userId))
  | _, s => some s

end Semantics

/-! ## Queries -/

namespace Store

def findRules (s : Store) (orgId : Nat) (kinds : List MetricSource) (metrics : List MetricType) : List AlertRule :=
  s.rules.rows.filter (AlertRule.watches orgId kinds metrics)

/-- An unresolved incident of a rule on a source. -/
def findOpen (s : Store) (key : IncidentKey) : Option Incident :=
  s.incidents.find? fun r => r.hasKey key && r.unresolved

/-- `resolveSourceLabels`, for one source. -/
def findLabel (s : Store) (orgId : Nat) (kind : MetricSource) (sourceId : Nat) : Option String :=
  let kind := if kind = .networkInterface then .networkDevice else kind
  (s.sources.find? fun r => r.orgId == orgId && r.kind == kind && r.id == sourceId).map Source.label

/-- When the last notification about the incident was sent. -/
def lastNotified (s : Store) (incidentId : Nat) : Option Int :=
  ((s.events.rows.filter fun e => e.incidentId == incidentId && e.type == .notified).map IncidentEvent.createdAt).max?

def ownedIncident (s : Store) (id orgId : Nat) : Option Incident :=
  s.incidents.find? fun r => r.id == id && r.orgId == orgId

end Store

/-! ## Open incidents -/

/-- An incident of the key is unresolved. -/
def hasOpen (key : IncidentKey) (s : Store) : Bool := (s.findOpen key).isSome

section Open
variable {key own : IncidentKey} {s : Store}

theorem hasOpen_iff : hasOpen key s = true ↔ ∃ r ∈ s.incidents, (r.hasKey key && r.unresolved) = true := by
  rw [hasOpen, Store.findOpen, Table.find?, List.find?_isSome]
  rfl

theorem hasOpen_congr {s' : Store} (h : s'.incidents = s.incidents) : hasOpen key s' = hasOpen key s := by
  rw [hasOpen, hasOpen, Store.findOpen, Store.findOpen, h]

theorem key_eq_of_hasKey {r : Incident} (h : r.hasKey key = true) (h' : r.hasKey own = true) : own = key := by
  simp only [Incident.hasKey, Bool.and_eq_true, beq_iff_eq] at h h'
  obtain ⟨⟨⟨hk, hr⟩, hs⟩, hm⟩ := h
  obtain ⟨⟨⟨hk', hr'⟩, hs'⟩, hm'⟩ := h'
  cases key
  cases own
  simp only [IncidentKey.mk.injEq]
  exact ⟨hk'.symm.trans hk, Option.some.inj (hr'.symm.trans hr), Option.some.inj (hs'.symm.trans hs),
    Option.some.inj (hm'.symm.trans hm)⟩

theorem hasKey_row (d : NewIncident) (id : Nat) : (d.row id).hasKey d.key = true := by
  simp [Incident.hasKey, NewIncident.row]

theorem hasOpen_write (id : Nat) {f : Incident → Incident} (hf : ∀ r, (f r).id = r.id)
    (h : ∀ r ∈ s.incidents, r.id = id → ((f r).hasKey key && (f r).unresolved) = (r.hasKey key && r.unresolved)) :
    hasOpen key (s.write id f hf) = hasOpen key s := by
  rw [Bool.eq_iff_iff, hasOpen_iff, hasOpen_iff]
  have hrow : ∀ r ∈ s.incidents, ((if r.id == id then f r else r).hasKey key &&
      (if r.id == id then f r else r).unresolved) = (r.hasKey key && r.unresolved) := by
    intro r hr
    split
    · exact h r hr (beq_iff_eq.mp ‹_›)
    · rfl
  constructor
  · rintro ⟨r', hr', hopen⟩
    obtain ⟨r, hr, rfl⟩ := List.mem_map.mp hr'
    exact ⟨r, hr, (hrow r hr).symm.trans hopen⟩
  · rintro ⟨r, hr, hopen⟩
    exact ⟨_, List.mem_map.mpr ⟨r, hr, rfl⟩, (hrow r hr).trans hopen⟩

theorem mem_openIncident {d : NewIncident} {r : Incident} :
    r ∈ (s.openIncident d).incidents ↔ r ∈ s.incidents ∨ r = d.row s.incidents.next :=
  @Table.mem_insert _ _ s.incidents d.row (fun _ => rfl) r

theorem hasOpen_openIncident_self (d : NewIncident) (hd : d.key = key) :
    hasOpen key (s.openIncident d) = true :=
  hasOpen_iff.mpr ⟨_, mem_openIncident.mpr (.inr rfl), by rw [← hd, hasKey_row]; rfl⟩

theorem hasOpen_openIncident_other (d : NewIncident) (hd : d.key ≠ key) :
    hasOpen key (s.openIncident d) = hasOpen key s := by
  rw [Bool.eq_iff_iff, hasOpen_iff, hasOpen_iff]
  constructor
  · rintro ⟨r, hr, hopen⟩
    obtain hr | rfl := mem_openIncident.mp hr
    · exact ⟨r, hr, hopen⟩
    · exact absurd (key_eq_of_hasKey (Bool.and_eq_true_iff.mp hopen).1 (hasKey_row d _)) hd
  · rintro ⟨r, hr, hopen⟩
    exact ⟨r, mem_openIncident.mpr (.inl hr), hopen⟩

theorem findOpen_mem {r : Incident} (h : s.findOpen own = some r) :
    r ∈ s.incidents ∧ r.hasKey own = true ∧ r.unresolved = true :=
  ⟨(Table.find?_mem h).1, Bool.and_eq_true_iff.mp (Table.find?_mem h).2⟩

end Open

end IkelyaneMonitor.Incidents
