import Mathlib
import IkelyaneMonitor.Agent.Snmp
import IkelyaneMonitor.Alerts.Rules
import IkelyaneMonitor.Relational.Owners
import IkelyaneMonitor.Remediation.Actions
import IkelyaneMonitor.Saas.Runner
import IkelyaneMonitor.Telemetry.Ingest

/-!
# The configuration of the organizations (`prisma/schema.prisma`, `prisma/migrations`)

* `MonitoredHost`, `NetworkDevice`, `DatabaseInstance`, `EndpointCheck`, `TopologyNode`, `ServiceDependency`, `AlertRule`,
  `RemediationAction` : the rows that the people of an organization edit; `Row` : a row of any of these tables;
* `schema` : their keys, the organization each belongs to, foreign keys with what a deletion does to them, unique and CHECK
  constraints; a node's `refId` and a rule's `sourceId` have no foreign key;
* `AuditAction`, `AuditLog` : the audit trail; `Db`, `DbCall` : the database, and a call on it.

Identifiers are natural numbers, drawn at random: a draw that repeats one is no run. The key of a host (`keyId`) is drawn as
well, so its unique constraint is left out, and so are the limits of the column types.
-/

namespace IkelyaneMonitor.Tenancy
open Relational
open Agent.Snmp (AuthProtocol PrivProtocol SecurityLevel)
open Remediation (JsonValue OsFamily RemediationMode)
open Telemetry (DatabaseEngine MetricSource)

inductive HttpMethod where
  | GET | HEAD | POST | PUT | PATCH | DELETE | OPTIONS
  deriving DecidableEq, Repr

inductive TopologyNodeKind where
  | host | networkDevice | database | endpoint | service | external
  deriving DecidableEq, Repr

inductive DependencyKind where
  | dependsOn | hostedOn | connectedTo | routesTo | replicatesTo
  deriving DecidableEq, Repr

/-! ## The rows -/

structure MonitoredHost extends Telemetry.AgentHost where
  displayName : Option String
  secretRotatedAt : Int
  status : Saas.HealthStatus
  osFamily : OsFamily
  agentVersion : Option String
  lastSeenAt : Option Int
  remediationMode : Option RemediationMode
  remediationAllowlist : List String
  createdAt : Int

/-- With the settings and the credentials, which ingestion does not touch. -/
structure NetworkDevice extends Telemetry.NetworkDevice where
  tags : List String
  enabled : Bool
  pollIntervalSec : Nat
  snmpPort : Nat
  snmpTimeoutMs : Nat
  snmpRetries : Nat
  snmpCommunityEnc : Option String
  snmpV3Username : Option String
  snmpV3SecurityLevel : Option SecurityLevel
  snmpV3AuthProtocol : Option AuthProtocol
  snmpV3AuthKeyEnc : Option String
  snmpV3PrivProtocol : Option PrivProtocol
  snmpV3PrivKeyEnc : Option String
  snmpV3ContextName : Option String
  createdAt : Int

structure DatabaseInstance where
  id : Nat
  orgId : Nat
  hostId : Option Nat
  name : String
  engine : DatabaseEngine
  version : Option String
  endpoint : Option String
  isReplica : Bool
  tags : List String
  enabled : Bool
  storageQuotaBytes : Option Nat
  storageUsedBytes : Option Nat
  maxConnections : Option Nat
  activeConnections : Option Nat
  cacheHitRatio : Option ℚ
  deadlocksTotal : Option Nat
  replicationLagSeconds : Option ℚ
  slowQueryThresholdMs : Nat
  status : Saas.HealthStatus
  lastPolledAt : Option Int
  createdAt : Int

/-- With what is probed, which the runners only read. -/
structure EndpointCheck extends Saas.EndpointCheck where
  name : String
  url : String
  method : HttpMethod
  expectedStatus : Nat
  expectedBodyContains : Option String
  timeoutMs : Nat
  regions : List String
  tags : List String
  followRedirects : Bool
  verifySsl : Bool
  slaTargetPercent : ℚ
  createdAt : Int

structure TopologyNode where
  id : Nat
  orgId : Nat
  kind : TopologyNodeKind
  refId : Option Nat
  label : String
  positionX : ℚ
  positionY : ℚ
  createdAt : Int

structure ServiceDependency where
  id : Nat
  orgId : Nat
  parentNodeId : Nat
  childNodeId : Nat
  kind : DependencyKind
  criticality : Alerts.Severity
  label : Option String

structure AlertRule extends Alerts.AlertRule where
  description : Option String
  remediationActionId : Option Nat
  autoRemediate : Bool
  createdAt : Int

structure RemediationAction extends Remediation.RemediationAction where
  name : String
  description : Option String
  createdBy : Option Nat
  createdAt : Int
  updatedAt : Int

inductive Kind where
  | host | device | database | endpoint | node | dependency | rule | action
  deriving DecidableEq, Repr

/-- A table and an id. -/
abbrev Key := Kind × Nat

inductive Row where
  | host (r : MonitoredHost)
  | device (r : NetworkDevice)
  | database (r : DatabaseInstance)
  | endpoint (r : EndpointCheck)
  | node (r : TopologyNode)
  | dependency (r : ServiceDependency)
  | rule (r : AlertRule)
  | action (r : RemediationAction)

namespace Row

def key : Row → Key
  | .host r => (.host, r.id)
  | .device r => (.device, r.id)
  | .database r => (.database, r.id)
  | .endpoint r => (.endpoint, r.id)
  | .node r => (.node, r.id)
  | .dependency r => (.dependency, r.id)
  | .rule r => (.rule, r.id)
  | .action r => (.action, r.id)

def orgId : Row → Nat
  | .host r => r.orgId
  | .device r => r.orgId
  | .database r => r.orgId
  | .endpoint r => r.orgId
  | .node r => r.orgId
  | .dependency r => r.orgId
  | .rule r => r.orgId
  | .action r => r.orgId

end Row

/-- The table a node of this kind refers to. -/
def TopologyNodeKind.table : TopologyNodeKind → Option Kind
  | .host => some .host
  | .networkDevice => some .device
  | .database => some .database
  | .endpoint => some .endpoint
  | .service | .external => none

/-- The table whose rows a rule of this kind watches. -/
def sourceTable : MetricSource → Kind
  | .host => .host
  | .networkDevice | .networkInterface => .device
  | .database => .database
  | .endpoint => .endpoint

/-- The row that an optional column names. -/
def refTo (kind : Kind) (id : Option Nat) : List Key := (id.map fun id => (kind, id)).toList

namespace Row

/-- The foreign keys between these tables. -/
def refs : Row → List Key
  | .device r => refTo .host r.pollerHostId
  | .database r => refTo .host r.hostId
  | .dependency r => [(.node, r.parentNodeId), (.node, r.childNodeId)]
  | .rule r => refTo .action r.remediationActionId
  | .action r => refTo .host r.targetHostId
  | .host _ | .endpoint _ | .node _ => []

/-- The ids without a foreign key. -/
def names : Row → List Key
  | .node r => r.kind.table.elim [] fun kind => refTo kind r.refId
  | .rule r => refTo (sourceTable r.sourceKind) r.sourceId
  | _ => []

/-- `ON DELETE`: a dependency goes with its nodes, the other references are set to null. -/
def release (_ : Key) : Row → Option Row
  | .device r => some (.device { r with pollerHostId := none })
  | .database r => some (.database { r with hostId := none })
  | .dependency _ => none
  | .rule r => some (.rule { r with remediationActionId := none })
  | .action r => some (.action { r with targetHostId := none })
  | r => some r

/-- The unique constraints; two nulls are not the same. -/
def clash : Row → Row → Bool
  | .host a, .host b => a.orgId == b.orgId && a.hostname == b.hostname
  | .device a, .device b => a.orgId == b.orgId && a.ipAddress == b.ipAddress
  | .database a, .database b =>
    a.orgId == b.orgId && a.hostId.isSome && a.hostId == b.hostId && a.engine == b.engine && a.name == b.name
  | .node a, .node b => a.orgId == b.orgId && a.kind == b.kind && a.refId.isSome && a.refId == b.refId
  | .dependency a, .dependency b =>
    a.parentNodeId == b.parentNodeId && a.childNodeId == b.childNodeId && a.kind == b.kind
  | _, _ => false

def check : Row → Bool
  | .endpoint r =>
    decide (10 ≤ r.intervalSec ∧ 100 ≤ r.timeoutMs ∧ r.timeoutMs ≤ 120000 ∧ 0 ≤ r.slaTargetPercent ∧
      r.slaTargetPercent ≤ 100)
  | .dependency r => decide (r.parentNodeId ≠ r.childNodeId)
  | .rule r => r.operator.isSome && r.threshold.isSome || r.anomalyDetection
  | .action r => decide (1 ≤ r.timeoutSec ∧ r.timeoutSec ≤ 3600 ∧ 1 ≤ r.maxRunsPerHour ∧ r.maxRunsPerHour ≤ 60)
  | _ => true

end Row

/-! ## The schema -/

theorem release_orgId {k : Key} {r r' : Row} (h : r.release k = some r') : r'.orgId = r.orgId := by
  cases r <;> cases h <;> rfl

theorem release_key {k : Key} {r r' : Row} (h : r.release k = some r') : r'.key = r.key := by
  cases r <;> cases h <;> rfl

theorem release_refs {k k' : Key} {r r' : Row} (hk : k ∈ r.refs) (h : r.release k = some r') (hk' : k' ∈ r'.refs) :
    k' ∈ r.refs ∧ k' ≠ k := by
  cases r <;> cases h <;> simp_all [Row.refs, refTo]

theorem release_names {k k' : Key} {r r' : Row} (h : r.release k = some r') (hk' : k' ∈ r'.names) : k' ∈ r.names := by
  cases r <;> cases h <;> exact hk'

theorem release_check {k : Key} {r r' : Row} (h : r.release k = some r') : r'.check = r.check := by
  cases r <;> cases h <;> rfl

theorem release_clash {k : Key} {r r' : Row} (h : r.release k = some r') (q : Row) (hc : r'.clash q = true) :
    r.clash q = true := by
  cases r <;> cases h <;> cases q <;> first | exact hc | simp [Row.clash] at hc

/-- Nothing refers to a dependency. -/
theorem release_leaf {k : Key} {r : Row} (h : r.release k = none) (q : Row) : r.key ∉ q.refs := by
  cases r <;> cases h
  cases q <;> simp [Row.key, Row.refs, refTo]

theorem clash_symm (r q : Row) : r.clash q = q.clash r := by
  cases r <;> cases q <;> simp only [Row.clash]
  case host.host a b => rw [BEq.comm (b := b.orgId), BEq.comm (b := b.hostname)]
  case device.device a b => rw [BEq.comm (b := b.orgId), BEq.comm (b := b.ipAddress)]
  case database.database a b =>
    by_cases h : a.hostId = b.hostId
    · rw [BEq.comm (b := b.orgId), BEq.comm (b := b.engine), BEq.comm (b := b.name), h]
    · have h' : b.hostId ≠ a.hostId := Ne.symm h
      simp only [beq_false_of_ne h, beq_false_of_ne h', Bool.and_false, Bool.false_and]
  case node.node a b =>
    by_cases h : a.refId = b.refId
    · rw [BEq.comm (b := b.orgId), BEq.comm (b := b.kind), h]
    · have h' : b.refId ≠ a.refId := Ne.symm h
      simp only [beq_false_of_ne h, beq_false_of_ne h', Bool.and_false]
  case dependency.dependency a b =>
    rw [BEq.comm (b := b.parentNodeId), BEq.comm (b := b.childNodeId), BEq.comm (b := b.kind)]

/-- Rows that a unique constraint keeps apart are of one organization, or depend on one node. -/
theorem clash_orgId (r q : Row) (h : r.clash q = true) : r.orgId = q.orgId ∨ ∃ k ∈ r.refs, k ∈ q.refs := by
  cases r <;> cases q <;> simp only [Row.clash, Bool.and_eq_true, beq_iff_eq, Bool.false_eq_true] at h
  case host.host => exact .inl h.1
  case device.device => exact .inl h.1
  case database.database => exact .inl h.1.1.1.1
  case node.node => exact .inl h.1.1.1
  case dependency.dependency a b =>
    exact .inr ⟨(.node, a.parentNodeId), by simp [Row.refs], by simp [Row.refs, h.1.1]⟩

def schema : Schema Row Key Nat where
  key := Row.key
  owner := Row.orgId
  refs := Row.refs
  names := Row.names
  release := Row.release
  clash := Row.clash
  check := Row.check
  clash_symm := clash_symm
  clash_owner := clash_orgId
  release_key := release_key
  release_owner := release_orgId
  release_refs := release_refs
  release_names := release_names
  release_check := release_check
  release_clash := release_clash
  release_leaf := release_leaf

/-! ## The audit trail -/

inductive Verb where
  | created | updated | rotated | enabled | disabled | deleted
  deriving DecidableEq, Repr

def Verb.text : Verb → String
  | .created => "created"
  | .updated => "updated"
  | .rotated => "secret_rotated"
  | .enabled => "enabled"
  | .disabled => "disabled"
  | .deleted => "deleted"

def Kind.targetType : Kind → String
  | .host => "host"
  | .device => "device"
  | .database => "database"
  | .endpoint => "endpoint"
  | .node => "topology_node"
  | .dependency => "service_dependency"
  | .rule => "alert_rule"
  | .action => "remediation_action"

structure AuditAction where
  kind : Kind
  verb : Verb
  deriving DecidableEq, Repr

def AuditAction.text : AuditAction → String
  | ⟨.host, .created⟩ => "host.registered"
  | ⟨.device, .created⟩ => "device.registered"
  | ⟨.node, verb⟩ => "topology.node_" ++ verb.text
  | ⟨.dependency, verb⟩ => "topology.dependency_" ++ verb.text
  | ⟨kind, verb⟩ => kind.targetType ++ "." ++ verb.text

structure AuditLog where
  id : Nat
  orgId : Nat
  actorId : Nat
  actorEmail : String
  action : AuditAction
  targetType : String
  targetId : Nat
  ipAddress : Option String
  metadata : Option JsonValue
  createdAt : Int

/-- The row that the entry is about. -/
def AuditLog.target (entry : AuditLog) : Key := (entry.action.kind, entry.targetId)

abbrev Db := Store Row Key AuditLog

abbrev DbCall (α : Type) := Relational.Call Row Key AuditLog α

/-! ## The tables of the database client -/

/-- A table of the client: its rows among all rows. -/
structure Model (τ : Type) where
  kind : Kind
  row : τ → Row
  read : Row → Option τ
  id : τ → Nat
  orgId : τ → Nat
  read_iff : ∀ {r x}, read r = some x ↔ r = row x
  key_row : ∀ x, (row x).key = (kind, id x)
  orgId_row : ∀ x, (row x).orgId = orgId x
  row_of_key : ∀ {r : Row}, r.key.1 = kind → ∃ x, r = row x

def monitoredHost : Model MonitoredHost where
  kind := .host
  row := .host
  read := fun | .host r => some r | _ => none
  id := fun r => r.id
  orgId := fun r => r.orgId
  read_iff := fun {r x} => by cases r <;> simp
  key_row := fun _ => rfl
  orgId_row := fun _ => rfl
  row_of_key := fun {r} h => by cases r <;> simp_all [Row.key]

def networkDevice : Model NetworkDevice where
  kind := .device
  row := .device
  read := fun | .device r => some r | _ => none
  id := fun r => r.id
  orgId := fun r => r.orgId
  read_iff := fun {r x} => by cases r <;> simp
  key_row := fun _ => rfl
  orgId_row := fun _ => rfl
  row_of_key := fun {r} h => by cases r <;> simp_all [Row.key]

def databaseInstance : Model DatabaseInstance where
  kind := .database
  row := .database
  read := fun | .database r => some r | _ => none
  id := DatabaseInstance.id
  orgId := DatabaseInstance.orgId
  read_iff := fun {r x} => by cases r <;> simp
  key_row := fun _ => rfl
  orgId_row := fun _ => rfl
  row_of_key := fun {r} h => by cases r <;> simp_all [Row.key]

def endpointCheck : Model EndpointCheck where
  kind := .endpoint
  row := .endpoint
  read := fun | .endpoint r => some r | _ => none
  id := fun r => r.id
  orgId := fun r => r.orgId
  read_iff := fun {r x} => by cases r <;> simp
  key_row := fun _ => rfl
  orgId_row := fun _ => rfl
  row_of_key := fun {r} h => by cases r <;> simp_all [Row.key]

def topologyNode : Model TopologyNode where
  kind := .node
  row := .node
  read := fun | .node r => some r | _ => none
  id := TopologyNode.id
  orgId := TopologyNode.orgId
  read_iff := fun {r x} => by cases r <;> simp
  key_row := fun _ => rfl
  orgId_row := fun _ => rfl
  row_of_key := fun {r} h => by cases r <;> simp_all [Row.key]

def serviceDependency : Model ServiceDependency where
  kind := .dependency
  row := .dependency
  read := fun | .dependency r => some r | _ => none
  id := ServiceDependency.id
  orgId := ServiceDependency.orgId
  read_iff := fun {r x} => by cases r <;> simp
  key_row := fun _ => rfl
  orgId_row := fun _ => rfl
  row_of_key := fun {r} h => by cases r <;> simp_all [Row.key]

def alertRule : Model AlertRule where
  kind := .rule
  row := .rule
  read := fun | .rule r => some r | _ => none
  id := fun r => r.id
  orgId := fun r => r.orgId
  read_iff := fun {r x} => by cases r <;> simp
  key_row := fun _ => rfl
  orgId_row := fun _ => rfl
  row_of_key := fun {r} h => by cases r <;> simp_all [Row.key]

def remediationAction : Model RemediationAction where
  kind := .action
  row := .action
  read := fun | .action r => some r | _ => none
  id := fun r => r.id
  orgId := fun r => r.orgId
  read_iff := fun {r x} => by cases r <;> simp
  key_row := fun _ => rfl
  orgId_row := fun _ => rfl
  row_of_key := fun {r} h => by cases r <;> simp_all [Row.key]

namespace Model

variable {τ : Type} (m : Model τ)

def all (s : Db) : List τ := s.rows.filterMap m.read

def findMany (s : Db) (p : τ → Bool) : List τ := (m.all s).filter p

def findFirst (s : Db) (p : τ → Bool) : Option τ := (m.all s).find? p

def create (x : τ) : Write Row Key := .insert (m.row x)

/-- The row of this id, if `p` holds of it. -/
def updateMany (id : Nat) (p : τ → Bool) (f : τ → τ) : Write Row Key :=
  .update (m.kind, id) (fun r => (m.read r).any p) fun r => ((m.read r).map fun x => m.row (f x)).getD r

def deleteMany (id : Nat) (p : τ → Bool) : Write Row Key := .delete (m.kind, id) fun r => (m.read r).any p

end Model

end IkelyaneMonitor.Tenancy
