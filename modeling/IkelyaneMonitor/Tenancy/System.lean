import IkelyaneMonitor.Servers.Rotation
import IkelyaneMonitor.Tenancy.Actions
import IkelyaneMonitor.Tenancy.Databases
import IkelyaneMonitor.Tenancy.Devices
import IkelyaneMonitor.Tenancy.Endpoints
import IkelyaneMonitor.Tenancy.Hosts
import IkelyaneMonitor.Tenancy.Rules
import IkelyaneMonitor.Tenancy.Topology

/-!
# Organizations beside each other

* `Request`, `Response`, `Request.call` : what the people of the organizations ask for and the lists that their agents poll
  by, and what they get; `start` : requests that begin on a database, any statement of which may fail;
* `confined` : every request stays within its organization;
* `organizations_isolated` : what an organization gets, and what becomes of its rows and its trail, depends on its own
  requests and its own rows alone, however the requests of the others interleave with them;
* `references_within` : no row refers to a row of another organization, in any state that is reached;
* `topology_wellFormed` : the map of an organization in such a state: two ends of its own for each dependency, distinct ones,
  no dependency twice, no entity twice.

Nothing else writes here. What agents report (`lib/telemetry/ingest.ts`), `scripts/provision-host.ts` and the runner of the
checks write the same tables: a report adds the devices and the databases that it names and the organization does not have
yet, without an entry of the trail, and refreshes what is measured of the others, the type and the version of a device among
it. `Writers` has them beside the requests.
-/

namespace IkelyaneMonitor.Tenancy
open Interleave Relational
open Crypto (Token)
open Remediation (RemediationWriteError)
open Servers (HostCredentials HostError)
open Telemetry (MetricType)

inductive Request where
  | listHosts (actor : Requester) (now : Int)
  | registerHost (actor : Requester) (draws : Draws) (hostname : String) (displayName : Option String) (key secret : String)
      (iv : Token)
  | rotateHostSecret (actor : Requester) (draws : Draws) (hostId : Nat) (secret : String) (iv : Token) (now : Int)
  | setHostEnabled (actor : Requester) (draws : Draws) (hostId : Nat) (enabled : Bool)
  | listDevices (actor : Requester)
  | listDevicesForPoller (orgId pollerHostId : Nat)
  | registerDevice (actor : Requester) (draws : Draws) (ivs : DeviceIvs) (input : DeviceInput)
  | updateDevice (actor : Requester) (draws : Draws) (ivs : DeviceIvs) (id : Nat) (input : DeviceInput)
  | setDeviceEnabled (actor : Requester) (draws : Draws) (id : Nat) (enabled : Bool)
  | deleteDevice (actor : Requester) (draws : Draws) (id : Nat)
  | listDatabases (actor : Requester)
  | updateDatabaseSettings (actor : Requester) (draws : Draws) (id : Nat) (input : DatabaseSettingsInput)
  | setDatabaseEnabled (actor : Requester) (draws : Draws) (id : Nat) (enabled : Bool)
  | listEndpoints (actor : Requester)
  | createEndpoint (actor : Requester) (draws : Draws) (input : EndpointInput)
  | updateEndpoint (actor : Requester) (draws : Draws) (id : Nat) (input : EndpointInput)
  | setEndpointEnabled (actor : Requester) (draws : Draws) (id : Nat) (enabled : Bool)
  | deleteEndpoint (actor : Requester) (draws : Draws) (id : Nat)
  | requestEndpointCheck (actor : Requester) (id : Nat)
  | listTopology (actor : Requester) (nodesFirst : Bool)
  | createNode (actor : Requester) (draws : Draws) (input : CreateNodeInput)
  | deleteNode (actor : Requester) (draws : Draws) (id : Nat)
  | updateNodePosition (actor : Requester) (id : Nat) (positionX positionY : ℚ)
  | updateNodePositions (actor : Requester) (positions : List NodePosition)
  | createDependency (actor : Requester) (draws : Draws) (input : CreateDependencyInput)
  | deleteDependency (actor : Requester) (draws : Draws) (id : Nat)
  | listAlertRules (actor : Requester)
  | createAlertRule (actor : Requester) (draws : Draws) (input : AlertRuleInput)
  | updateAlertRule (actor : Requester) (draws : Draws) (id : Nat) (input : AlertRuleInput)
  | setAlertRuleEnabled (actor : Requester) (draws : Draws) (id : Nat) (enabled : Bool)
  | deleteAlertRule (actor : Requester) (draws : Draws) (id : Nat)
  | listRemediationActions (actor : Requester)
  | listRemediationHosts (actor : Requester)
  | createRemediationAction (actor : Requester) (draws : Draws) (input : RemediationActionInput)
  | updateRemediationAction (actor : Requester) (draws : Draws) (id : Nat) (input : RemediationActionInput)
  | setRemediationActionEnabled (actor : Requester) (draws : Draws) (id : Nat) (enabled : Bool)
  | deleteRemediationAction (actor : Requester) (draws : Draws) (id : Nat)
  | listAuditLog (actor : Requester) (limit : Int)

inductive Response where
  | hosts (r : Outcome ReadError (List HostRow))
  | credentials (r : Outcome HostError HostCredentials)
  | hostWritten (r : Outcome HostError Unit)
  | devices (r : Outcome ReadError (List DeviceRow))
  | pollerConfig (r : Outcome Empty (List PollerDeviceConfig))
  | deviceCreated (r : Outcome DeviceWriteError Nat)
  | deviceWritten (r : Outcome DeviceWriteError Unit)
  | databases (r : Outcome ReadError (List DatabaseRow))
  | databaseWritten (r : Outcome DatabaseWriteError Unit)
  | endpoints (r : Outcome ReadError (List EndpointCheck))
  | endpointCreated (r : Outcome EndpointWriteError Nat)
  | endpointWritten (r : Outcome EndpointWriteError Unit)
  | topology (r : Outcome ReadError TopologyGraph)
  | topologyCreated (r : Outcome TopologyWriteError Nat)
  | topologyWritten (r : Outcome TopologyWriteError Unit)
  | rules (r : Outcome ReadError (List AlertRuleRow))
  | ruleCreated (r : Outcome AlertRuleWriteError Nat)
  | ruleWritten (r : Outcome AlertRuleWriteError Unit)
  | actions (r : Outcome ReadError (List RemediationActionRow))
  | actionHosts (r : Outcome ReadError (List RemediationHostRow))
  | actionCreated (r : Outcome RemediationWriteError Nat)
  | actionWritten (r : Outcome RemediationWriteError Unit)
  | audit (r : Outcome ReadError (List AuditLog))
  /-- A statement failed. -/
  | lost

namespace Request

/-- Who asks, where that is a person. -/
def actor? : Request → Option Requester
  | .listHosts actor _ | .registerHost actor .. | .rotateHostSecret actor .. | .setHostEnabled actor .. => some actor
  | .listDevicesForPoller .. => none
  | .listDevices actor | .registerDevice actor .. | .updateDevice actor .. | .setDeviceEnabled actor ..
  | .deleteDevice actor .. => some actor
  | .listDatabases actor | .updateDatabaseSettings actor .. | .setDatabaseEnabled actor .. => some actor
  | .listEndpoints actor | .createEndpoint actor .. | .updateEndpoint actor .. | .setEndpointEnabled actor ..
  | .deleteEndpoint actor .. | .requestEndpointCheck actor _ => some actor
  | .listTopology actor _ | .createNode actor .. | .deleteNode actor .. | .updateNodePosition actor ..
  | .updateNodePositions actor _ | .createDependency actor .. | .deleteDependency actor .. => some actor
  | .listAlertRules actor | .createAlertRule actor .. | .updateAlertRule actor .. | .setAlertRuleEnabled actor ..
  | .deleteAlertRule actor .. => some actor
  | .listRemediationActions actor | .listRemediationHosts actor | .createRemediationAction actor ..
  | .updateRemediationAction actor .. | .setRemediationActionEnabled actor .. | .deleteRemediationAction actor .. =>
    some actor
  | .listAuditLog actor _ => some actor

/-- The organization of the session, or of the agent that asks. -/
def orgId : Request → Nat
  | .listDevicesForPoller orgId _ => orgId
  | request => (request.actor?.map fun actor => actor.orgId).getD 0

end Request

section System
variable {URL : Type} (platform : Platform URL) (metricText : MetricType → String) (allowPrivateTargets : Bool)

def Request.call : Request → DbCall Response
  | .listHosts actor now => (Tenancy.listHosts platform actor now).map .hosts
  | .registerHost actor draws hostname displayName key secret iv =>
    (Tenancy.registerHost platform actor draws hostname displayName key secret iv).map .credentials
  | .rotateHostSecret actor draws hostId secret iv now =>
    (Tenancy.rotateHostSecret platform actor draws hostId secret iv now).map .credentials
  | .setHostEnabled actor draws hostId enabled => (Tenancy.setHostEnabled actor draws hostId enabled).map .hostWritten
  | .listDevices actor => (Tenancy.listDevices platform actor).map .devices
  | .listDevicesForPoller orgId pollerHostId => (Tenancy.listDevicesForPoller platform orgId pollerHostId).map .pollerConfig
  | .registerDevice actor draws ivs input => (Tenancy.registerDevice platform actor draws ivs input).map .deviceCreated
  | .updateDevice actor draws ivs id input => (Tenancy.updateDevice platform actor draws ivs id input).map .deviceWritten
  | .setDeviceEnabled actor draws id enabled => (Tenancy.setDeviceEnabled actor draws id enabled).map .deviceWritten
  | .deleteDevice actor draws id => (Tenancy.deleteDevice actor draws id).map .deviceWritten
  | .listDatabases actor => (Tenancy.listDatabases platform actor).map .databases
  | .updateDatabaseSettings actor draws id input =>
    (Tenancy.updateDatabaseSettings actor draws id input).map .databaseWritten
  | .setDatabaseEnabled actor draws id enabled => (Tenancy.setDatabaseEnabled actor draws id enabled).map .databaseWritten
  | .listEndpoints actor => (Tenancy.listEndpoints platform actor).map .endpoints
  | .createEndpoint actor draws input => (Tenancy.createEndpoint platform actor draws input).map .endpointCreated
  | .updateEndpoint actor draws id input => (Tenancy.updateEndpoint platform actor draws id input).map .endpointWritten
  | .setEndpointEnabled actor draws id enabled => (Tenancy.setEndpointEnabled actor draws id enabled).map .endpointWritten
  | .deleteEndpoint actor draws id => (Tenancy.deleteEndpoint actor draws id).map .endpointWritten
  | .requestEndpointCheck actor id => (Tenancy.requestEndpointCheck actor id).map .endpointWritten
  | .listTopology actor nodesFirst => (Tenancy.listTopology actor nodesFirst).map .topology
  | .createNode actor draws input => (Tenancy.createNode actor draws input).map .topologyCreated
  | .deleteNode actor draws id => (Tenancy.deleteNode actor draws id).map .topologyWritten
  | .updateNodePosition actor id x y => (Tenancy.updateNodePosition actor id x y).map .topologyWritten
  | .updateNodePositions actor positions => (Tenancy.updateNodePositions actor positions).map .topologyCreated
  | .createDependency actor draws input => (Tenancy.createDependency actor draws input).map .topologyCreated
  | .deleteDependency actor draws id => (Tenancy.deleteDependency actor draws id).map .topologyWritten
  | .listAlertRules actor => (Tenancy.listAlertRules platform actor).map .rules
  | .createAlertRule actor draws input =>
    (Tenancy.createAlertRule platform metricText actor draws input allowPrivateTargets).map .ruleCreated
  | .updateAlertRule actor draws id input =>
    (Tenancy.updateAlertRule platform metricText actor draws id input allowPrivateTargets).map .ruleWritten
  | .setAlertRuleEnabled actor draws id enabled => (Tenancy.setAlertRuleEnabled actor draws id enabled).map .ruleWritten
  | .deleteAlertRule actor draws id => (Tenancy.deleteAlertRule actor draws id).map .ruleWritten
  | .listRemediationActions actor => (Tenancy.listRemediationActions platform actor).map .actions
  | .listRemediationHosts actor => (Tenancy.listRemediationHosts platform actor).map .actionHosts
  | .createRemediationAction actor draws input =>
    (Tenancy.createRemediationAction platform actor draws input).map .actionCreated
  | .updateRemediationAction actor draws id input =>
    (Tenancy.updateRemediationAction platform actor draws id input).map .actionWritten
  | .setRemediationActionEnabled actor draws id enabled =>
    (Tenancy.setRemediationActionEnabled actor draws id enabled).map .actionWritten
  | .deleteRemediationAction actor draws id => (Tenancy.deleteRemediationAction actor draws id).map .actionWritten
  | .listAuditLog actor limit => (Tenancy.listAuditLog actor limit).map .audit

abbrev System := Conf Nat (Stmt Row Key AuditLog) Db Response

/-- Request `i` is `requests i`, and its statement number `faults i` fails, if there is one. -/
def start (requests : Nat → Request) (faults : Nat → Option Nat) (s : Db) : System where
  store := s
  calls := fun i =>
    let call := (requests i).call platform metricText allowPrivateTargets
    (faults i).elim call fun n => call.failAt .select .lost n

/-! ## Isolation -/

theorem confined (request : Request) :
    Confined request.orgId (fun _ => True) (request.call platform metricText allowPrivateTargets) := by
  cases request with
  | listHosts actor now => exact (listHosts_confined platform actor now).map _
  | registerHost actor draws hostname displayName key secret iv =>
      exact (registerHost_confined platform actor draws hostname displayName key secret iv).map _
  | rotateHostSecret actor draws hostId secret iv now =>
      exact (rotateHostSecret_confined platform actor draws hostId secret iv now).map _
  | setHostEnabled actor draws hostId enabled => exact (setHostEnabled_confined actor draws hostId enabled).map _
  | listDevices actor => exact (listDevices_confined platform actor).map _
  | listDevicesForPoller orgId pollerHostId => exact (listDevicesForPoller_confined platform orgId pollerHostId).map _
  | registerDevice actor draws ivs input => exact (registerDevice_confined platform actor draws ivs input).map _
  | updateDevice actor draws ivs id input => exact (updateDevice_confined platform actor draws ivs id input).map _
  | setDeviceEnabled actor draws id enabled => exact (setDeviceEnabled_confined actor draws id enabled).map _
  | deleteDevice actor draws id => exact (deleteDevice_confined actor draws id).map _
  | listDatabases actor => exact (listDatabases_confined platform actor).map _
  | updateDatabaseSettings actor draws id input => exact (updateDatabaseSettings_confined actor draws id input).map _
  | setDatabaseEnabled actor draws id enabled => exact (setDatabaseEnabled_confined actor draws id enabled).map _
  | listEndpoints actor => exact (listEndpoints_confined platform actor).map _
  | createEndpoint actor draws input => exact (createEndpoint_confined platform actor draws input).map _
  | updateEndpoint actor draws id input => exact (updateEndpoint_confined platform actor draws id input).map _
  | setEndpointEnabled actor draws id enabled => exact (setEndpointEnabled_confined actor draws id enabled).map _
  | deleteEndpoint actor draws id => exact (deleteEndpoint_confined actor draws id).map _
  | requestEndpointCheck actor id => exact (requestEndpointCheck_confined actor id).map _
  | listTopology actor nodesFirst => exact (listTopology_confined actor nodesFirst).map _
  | createNode actor draws input => exact (createNode_confined actor draws input).map _
  | deleteNode actor draws id => exact (deleteNode_confined actor draws id).map _
  | updateNodePosition actor id x y => exact (updateNodePosition_confined actor id x y).map _
  | updateNodePositions actor positions => exact (updateNodePositions_confined actor positions).map _
  | createDependency actor draws input => exact (createDependency_confined actor draws input).map _
  | deleteDependency actor draws id => exact (deleteDependency_confined actor draws id).map _
  | listAlertRules actor => exact (listAlertRules_confined platform actor).map _
  | createAlertRule actor draws input =>
      exact (createAlertRule_confined platform actor draws metricText input allowPrivateTargets).map _
  | updateAlertRule actor draws id input =>
      exact (updateAlertRule_confined platform actor draws metricText id input allowPrivateTargets).map _
  | setAlertRuleEnabled actor draws id enabled => exact (setAlertRuleEnabled_confined actor draws id enabled).map _
  | deleteAlertRule actor draws id => exact (deleteAlertRule_confined actor draws id).map _
  | listRemediationActions actor => exact (listRemediationActions_confined platform actor).map _
  | listRemediationHosts actor => exact (listRemediationHosts_confined platform actor).map _
  | createRemediationAction actor draws input =>
      exact (createRemediationAction_confined platform actor draws input).map _
  | updateRemediationAction actor draws id input =>
      exact (updateRemediationAction_confined platform actor draws id input).map _
  | setRemediationActionEnabled actor draws id enabled =>
      exact (setRemediationActionEnabled_confined actor draws id enabled).map _
  | deleteRemediationAction actor draws id => exact (deleteRemediationAction_confined actor draws id).map _
  | listAuditLog actor limit => exact (listAuditLog_confined actor limit).map _

variable {platform metricText allowPrivateTargets} {org : Nat → Nat} {requests requests' : Nat → Request}
  {faults faults' : Nat → Option Nat} {s t : Db}

/-- Every call of the start stays within its organization, failing or not. -/
theorem start_sat (horg : ∀ i, (requests i).orgId = org i) (i : Nat) :
    (secure schema AuditLog.orgId org).Sat schema.sem i
      ((start platform metricText allowPrivateTargets requests faults s).calls i) fun _ => True := by
  have hcall := confined platform metricText allowPrivateTargets (requests i) Nat org i (horg i).symm
  simp only [start]
  cases faults i with
  | none => exact hcall
  | some n => exact hcall.failAt (fun _ => rfl) n

theorem sound_of_start (horg : ∀ i, (requests i).orgId = org i) (hs : schema.Sound s.rows s.drawn)
    {ok : System → Nat → Prop} {c : System}
    (h : Reach schema.sem ok (start platform metricText allowPrivateTargets requests faults s) c) :
    schema.Sound c.store.rows c.store.drawn :=
  sound_of_reach (S := schema) (start_sat (s := s) horg) hs h

/-- Organization `d` to begin with, its requests and the order in which they take steps are the same: so is all it gets. -/
theorem organizations_isolated (horg : ∀ i, (requests i).orgId = org i) (horg' : ∀ i, (requests' i).orgId = org i)
    (hs : schema.Sound s.rows s.drawn) (ht : schema.Sound t.rows t.drawn) {d : Nat}
    (hrows : schema.view d t.rows = schema.view d s.rows)
    (hlog : t.log.filter (fun e => e.orgId = d) = s.log.filter fun e => e.orgId = d)
    (hsame : ∀ i, org i = d → requests' i = requests i ∧ faults' i = faults i) {is js : List Nat}
    (horder : is.filter (fun i => org i = d) = js.filter fun i => org i = d) {c c' : System}
    (hc : (start platform metricText allowPrivateTargets requests faults s).run schema.sem is = some c)
    (hc' : (start platform metricText allowPrivateTargets requests' faults' t).run schema.sem js = some c') :
    schema.view d c'.store.rows = schema.view d c.store.rows ∧
      (c'.store.log.filter (fun e => e.orgId = d) = c.store.log.filter fun e => e.orgId = d) ∧
      ∀ i, org i = d → c'.calls i = c.calls i := by
  refine isolated (start_sat (s := s) horg) (start_sat (s := t) horg') hs ht hrows hlog (fun i hi => ?_) horder hc hc'
  obtain ⟨hrequest, hfault⟩ := hsame i hi
  simp only [start, hrequest, hfault]

end System

/-- A runtime to run the requests with, on which a text is the URL and the address that it spells. -/
def plain : Platform String where
  web := {
    parse := fun text _ => some text
    protocol := fun _ => "http:"
    origin := id
    hostname := id
    isIP := fun _ => some (.v4 0)
    toUpperCase := id
    decodeUtf8 := fun _ => "" }
  href := id
  inet := some
  collate := fun a b => decide (a ≤ b)
  gcm := Servers.sampleGcm
  sha256 := id
  idText := fun id => String.ofList (List.replicate id 'i')

def ofOrganization (orgId : Nat) (role : Auth.Role) : Requester := ⟨⟨orgId, orgId, role⟩, "owner@example.org", none⟩

/-- Two organizations that draw a node each, and look at their maps. -/
def twoMaps : Nat → Request
  | 0 => .createNode (ofOrganization 1 .owner) ⟨10, 20, 0⟩ ⟨.service, none, "api", 0, 0⟩
  | 1 => .createNode (ofOrganization 2 .owner) ⟨11, 21, 0⟩ ⟨.external, none, "mail", 0, 0⟩
  | 2 => .listTopology (ofOrganization 1 .viewer) true
  | _ => .listTopology (ofOrganization 2 .viewer) true

/-- The second one deletes a node of the first instead. -/
def intruder : Nat → Request
  | 1 => .deleteNode (ofOrganization 2 .owner) ⟨0, 21, 0⟩ 10
  | i => twoMaps i

def emptyDb : Db := ⟨[], [], []⟩

theorem organizations_isolated_intruder : ∃ c c' : System,
    (start plain (fun _ => "") false twoMaps (fun _ => none) emptyDb).run schema.sem [0, 1, 2, 3, 2] = some c ∧
    (start plain (fun _ => "") false intruder (fun _ => none) emptyDb).run schema.sem [0, 1, 2, 2] = some c' ∧
    schema.view 1 c'.store.rows = schema.view 1 c.store.rows ∧ c'.calls 2 = c.calls 2 := by
  obtain ⟨c, hc⟩ := Option.isSome_iff_exists.mp (show ((start plain (fun _ => "") false twoMaps (fun _ => none) emptyDb).run
    schema.sem [0, 1, 2, 3, 2]).isSome = true by decide +kernel)
  obtain ⟨c', hc'⟩ := Option.isSome_iff_exists.mp
    (show ((start plain (fun _ => "") false intruder (fun _ => none) emptyDb).run
    schema.sem [0, 1, 2, 2]).isSome = true by decide +kernel)
  have horg : ∀ i, (intruder i).orgId = (twoMaps i).orgId := by
    intro i
    rcases i with _ | _ | i <;> rfl
  have hsame : ∀ i, (twoMaps i).orgId = 1 → intruder i = twoMaps i ∧ (none : Option Nat) = none := by
    intro i hi
    rcases i with _ | _ | i
    · exact ⟨rfl, rfl⟩
    · cases hi
    · exact ⟨rfl, rfl⟩
  have horg₀ : ∀ i, (twoMaps i).orgId = (twoMaps i).orgId := fun _ => rfl
  have hempty : schema.Sound emptyDb.rows emptyDb.drawn := .empty
  obtain ⟨hrows, -, hcalls⟩ := organizations_isolated horg₀ horg hempty hempty rfl rfl hsame (d := 1) (by decide) hc hc'
  exact ⟨c, c', hc, hc', hrows, hcalls 2 rfl⟩

section System
variable {URL : Type} {platform : Platform URL} {metricText : MetricType → String} {allowPrivateTargets : Bool}
  {org : Nat → Nat} {requests : Nat → Request} {faults : Nat → Option Nat} {s : Db}

/-! ## References -/

/-- Foreign keys lead to a row of the organization, and ids without one to no row of another. -/
theorem references_within (horg : ∀ i, (requests i).orgId = org i) (hs : schema.Sound s.rows s.drawn) {c : System}
    (h : Reach schema.sem anyStep (start platform metricText allowPrivateTargets requests faults s) c) :
    ∀ r ∈ c.store.rows, (∀ k ∈ r.refs, ∃ q ∈ c.store.rows, q.key = k ∧ q.orgId = r.orgId) ∧
      ∀ k ∈ r.names, ∀ q ∈ c.store.rows, q.key = k → q.orgId = r.orgId := by
  have hsound := sound_of_start horg hs h
  intro r hr
  exact ⟨hsound.refs r hr, fun k hk => (hsound.names r hr k hk).2⟩

/-- A device, its node, a service, and how the one depends on the other; then a poller and a viewer ask. -/
def wiring : Nat → Request
  | 0 => .registerDevice (ofOrganization 1 .admin) ⟨10, 20, 0⟩ ⟨Servers.sampleIv, Servers.sampleIv, Servers.sampleIv⟩
    ⟨"edge", "192.0.2.1", .router, [], none, 60, .v2c, 161, 1000, 1, some "public", none, none, none, none, none, none, none⟩
  | 1 => .createNode (ofOrganization 1 .admin) ⟨11, 21, 0⟩ ⟨.networkDevice, some 10, "edge", 0, 0⟩
  | 2 => .createNode (ofOrganization 1 .admin) ⟨12, 22, 0⟩ ⟨.service, none, "api", 0, 0⟩
  | 3 => .createDependency (ofOrganization 1 .admin) ⟨13, 23, 0⟩ ⟨11, 12, .dependsOn, .critical, none⟩
  | 4 => .listDevicesForPoller 1 7
  | _ => .listTopology (ofOrganization 1 .viewer) true

def wired : System := start plain (fun _ => "") false wiring (fun _ => none) emptyDb

theorem wired_runs : ∃ c, wired.run schema.sem [0, 0, 1, 1, 1, 2, 3, 3, 3, 3, 4, 5, 5] = some c :=
  Option.isSome_iff_exists.mp (by decide +kernel)

theorem references_within_wired : ∃ c, wired.run schema.sem [0, 0, 1, 1, 1, 2, 3, 3, 3, 3, 4, 5, 5] = some c ∧
    ∀ r ∈ c.store.rows, (∀ k ∈ r.refs, ∃ q ∈ c.store.rows, q.key = k ∧ q.orgId = r.orgId) ∧
      ∀ k ∈ r.names, ∀ q ∈ c.store.rows, q.key = k → q.orgId = r.orgId := by
  obtain ⟨c, hc⟩ := wired_runs
  exact ⟨c, hc, references_within (s := emptyDb) (fun _ => rfl) .empty (.of_run hc)⟩

/-- The map of an organization, as one query would see it. -/
def TopologyGraph.ofDb (s : Db) (orgId : Nat) : TopologyGraph where
  nodes := topologyNode.findMany s fun n => n.orgId == orgId
  edges := serviceDependency.findMany s fun e => e.orgId == orgId

/-- `listTopology` returns it, with the nodes in the order in which they were made, where nothing comes between its queries.
-/
theorem listTopology_ofDb {actor : Requester} (hcan : Auth.can actor.role .topologyRead = true) (nodesFirst : Bool)
    (i : Nat) (s : Db) : (listTopology actor nodesFirst).exec schema.sem i s = some (s, .ok
      { TopologyGraph.ofDb s actor.orgId with
        nodes := (TopologyGraph.ofDb s actor.orgId).nodes.insertionSort fun a b => a.createdAt ≤ b.createdAt }) := by
  rw [listTopology, if_neg (by simp [hcan])]
  cases nodesFirst <;> rfl

structure TopologyGraph.WellFormed (graph : TopologyGraph) : Prop where
  ids : (graph.nodes.map TopologyNode.id).Nodup
  ends : ∀ e ∈ graph.edges, e.parentNodeId ∈ graph.nodes.map TopologyNode.id ∧ e.childNodeId ∈ graph.nodes.map TopologyNode.id
  noLoop : ∀ e ∈ graph.edges, e.parentNodeId ≠ e.childNodeId
  once : ∀ e ∈ graph.edges, ∀ e' ∈ graph.edges, e.parentNodeId = e'.parentNodeId → e.childNodeId = e'.childNodeId →
    e.kind = e'.kind → e = e'
  entities : ∀ n ∈ graph.nodes, ∀ n' ∈ graph.nodes, n.kind = n'.kind → n.refId.isSome = true → n.refId = n'.refId → n = n'

theorem Sound.topology (h : schema.Sound s.rows s.drawn) (orgId : Nat) : (TopologyGraph.ofDb s orgId).WellFormed := by
  have hnode : ∀ n, n ∈ (TopologyGraph.ofDb s orgId).nodes ↔ Row.node n ∈ s.rows ∧ n.orgId = orgId := by
    intro n
    simp only [TopologyGraph.ofDb, Model.findMany, List.mem_filter, topologyNode.mem_all, beq_iff_eq]
    rfl
  have hedge : ∀ e, e ∈ (TopologyGraph.ofDb s orgId).edges ↔ Row.dependency e ∈ s.rows ∧ e.orgId = orgId := by
    intro e
    simp only [TopologyGraph.ofDb, Model.findMany, List.mem_filter, serviceDependency.mem_all, beq_iff_eq]
    rfl
  have hends : ∀ e ∈ (TopologyGraph.ofDb s orgId).edges, ∀ id, (Kind.node, id) ∈ Row.refs (.dependency e) →
      id ∈ (TopologyGraph.ofDb s orgId).nodes.map TopologyNode.id := by
    intro e he id hid
    obtain ⟨he, heo⟩ := (hedge e).mp he
    obtain ⟨q, hq, hqk, hqo⟩ := h.refs _ he _ hid
    obtain ⟨n, rfl⟩ := topologyNode.row_of_key (congrArg Prod.fst hqk)
    exact List.mem_map.mpr ⟨n, (hnode n).mpr ⟨hq, hqo.trans heo⟩, congrArg Prod.snd hqk⟩
  have happart : ∀ r ∈ s.rows, ∀ q ∈ s.rows, r.clash q = true → r = q := by
    intro r hr q hq hclash
    by_contra hne
    have hk : schema.key q ≠ schema.key r := fun hk => hne (h.eq_of_key hr hq hk.symm)
    have := h.apart r hr q hq hk
    rw [show schema.clash r q = true from hclash] at this
    cases this
  constructor
  · have hsub : (TopologyGraph.ofDb s orgId).nodes.Sublist (topologyNode.all s) := List.filter_sublist
    refine List.Nodup.sublist (hsub.map _) ?_
    rw [Model.all, List.map_filterMap]
    have hkeys : (s.rows.filterMap fun r => (topologyNode.read r).map TopologyNode.id) =
        (s.rows.map Row.key).filterMap fun k => if k.1 = .node then some k.2 else none := by
      rw [List.filterMap_map]
      refine List.filterMap_congr fun r _ => ?_
      cases r <;> rfl
    rw [hkeys]
    refine List.Nodup.filterMap (fun a b id ha hb => ?_) h.nodup
    simp only [Option.mem_def, Option.ite_none_right_eq_some, Option.some.injEq] at ha hb
    exact Prod.ext (ha.1.trans hb.1.symm) (ha.2.trans hb.2.symm)
  · exact fun e he => ⟨hends e he _ List.mem_cons_self, hends e he _ (List.mem_cons_of_mem _ List.mem_cons_self)⟩
  · intro e he
    simpa [schema, Row.check] using h.check _ ((hedge e).mp he).1
  · intro e he e' he' hp hc hk
    have heq := happart _ ((hedge e).mp he).1 _ ((hedge e').mp he').1 (by simp [Row.clash, hp, hc, hk])
    exact Row.dependency.inj heq
  · intro n hn n' hn' hk hsome href
    obtain ⟨hn, ho⟩ := (hnode n).mp hn
    obtain ⟨hn', ho'⟩ := (hnode n').mp hn'
    have heq := happart _ hn _ hn' (by simp [Row.clash, hk, hsome, ← href, ho, ho'])
    exact Row.node.inj heq

/-- In any state that is reached. -/
theorem topology_wellFormed (horg : ∀ i, (requests i).orgId = org i) (hs : schema.Sound s.rows s.drawn) {c : System}
    (h : Reach schema.sem anyStep (start platform metricText allowPrivateTargets requests faults s) c) (orgId : Nat) :
    (TopologyGraph.ofDb c.store orgId).WellFormed :=
  Sound.topology (sound_of_start horg hs h) orgId

theorem topology_wellFormed_wired : ∃ c, wired.run schema.sem [0, 0, 1, 1, 1, 2, 3, 3, 3, 3, 4, 5, 5] = some c ∧
    (TopologyGraph.ofDb c.store 1).WellFormed := by
  obtain ⟨c, hc⟩ := wired_runs
  exact ⟨c, hc, topology_wellFormed (s := emptyDb) (fun _ => rfl) .empty (.of_run hc) 1⟩

end System

end IkelyaneMonitor.Tenancy
