import Mathlib.Algebra.Order.Floor.Ring
import Mathlib.Algebra.Order.Ring.Rat
import IkelyaneMonitor.Replay.SkipDuplicates
import IkelyaneMonitor.Replay.Upsert
import IkelyaneMonitor.Telemetry.Metrics

/-!
# Ingestion (`lib/telemetry/ingest.ts`, `modules/network/ingest.ts`, `modules/databases/ingest.ts`)

* `NetworkDevice`, `NetworkInterface`, `DatabaseInstance`, `SlowQueryLog`, `Store` : the tables that a payload is stored in;
* `ingestSnmpDevices` with `upsertInterfaces`, `ingestDatabases`, `ingestSystem`, `ingestTelemetry` : the functions, in the
  order they write. A request runs in one transaction, so an error leaves the store as it was;
* `TelemetryPayload.inWindow` : no time of the payload is refused; `ingestTelemetry_of_inWindow` : what is stored then
  (`Store.put`), device by device (`Store.putDevice`) and database by database (`Store.putDatabase`).

`draw` stands for the ids that the database client draws: the id under which a source is created when it is first seen. The
heartbeat, the inventory of the host and the evaluation of alert rules, which comes after the commit, write to other tables
and are left out; so are the credentials and settings of the rows, which ingestion does not touch. Metric rows are written
in chunks of 5000, which comes to the same as row by row.
-/

namespace IkelyaneMonitor.Telemetry
open Replay

inductive HealthStatus where
  | up | down | unknown
  deriving DecidableEq, Repr

structure NetworkDevice where
  id : Nat
  orgId : Nat
  ipAddress : String
  name : String
  type : DeviceType
  vendor : Option String
  model : Option String
  firmwareVersion : Option String
  serialNumber : Option String
  sysName : Option String
  sysDescr : Option String
  sysLocation : Option String
  sysContact : Option String
  uptimeSeconds : Option Int
  powerWatts : Option ℚ
  pollerHostId : Option Nat
  snmpVersion : SnmpVersion
  status : HealthStatus
  lastPolledAt : Option Int
  deriving DecidableEq

structure NetworkInterface where
  deviceId : Nat
  ifIndex : Nat
  name : String
  «alias» : Option String
  description : Option String
  macAddress : Option String
  speedMbps : Option Nat
  mtu : Option Nat
  adminStatus : OperStatus
  operStatus : OperStatus
  inBps : Int
  outBps : Int
  utilizationPercent : Option ℚ
  packetLossPercent : Option ℚ
  inErrors : Nat
  outErrors : Nat
  crcErrors : Nat
  inDiscards : Nat
  outDiscards : Nat
  lastChangeAt : Option Int
  lastPolledAt : Option Int
  updatedAt : Int
  deriving DecidableEq

structure DatabaseInstance where
  id : Nat
  orgId : Nat
  hostId : Nat
  engine : DatabaseEngine
  name : String
  version : Option String
  endpoint : Option String
  isReplica : Bool
  storageQuotaBytes : Option Nat
  storageUsedBytes : Option Nat
  maxConnections : Option Nat
  activeConnections : Option Nat
  cacheHitRatio : Option ℚ
  deadlocksTotal : Option Nat
  replicationLagSeconds : Option ℚ
  slowQueryThresholdMs : Nat
  status : HealthStatus
  lastPolledAt : Option Int
  deriving DecidableEq

structure SlowQueryLog where
  dbInstanceId : Nat
  capturedAt : Int
  fingerprint : String
  queryText : Option String
  durationMs : ℚ
  calls : Nat
  rowsExamined : Option Nat
  rowsReturned : Option Nat
  databaseName : Option String
  userName : Option String
  deriving DecidableEq

/-! The unique columns of the tables. -/

abbrev DeviceKey := Nat × String
abbrev InterfaceKey := Nat × Nat
abbrev InstanceKey := Nat × Nat × DatabaseEngine × String

def NetworkDevice.key (d : NetworkDevice) : DeviceKey := (d.orgId, d.ipAddress)
def NetworkInterface.key (n : NetworkInterface) : InterfaceKey := (n.deviceId, n.ifIndex)
def DatabaseInstance.key (d : DatabaseInstance) : InstanceKey := (d.orgId, d.hostId, d.engine, d.name)
def SlowQueryLog.key (q : SlowQueryLog) : Nat × String × Int := (q.dbInstanceId, q.fingerprint, q.capturedAt)

/-- What a drawn id is for. -/
inductive Source where
  | device (key : DeviceKey)
  | database (key : InstanceKey)
  deriving DecidableEq

structure Store where
  devices : List NetworkDevice
  interfaces : List NetworkInterface
  instances : List DatabaseInstance
  metrics : MetricEntries
  slowQueries : List SlowQueryLog
  slow_nodup : (slowQueries.map SlowQueryLog.key).Nodup

def Store.empty : Store where
  devices := []
  interfaces := []
  instances := []
  metrics := ⟨[], List.nodup_nil⟩
  slowQueries := []
  slow_nodup := List.nodup_nil

def MetricEntries.addAll (entries : MetricEntries) (rows : List MetricRow) : MetricEntries where
  rows := insertAll MetricRow.id entries.rows rows
  nodup := nodup_insertAll entries.nodup rows

def Store.addSlowQueries (s : Store) (rows : List SlowQueryLog) : Store :=
  { s with
    slowQueries := insertAll SlowQueryLog.key s.slowQueries rows
    slow_nodup := nodup_insertAll s.slow_nodup rows }

/-- `Math.round`. -/
def mathRound (x : ℚ) : Int := ⌊x + 1 / 2⌋

/-! ## Network devices -/

/-- A port that is reported twice keeps its first place and takes its last values. -/
def byIndex (interfaces : List SnmpInterface) : List SnmpInterface :=
  interfaces.foldl (fun ports port => upsert SnmpInterface.ifIndex port.ifIndex port (fun _ => port) ports) []

/-- The row of a port seen for the first time. -/
def newInterface (deviceId : Nat) (now : Int) (port : SnmpInterface) : NetworkInterface where
  deviceId := deviceId
  ifIndex := port.ifIndex
  name := port.name
  «alias» := none
  description := none
  macAddress := none
  speedMbps := none
  mtu := none
  adminStatus := .unknown
  operStatus := port.operStatus
  inBps := 0
  outBps := 0
  utilizationPercent := none
  packetLossPercent := none
  inErrors := 0
  outErrors := 0
  crcErrors := 0
  inDiscards := 0
  outDiscards := 0
  lastChangeAt := none
  lastPolledAt := none
  updatedAt := now

/-- What was not reported keeps its value; throughput, utilization, loss and status take the new reading. -/
def NetworkInterface.refresh (polledAt now : Int) (port : SnmpInterface) (n : NetworkInterface) : NetworkInterface where
  deviceId := n.deviceId
  ifIndex := n.ifIndex
  name := port.name
  «alias» := port.alias.or n.alias
  description := port.description.or n.description
  macAddress := port.macAddress.or n.macAddress
  speedMbps := port.speedMbps.or n.speedMbps
  mtu := port.mtu.or n.mtu
  adminStatus := port.adminStatus.getD n.adminStatus
  operStatus := port.operStatus
  inBps := mathRound port.inBps
  outBps := mathRound port.outBps
  utilizationPercent := port.utilizationPercent
  packetLossPercent := port.packetLossPercent
  inErrors := port.inErrors.getD n.inErrors
  outErrors := port.outErrors.getD n.outErrors
  crcErrors := port.crcErrors.getD n.crcErrors
  inDiscards := port.inDiscards.getD n.inDiscards
  outDiscards := port.outDiscards.getD n.outDiscards
  lastChangeAt := (port.lastChangeAt.map Timestamp.ms).or n.lastChangeAt
  lastPolledAt := some polledAt
  updatedAt := now

/-- The row after the update from the reported ports. -/
def NetworkInterface.refreshFrom (deviceId : Nat) (ports : List SnmpInterface) (polledAt now : Int) (n : NetworkInterface) :
    NetworkInterface :=
  if n.deviceId = deviceId then
    match lookup SnmpInterface.ifIndex n.ifIndex ports with
    | some port => n.refresh polledAt now port
    | none => n
  else n

def upsertInterfaces (deviceId : Nat) (interfaces : List SnmpInterface) (polledAt now : Int) (s : Store) : Store × Nat :=
  let ports := byIndex interfaces
  let inserted := insertAll NetworkInterface.key s.interfaces (ports.map (newInterface deviceId now))
  ({ s with interfaces := inserted.map (NetworkInterface.refreshFrom deviceId ports polledAt now) }, ports.length)

def healthOf (reachable : Bool) : HealthStatus := if reachable then .up else .down

def newDevice (agent : AuthenticatedAgent) (id : Nat) (device : SnmpDeviceInfo) (time : Int) : NetworkDevice where
  id := id
  orgId := agent.orgId
  ipAddress := device.ipAddress
  name := (device.name.or device.sysName).getD device.ipAddress
  type := device.type.getD .other
  vendor := device.vendor
  model := device.model
  firmwareVersion := device.firmwareVersion
  serialNumber := device.serialNumber
  sysName := device.sysName
  sysDescr := device.sysDescr
  sysLocation := device.sysLocation
  sysContact := device.sysContact
  uptimeSeconds := device.uptimeSeconds.map mathRound
  powerWatts := device.powerWatts
  pollerHostId := some agent.hostId
  snmpVersion := device.snmpVersion.getD .v2c
  status := healthOf device.reachable
  lastPolledAt := some time

/-- A field that was not reported is left as it is stored. -/
def NetworkDevice.refresh (device : SnmpDeviceInfo) (time : Int) (d : NetworkDevice) : NetworkDevice where
  id := d.id
  orgId := d.orgId
  ipAddress := d.ipAddress
  name := d.name
  type := device.type.getD d.type
  vendor := device.vendor.or d.vendor
  model := device.model.or d.model
  firmwareVersion := device.firmwareVersion.or d.firmwareVersion
  serialNumber := device.serialNumber.or d.serialNumber
  sysName := device.sysName.or d.sysName
  sysDescr := device.sysDescr.or d.sysDescr
  sysLocation := device.sysLocation.or d.sysLocation
  sysContact := device.sysContact.or d.sysContact
  uptimeSeconds := (device.uptimeSeconds.map mathRound).or d.uptimeSeconds
  powerWatts := device.powerWatts.or d.powerWatts
  pollerHostId := d.pollerHostId
  snmpVersion := device.snmpVersion.getD d.snmpVersion
  status := healthOf device.reachable
  lastPolledAt := some time

/-! ## Databases -/

def newInstance (agent : AuthenticatedAgent) (id : Nat) (db : DatabaseMetric) (time : Int) : DatabaseInstance where
  id := id
  orgId := agent.orgId
  hostId := agent.hostId
  engine := db.instance.engine
  name := db.instance.name
  version := db.instance.version
  endpoint := db.instance.endpoint
  isReplica := db.instance.isReplica.getD false
  storageQuotaBytes := db.instance.storageQuotaBytes
  storageUsedBytes := db.metrics.storageUsedBytes
  maxConnections := db.instance.maxConnections
  activeConnections := db.metrics.activeConnections
  cacheHitRatio := db.metrics.cacheHitRatio
  deadlocksTotal := db.metrics.deadlocksTotal
  replicationLagSeconds := db.metrics.replicationLagSeconds
  slowQueryThresholdMs := db.instance.slowQueryThresholdMs.getD 1000
  status := healthOf db.reachable
  lastPolledAt := some time

def DatabaseInstance.refresh (db : DatabaseMetric) (time : Int) (d : DatabaseInstance) : DatabaseInstance where
  id := d.id
  orgId := d.orgId
  hostId := d.hostId
  engine := d.engine
  name := d.name
  version := db.instance.version.or d.version
  endpoint := db.instance.endpoint.or d.endpoint
  isReplica := db.instance.isReplica.getD d.isReplica
  storageQuotaBytes := db.instance.storageQuotaBytes.or d.storageQuotaBytes
  storageUsedBytes := db.metrics.storageUsedBytes.or d.storageUsedBytes
  maxConnections := db.instance.maxConnections.or d.maxConnections
  activeConnections := db.metrics.activeConnections.or d.activeConnections
  cacheHitRatio := db.metrics.cacheHitRatio.or d.cacheHitRatio
  deadlocksTotal := db.metrics.deadlocksTotal.or d.deadlocksTotal
  replicationLagSeconds := db.metrics.replicationLagSeconds.or d.replicationLagSeconds
  slowQueryThresholdMs := db.instance.slowQueryThresholdMs.getD d.slowQueryThresholdMs
  status := healthOf db.reachable
  lastPolledAt := some time

def slowQueryRow (dbInstanceId : Nat) (capturedAt : Int) (q : SlowQuery) : SlowQueryLog where
  dbInstanceId := dbInstanceId
  capturedAt := capturedAt
  fingerprint := q.fingerprint
  queryText := q.queryText
  durationMs := q.durationMs
  calls := q.calls.getD 1
  rowsExamined := q.rowsExamined
  rowsReturned := q.rowsReturned
  databaseName := q.databaseName
  userName := q.userName

section Functions
variable (toISOString : Int → String) (draw : Source → Nat)

/-- One turn of the loop of `ingestSnmpDevices`. -/
def ingestSnmpDevice (agent : AuthenticatedAgent) (ctx : IngestContext) (snmp : SnmpDevice) (s : Store) :
    Except HttpError (Store × List MetricRow × Nat) :=
  match parseCollectedAt toISOString snmp.collectedAt ctx ("snmpDevices[" ++ snmp.device.ipAddress ++ "]") with
  | .error e => .error e
  | .ok time =>
    let key : DeviceKey := (agent.orgId, snmp.device.ipAddress)
    let created := newDevice agent (draw (.device key)) snmp.device time
    let s' := { s with
      devices := upsert NetworkDevice.key key created (NetworkDevice.refresh snmp.device time) s.devices }
    let stored := (lookup NetworkDevice.key key s'.devices).getD created
    if snmp.device.reachable then
      let (s'', count) := upsertInterfaces stored.id snmp.interfaces time ctx.now s'
      .ok (s'', deviceMetricRows agent.orgId stored.id snmp time, count)
    else .ok (s', [], 0)

def ingestSnmpDevices (agent : AuthenticatedAgent) (ctx : IngestContext) :
    List SnmpDevice → Store → Except HttpError (Store × List MetricRow × Nat)
  | [], s => .ok (s, [], 0)
  | snmp :: devices, s =>
    match ingestSnmpDevice toISOString draw agent ctx snmp s with
    | .error e => .error e
    | .ok (s', rows, count) =>
      match ingestSnmpDevices agent ctx devices s' with
      | .error e => .error e
      | .ok (s'', rows', count') => .ok (s'', rows ++ rows', count + count')

def slowQueryRows (dbInstanceId : Nat) (ctx : IngestContext) (label : String) :
    List SlowQuery → Except HttpError (List SlowQueryLog)
  | [] => .ok []
  | q :: queries =>
    match parseCollectedAt toISOString q.capturedAt ctx label with
    | .error e => .error e
    | .ok capturedAt =>
      match slowQueryRows dbInstanceId ctx label queries with
      | .error e => .error e
      | .ok rows => .ok (slowQueryRow dbInstanceId capturedAt q :: rows)

/-- One turn of the loop of `ingestDatabases`. -/
def ingestDatabase (agent : AuthenticatedAgent) (ctx : IngestContext) (db : DatabaseMetric) (s : Store) :
    Except HttpError (Store × List MetricRow) :=
  match parseCollectedAt toISOString db.collectedAt ctx ("databases[" ++ db.instance.name ++ "]") with
  | .error e => .error e
  | .ok time =>
    let key : InstanceKey := (agent.orgId, agent.hostId, db.instance.engine, db.instance.name)
    let created := newInstance agent (draw (.database key)) db time
    let s' := { s with
      instances := upsert DatabaseInstance.key key created (DatabaseInstance.refresh db time) s.instances }
    let stored := (lookup DatabaseInstance.key key s'.instances).getD created
    let rows := if db.reachable then databaseMetricRows agent.orgId stored.id db time stored.maxConnections else []
    match slowQueryRows toISOString stored.id ctx ("databases[" ++ db.instance.name ++ "].slowQueries") db.slowQueries with
    | .error e => .error e
    | .ok queries => .ok (s'.addSlowQueries queries, rows)

def ingestDatabases (agent : AuthenticatedAgent) (ctx : IngestContext) :
    List DatabaseMetric → Store → Except HttpError (Store × List MetricRow)
  | [], s => .ok (s, [])
  | db :: databases, s =>
    match ingestDatabase toISOString draw agent ctx db s with
    | .error e => .error e
    | .ok (s', rows) =>
      match ingestDatabases agent ctx databases s' with
      | .error e => .error e
      | .ok (s'', rows') => .ok (s'', rows ++ rows')

def ingestSystem (agent : AuthenticatedAgent) (system : SystemMetrics) (ctx : IngestContext) :
    Except HttpError (List MetricRow) :=
  match parseCollectedAt toISOString system.collectedAt ctx "system" with
  | .error e => .error e
  | .ok time => .ok (systemMetricRows agent.orgId agent.hostId system time)

structure IngestResult where
  metricsReceived : Nat
  metricsStored : Nat
  devices : Nat
  interfaces : Nat
  databases : Nat
  slowQueriesStored : Nat
  deriving DecidableEq, Repr

def ingestTelemetry (agent : AuthenticatedAgent) (payload : TelemetryPayload) (ctx : IngestContext) (s : Store) :
    Except HttpError (Store × IngestResult) :=
  match (payload.system.map fun system => ingestSystem toISOString agent system ctx).getD (.ok []) with
  | .error e => .error e
  | .ok systemRows =>
    match ingestSnmpDevices toISOString draw agent ctx (payload.snmpDevices.getD []) s with
    | .error e => .error e
    | .ok (s₁, deviceRows, interfaces) =>
      match ingestDatabases toISOString draw agent ctx (payload.databases.getD []) s₁ with
      | .error e => .error e
      | .ok (s₂, databaseRows) =>
        let rows := systemRows ++ deviceRows ++ databaseRows
        let metrics := s₂.metrics.addAll rows
        .ok ({ s₂ with metrics := metrics }, {
          metricsReceived := rows.length
          metricsStored := metrics.rows.length - s₂.metrics.rows.length
          devices := (payload.snmpDevices.getD []).length
          interfaces := interfaces
          databases := (payload.databases.getD []).length
          slowQueriesStored := s₂.slowQueries.length - s₁.slowQueries.length })

/-! ## What is stored of a payload in the window -/

def instanceKey (agent : AuthenticatedAgent) (db : DatabaseMetric) : InstanceKey :=
  (agent.orgId, agent.hostId, db.instance.engine, db.instance.name)

def deviceKey (agent : AuthenticatedAgent) (snmp : SnmpDevice) : DeviceKey := (agent.orgId, snmp.device.ipAddress)

def DatabaseMetric.inWindow (ctx : IngestContext) (db : DatabaseMetric) : Bool :=
  ctx.covers db.collectedAt && db.slowQueries.all fun q => ctx.covers q.capturedAt

def TelemetryPayload.inWindow (ctx : IngestContext) (payload : TelemetryPayload) : Bool :=
  (payload.system.all fun system => ctx.covers system.collectedAt) &&
    ((payload.snmpDevices.getD []).all fun snmp => ctx.covers snmp.collectedAt) &&
    (payload.databases.getD []).all (DatabaseMetric.inWindow ctx)

/-- The ids of the rows are the ones that were drawn for them. -/
structure Drawn (s : Store) : Prop where
  devices : ∀ d ∈ s.devices, d.id = draw (.device d.key)
  instances : ∀ d ∈ s.instances, d.id = draw (.database d.key)

theorem drawn_empty (draw : Source → Nat) : Drawn draw Store.empty where
  devices := fun _ => (nomatch ·)
  instances := fun _ => (nomatch ·)

/-- The limit that is stored for an instance. -/
def Store.limit (s : Store) (key : InstanceKey) : Option Nat :=
  (lookup DatabaseInstance.key key s.instances).bind DatabaseInstance.maxConnections

def Store.putDevice (agent : AuthenticatedAgent) (now : Int) (s : Store) (snmp : SnmpDevice) : Store :=
  let key := deviceKey agent snmp
  let s' := { s with
    devices := upsert NetworkDevice.key key (newDevice agent (draw (.device key)) snmp.device snmp.collectedAt.ms)
      (NetworkDevice.refresh snmp.device snmp.collectedAt.ms) s.devices }
  if snmp.device.reachable then (upsertInterfaces (draw (.device key)) snmp.interfaces snmp.collectedAt.ms now s').1 else s'

def slowRows (agent : AuthenticatedAgent) (db : DatabaseMetric) : List SlowQueryLog :=
  db.slowQueries.map fun q => slowQueryRow (draw (.database (instanceKey agent db))) q.capturedAt.ms q

def Store.putDatabase (agent : AuthenticatedAgent) (s : Store) (db : DatabaseMetric) : Store :=
  let key := instanceKey agent db
  Store.addSlowQueries { s with
    instances := upsert DatabaseInstance.key key (newInstance agent (draw (.database key)) db db.collectedAt.ms)
      (DatabaseInstance.refresh db db.collectedAt.ms) s.instances } (slowRows draw agent db)

def systemRows (agent : AuthenticatedAgent) (system : SystemMetrics) : List MetricRow :=
  systemMetricRows agent.orgId agent.hostId system system.collectedAt.ms

def deviceRows (agent : AuthenticatedAgent) (snmp : SnmpDevice) : List MetricRow :=
  if snmp.device.reachable then
    deviceMetricRows agent.orgId (draw (.device (deviceKey agent snmp))) snmp snmp.collectedAt.ms
  else []

/-- The rows of a database, by the limit that is stored for it once the report is. -/
def databaseRows (agent : AuthenticatedAgent) (db : DatabaseMetric) (limit : Option Nat) : List MetricRow :=
  if db.reachable then
    databaseMetricRows agent.orgId (draw (.database (instanceKey agent db))) db db.collectedAt.ms limit
  else []

/-- The rows of the databases of a payload, and the limits afterwards. -/
def databasesRows (agent : AuthenticatedAgent) : List DatabaseMetric → (InstanceKey → Option Nat) → List MetricRow
  | [], _ => []
  | db :: databases, limit =>
    let key := instanceKey agent db
    let limit' := Function.update limit key (db.instance.maxConnections.or (limit key))
    databaseRows draw agent db (limit' key) ++ databasesRows agent databases limit'

def limitsAfter (agent : AuthenticatedAgent) (databases : List DatabaseMetric) (limit : InstanceKey → Option Nat) :
    InstanceKey → Option Nat :=
  databases.foldl (fun limit db =>
    Function.update limit (instanceKey agent db) (db.instance.maxConnections.or (limit (instanceKey agent db)))) limit

variable {draw} {agent : AuthenticatedAgent} {ctx : IngestContext} {s : Store}

@[simp] theorem key_refresh_device (device : SnmpDeviceInfo) (time : Int) (d : NetworkDevice) :
    (d.refresh device time).key = d.key := rfl

@[simp] theorem key_refresh_instance (db : DatabaseMetric) (time : Int) (d : DatabaseInstance) :
    (d.refresh db time).key = d.key := rfl

theorem Drawn.device (h : Drawn draw s) {key : DeviceKey} {d : NetworkDevice}
    (hd : lookup NetworkDevice.key key s.devices = some d) : d.id = draw (.device key) := by
  rw [h.devices d (List.mem_of_find?_eq_some hd), key_of_lookup hd]

theorem Drawn.instance (h : Drawn draw s) {key : InstanceKey} {d : DatabaseInstance}
    (hd : lookup DatabaseInstance.key key s.instances = some d) : d.id = draw (.database key) := by
  rw [h.instances d (List.mem_of_find?_eq_some hd), key_of_lookup hd]

theorem lookup_upsertDevice (agent : AuthenticatedAgent) (devices : List NetworkDevice) (id : Nat) (snmp : SnmpDevice)
    (key : DeviceKey) :
    lookup NetworkDevice.key key (upsert NetworkDevice.key (deviceKey agent snmp)
      (newDevice agent id snmp.device snmp.collectedAt.ms) (NetworkDevice.refresh snmp.device snmp.collectedAt.ms) devices) =
      if key = deviceKey agent snmp then
        some (((lookup NetworkDevice.key (deviceKey agent snmp) devices).map
          (NetworkDevice.refresh snmp.device snmp.collectedAt.ms)).getD (newDevice agent id snmp.device snmp.collectedAt.ms))
      else lookup NetworkDevice.key key devices :=
  lookup_upsert rfl fun _ => rfl

theorem lookup_upsertInstance (agent : AuthenticatedAgent) (instances : List DatabaseInstance) (id : Nat)
    (db : DatabaseMetric) (key : InstanceKey) :
    lookup DatabaseInstance.key key (upsert DatabaseInstance.key (instanceKey agent db)
      (newInstance agent id db db.collectedAt.ms) (DatabaseInstance.refresh db db.collectedAt.ms) instances) =
      if key = instanceKey agent db then
        some (((lookup DatabaseInstance.key (instanceKey agent db) instances).map
          (DatabaseInstance.refresh db db.collectedAt.ms)).getD (newInstance agent id db db.collectedAt.ms))
      else lookup DatabaseInstance.key key instances :=
  lookup_upsert rfl fun _ => rfl

/-- The instance after its report is stored. -/
theorem lookup_putDatabase (db : DatabaseMetric) (key : InstanceKey) :
    lookup DatabaseInstance.key key (s.putDatabase draw agent db).instances =
      if key = instanceKey agent db then
        some (((lookup DatabaseInstance.key (instanceKey agent db) s.instances).map
          (DatabaseInstance.refresh db db.collectedAt.ms)).getD
            (newInstance agent (draw (.database (instanceKey agent db))) db db.collectedAt.ms))
      else lookup DatabaseInstance.key key s.instances :=
  lookup_upsertInstance agent _ _ db key

theorem limit_putDatabase (db : DatabaseMetric) : (s.putDatabase draw agent db).limit =
    Function.update s.limit (instanceKey agent db) (db.instance.maxConnections.or (s.limit (instanceKey agent db))) := by
  funext key
  rw [Store.limit, lookup_putDatabase]
  by_cases hkey : key = instanceKey agent db
  · subst hkey
    rw [if_pos rfl, Function.update_self, Store.limit]
    cases lookup DatabaseInstance.key (instanceKey agent db) s.instances with
    | none => simp [newInstance]
    | some d => simp [DatabaseInstance.refresh]
  · rw [if_neg hkey, Function.update_of_ne hkey, Store.limit]

theorem Drawn.putDatabase (h : Drawn draw s) (agent : AuthenticatedAgent) (db : DatabaseMetric) :
    Drawn draw (s.putDatabase draw agent db) where
  devices := h.devices
  instances := by
    intro d hd
    rcases mem_upsert hd with hold | rfl | ⟨d₀, hd₀, rfl⟩
    · exact h.instances d hold
    · rfl
    · exact h.instances d₀ hd₀

theorem Drawn.putDevice (h : Drawn draw s) (agent : AuthenticatedAgent) (now : Int) (snmp : SnmpDevice) :
    Drawn draw (s.putDevice draw agent now snmp) := by
  have hdevices : ∀ d ∈ (s.putDevice draw agent now snmp).devices, d.id = draw (.device d.key) := by
    intro d hd
    have hd' : d ∈ upsert NetworkDevice.key (deviceKey agent snmp)
        (newDevice agent (draw (.device (deviceKey agent snmp))) snmp.device snmp.collectedAt.ms)
        (NetworkDevice.refresh snmp.device snmp.collectedAt.ms) s.devices := by
      unfold Store.putDevice at hd
      split at hd <;> exact hd
    rcases mem_upsert hd' with hold | rfl | ⟨d₀, hd₀, rfl⟩
    · exact h.devices d hold
    · rfl
    · exact h.devices d₀ hd₀
  refine ⟨hdevices, fun d hd => h.instances d ?_⟩
  unfold Store.putDevice at hd
  split at hd <;> exact hd

theorem ingestSnmpDevice_of_covers (agent : AuthenticatedAgent) (h : Drawn draw s) {snmp : SnmpDevice}
    (hw : ctx.covers snmp.collectedAt = true) :
    ∃ count, ingestSnmpDevice toISOString draw agent ctx snmp s =
      .ok (s.putDevice draw agent ctx.now snmp, deviceRows draw agent snmp, count) := by
  have hparse : ∀ label, parseCollectedAt toISOString snmp.collectedAt ctx label = .ok snmp.collectedAt.ms :=
    fun label => if_pos hw
  -- the row that was updated, or created, has the id that was drawn for it
  have hid : ((lookup NetworkDevice.key (deviceKey agent snmp) (upsert NetworkDevice.key (deviceKey agent snmp)
      (newDevice agent (draw (.device (deviceKey agent snmp))) snmp.device snmp.collectedAt.ms)
      (NetworkDevice.refresh snmp.device snmp.collectedAt.ms) s.devices)).getD
        (newDevice agent (draw (.device (deviceKey agent snmp))) snmp.device snmp.collectedAt.ms)).id =
      draw (.device (deviceKey agent snmp)) := by
    rw [lookup_upsertDevice, if_pos rfl, Option.getD_some]
    cases hd : lookup NetworkDevice.key (deviceKey agent snmp) s.devices with
    | none => rfl
    | some d =>
        change d.id = _
        exact h.device hd
  simp only [deviceKey] at hid
  simp only [ingestSnmpDevice, hparse, Store.putDevice, deviceRows, deviceKey]
  split
  · exact ⟨_, by rw [hid]⟩
  · exact ⟨_, rfl⟩

theorem ingestSnmpDevices_of_covers (agent : AuthenticatedAgent) (h : Drawn draw s) {devices : List SnmpDevice}
    (hw : ∀ snmp ∈ devices, ctx.covers snmp.collectedAt = true) :
    ∃ count, ingestSnmpDevices toISOString draw agent ctx devices s =
      .ok (devices.foldl (Store.putDevice draw agent ctx.now) s, devices.flatMap (deviceRows draw agent), count) := by
  induction devices generalizing s with
  | nil => exact ⟨0, rfl⟩
  | cons snmp devices ih =>
      obtain ⟨count, hone⟩ := ingestSnmpDevice_of_covers toISOString agent h (hw snmp List.mem_cons_self)
      obtain ⟨count', hrest⟩ := ih (h.putDevice agent ctx.now snmp) fun d hd => hw d (List.mem_cons_of_mem _ hd)
      exact ⟨count + count', by simp only [ingestSnmpDevices, hone, hrest, List.foldl_cons, List.flatMap_cons]⟩

theorem slowQueryRows_of_covers {id : Nat} {label : String} {queries : List SlowQuery}
    (hw : ∀ q ∈ queries, ctx.covers q.capturedAt = true) :
    slowQueryRows toISOString id ctx label queries = .ok (queries.map fun q => slowQueryRow id q.capturedAt.ms q) := by
  induction queries with
  | nil => rfl
  | cons q queries ih =>
      have hparse : parseCollectedAt toISOString q.capturedAt ctx label = .ok q.capturedAt.ms :=
        if_pos (hw q List.mem_cons_self)
      simp only [slowQueryRows, hparse, ih fun q hq => hw q (List.mem_cons_of_mem _ hq), List.map_cons]

theorem ingestDatabase_of_inWindow (agent : AuthenticatedAgent) (h : Drawn draw s) {db : DatabaseMetric}
    (hw : db.inWindow ctx = true) :
    ingestDatabase toISOString draw agent ctx db s =
      .ok (s.putDatabase draw agent db,
        databaseRows draw agent db (db.instance.maxConnections.or (s.limit (instanceKey agent db)))) := by
  rw [DatabaseMetric.inWindow, Bool.and_eq_true, List.all_eq_true] at hw
  have hparse : ∀ label, parseCollectedAt toISOString db.collectedAt ctx label = .ok db.collectedAt.ms :=
    fun label => if_pos hw.1
  have hlookup := lookup_upsertInstance agent s.instances (draw (.database (instanceKey agent db))) db
    (instanceKey agent db)
  rw [if_pos rfl] at hlookup
  simp only [instanceKey] at hlookup
  simp only [ingestDatabase, hparse, hlookup, slowQueryRows_of_covers toISOString hw.2, Option.getD_some]
  cases hd : lookup DatabaseInstance.key (instanceKey agent db) s.instances with
  | none =>
      simp only [instanceKey] at hd
      simp only [hd, Option.map_none, Option.getD_none, Store.putDatabase, slowRows, databaseRows, Store.limit, instanceKey,
        newInstance, Option.bind_none, Option.or_none]
  | some d =>
      have hid := h.instance hd
      simp only [instanceKey] at hd hid
      simp only [hd, Option.map_some, Option.getD_some, Store.putDatabase, slowRows, databaseRows, Store.limit, instanceKey,
        DatabaseInstance.refresh, Option.bind_some, hid]

theorem ingestDatabases_of_inWindow (agent : AuthenticatedAgent) (h : Drawn draw s) {databases : List DatabaseMetric}
    (hw : ∀ db ∈ databases, db.inWindow ctx = true) :
    ingestDatabases toISOString draw agent ctx databases s =
      .ok (databases.foldl (Store.putDatabase draw agent) s, databasesRows draw agent databases s.limit) := by
  induction databases generalizing s with
  | nil => rfl
  | cons db databases ih =>
      have hone := ingestDatabase_of_inWindow toISOString agent h (hw db List.mem_cons_self)
      have hrest := ih (h.putDatabase agent db) fun d hd => hw d (List.mem_cons_of_mem _ hd)
      simp only [ingestDatabases, hone, hrest, List.foldl_cons, databasesRows, limit_putDatabase, Function.update_self]

/-- The metric rows of a payload, by the limits stored before it. -/
def metricRows (draw : Source → Nat) (agent : AuthenticatedAgent) (payload : TelemetryPayload)
    (limit : InstanceKey → Option Nat) : List MetricRow :=
  (payload.system.map (systemRows agent)).getD [] ++ (payload.snmpDevices.getD []).flatMap (deviceRows draw agent) ++
    databasesRows draw agent (payload.databases.getD []) limit

def Store.put (draw : Source → Nat) (agent : AuthenticatedAgent) (now : Int) (payload : TelemetryPayload) (s : Store) :
    Store :=
  let s' := (payload.databases.getD []).foldl (Store.putDatabase draw agent)
    ((payload.snmpDevices.getD []).foldl (Store.putDevice draw agent now) s)
  { s' with metrics := s.metrics.addAll (metricRows draw agent payload s.limit) }

section Kept
variable (draw agent)

theorem putDevice_kept (now : Int) (s : Store) (snmp : SnmpDevice) :
    (s.putDevice draw agent now snmp).instances = s.instances ∧ (s.putDevice draw agent now snmp).metrics = s.metrics ∧
      (s.putDevice draw agent now snmp).slowQueries = s.slowQueries := by
  unfold Store.putDevice
  split <;> exact ⟨rfl, rfl, rfl⟩

theorem putDevices_kept (now : Int) (devices : List SnmpDevice) (s : Store) :
    (devices.foldl (Store.putDevice draw agent now) s).instances = s.instances ∧
      (devices.foldl (Store.putDevice draw agent now) s).metrics = s.metrics ∧
      (devices.foldl (Store.putDevice draw agent now) s).slowQueries = s.slowQueries := by
  induction devices generalizing s with
  | nil => exact ⟨rfl, rfl, rfl⟩
  | cons snmp devices ih =>
      obtain ⟨hi, hm, hq⟩ := ih (s.putDevice draw agent now snmp)
      obtain ⟨hi', hm', hq'⟩ := putDevice_kept draw agent now s snmp
      exact ⟨hi.trans hi', hm.trans hm', hq.trans hq'⟩

theorem putDatabases_kept (databases : List DatabaseMetric) (s : Store) :
    (databases.foldl (Store.putDatabase draw agent) s).devices = s.devices ∧
      (databases.foldl (Store.putDatabase draw agent) s).interfaces = s.interfaces ∧
      (databases.foldl (Store.putDatabase draw agent) s).metrics = s.metrics ∧
      (databases.foldl (Store.putDatabase draw agent) s).slowQueries =
        insertAll SlowQueryLog.key s.slowQueries (databases.flatMap (slowRows draw agent)) ∧
      (databases.foldl (Store.putDatabase draw agent) s).limit = limitsAfter agent databases s.limit := by
  induction databases generalizing s with
  | nil => exact ⟨rfl, rfl, rfl, rfl, rfl⟩
  | cons db databases ih =>
      obtain ⟨hd, hn, hm, hq, hl⟩ := ih (s.putDatabase draw agent db)
      refine ⟨hd, hn, hm, ?_, ?_⟩
      · rw [List.foldl_cons, hq, List.flatMap_cons, insertAll_append]
        rfl
      · rw [List.foldl_cons, hl, limit_putDatabase]
        rfl

end Kept

theorem Drawn.put (h : Drawn draw s) (agent : AuthenticatedAgent) (now : Int) (payload : TelemetryPayload) :
    Drawn draw (s.put draw agent now payload) := by
  have hdevices : ∀ (devices : List SnmpDevice) (s : Store), Drawn draw s →
      Drawn draw (devices.foldl (Store.putDevice draw agent now) s) := by
    intro devices
    induction devices with
    | nil => exact fun s hs => hs
    | cons snmp devices ih => exact fun s hs => ih _ (hs.putDevice agent now snmp)
  have hdatabases : ∀ (databases : List DatabaseMetric) (s : Store), Drawn draw s →
      Drawn draw (databases.foldl (Store.putDatabase draw agent) s) := by
    intro databases
    induction databases with
    | nil => exact fun s hs => hs
    | cons db databases ih => exact fun s hs => ih _ (hs.putDatabase agent db)
  have hput := hdatabases (payload.databases.getD []) _ (hdevices (payload.snmpDevices.getD []) s h)
  exact ⟨hput.devices, hput.instances⟩

/-- A payload in the window is stored, and the counts say how many rows are new. -/
theorem ingestTelemetry_of_inWindow (agent : AuthenticatedAgent) (h : Drawn draw s) {payload : TelemetryPayload}
    (hw : payload.inWindow ctx = true) :
    ∃ result, ingestTelemetry toISOString draw agent payload ctx s = .ok (s.put draw agent ctx.now payload, result) ∧
      result.metricsStored = (s.put draw agent ctx.now payload).metrics.rows.length - s.metrics.rows.length ∧
      result.slowQueriesStored = (s.put draw agent ctx.now payload).slowQueries.length - s.slowQueries.length := by
  simp only [TelemetryPayload.inWindow, Bool.and_eq_true, List.all_eq_true] at hw
  obtain ⟨⟨hsystem, hdevices⟩, hdatabases⟩ := hw
  have hrows : (payload.system.map fun system => ingestSystem toISOString agent system ctx).getD (.ok []) =
      .ok ((payload.system.map (systemRows agent)).getD []) := by
    cases hsys : payload.system with
    | none => rfl
    | some system =>
        rw [hsys, Option.all_some] at hsystem
        have hparse : parseCollectedAt toISOString system.collectedAt ctx "system" = .ok system.collectedAt.ms :=
          if_pos hsystem
        simp only [Option.map_some, Option.getD_some, ingestSystem, hparse, systemRows]
  obtain ⟨count, hnetwork⟩ := ingestSnmpDevices_of_covers toISOString agent h hdevices
  obtain ⟨hinstances, hmetrics, hslow⟩ := putDevices_kept draw agent ctx.now (payload.snmpDevices.getD []) s
  have hdrawn : Drawn draw ((payload.snmpDevices.getD []).foldl (Store.putDevice draw agent ctx.now) s) := by
    have hput := h.put agent ctx.now { payload with databases := none }
    exact ⟨hput.devices, hput.instances⟩
  have hlimit : ((payload.snmpDevices.getD []).foldl (Store.putDevice draw agent ctx.now) s).limit = s.limit := by
    funext key
    rw [Store.limit, hinstances, Store.limit]
  have hdb := ingestDatabases_of_inWindow toISOString agent hdrawn hdatabases
  rw [hlimit] at hdb
  obtain ⟨-, -, hmetrics', -, -⟩ := putDatabases_kept draw agent (payload.databases.getD [])
    ((payload.snmpDevices.getD []).foldl (Store.putDevice draw agent ctx.now) s)
  simp only [ingestTelemetry, hrows, hnetwork, hdb, hmetrics', hmetrics, hslow]
  exact ⟨_, rfl, rfl, rfl⟩

/-! ## What is not refused is in the window -/

theorem covers_of_parse {time : Timestamp} {label : String} {ms : Int}
    (h : parseCollectedAt toISOString time ctx label = .ok ms) : ctx.covers time = true :=
  ((parseCollectedAt_eq_ok toISOString).mp h).1

theorem covers_of_ingestSnmpDevices {devices : List SnmpDevice} {s : Store} {result : Store × List MetricRow × Nat}
    (h : ingestSnmpDevices toISOString draw agent ctx devices s = .ok result) :
    ∀ snmp ∈ devices, ctx.covers snmp.collectedAt = true := by
  induction devices generalizing s result with
  | nil => exact fun _ => (nomatch ·)
  | cons snmp devices ih =>
      rw [ingestSnmpDevices] at h
      split at h
      · cases h
      rename_i hone
      split at h
      · cases h
      rename_i hrest
      refine List.forall_mem_cons.mpr ⟨?_, ih hrest⟩
      unfold ingestSnmpDevice at hone
      split at hone
      · cases hone
      rename_i hparse
      exact covers_of_parse toISOString hparse

theorem covers_of_slowQueryRows {id : Nat} {label : String} {queries : List SlowQuery} {rows : List SlowQueryLog}
    (h : slowQueryRows toISOString id ctx label queries = .ok rows) : ∀ q ∈ queries, ctx.covers q.capturedAt = true := by
  induction queries generalizing rows with
  | nil => exact fun _ => (nomatch ·)
  | cons q queries ih =>
      rw [slowQueryRows] at h
      split at h
      · cases h
      rename_i hparse
      split at h
      · cases h
      rename_i hrest
      exact List.forall_mem_cons.mpr ⟨covers_of_parse toISOString hparse, ih hrest⟩

theorem inWindow_of_ingestDatabases {databases : List DatabaseMetric} {s : Store} {result : Store × List MetricRow}
    (h : ingestDatabases toISOString draw agent ctx databases s = .ok result) :
    ∀ db ∈ databases, db.inWindow ctx = true := by
  induction databases generalizing s result with
  | nil => exact fun _ => (nomatch ·)
  | cons db databases ih =>
      rw [ingestDatabases] at h
      split at h
      · cases h
      rename_i hone
      split at h
      · cases h
      rename_i hrest
      refine List.forall_mem_cons.mpr ⟨?_, ih hrest⟩
      simp only [ingestDatabase] at hone
      split at hone
      · cases hone
      rename_i hparse
      split at hone
      · cases hone
      rename_i hslow
      rw [DatabaseMetric.inWindow, Bool.and_eq_true, List.all_eq_true]
      exact ⟨covers_of_parse toISOString hparse, covers_of_slowQueryRows toISOString hslow⟩

theorem inWindow_of_ingestTelemetry {payload : TelemetryPayload} {s : Store} {result : Store × IngestResult}
    (h : ingestTelemetry toISOString draw agent payload ctx s = .ok result) : payload.inWindow ctx = true := by
  unfold ingestTelemetry at h
  split at h
  · cases h
  rename_i hsystem
  split at h
  · cases h
  rename_i hdevices
  split at h
  · cases h
  rename_i hdatabases
  simp only [TelemetryPayload.inWindow, Bool.and_eq_true, List.all_eq_true]
  refine ⟨⟨?_, covers_of_ingestSnmpDevices toISOString hdevices⟩, inWindow_of_ingestDatabases toISOString hdatabases⟩
  cases hsys : payload.system with
  | none => rfl
  | some system =>
      rw [hsys, Option.map_some, Option.getD_some, ingestSystem] at hsystem
      split at hsystem
      · cases hsystem
      rename_i hparse
      exact covers_of_parse toISOString hparse

end Functions

end IkelyaneMonitor.Telemetry
