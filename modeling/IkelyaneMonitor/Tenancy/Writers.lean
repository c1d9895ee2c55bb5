import IkelyaneMonitor.Relational.Open
import IkelyaneMonitor.Tenancy.Serial

/-!
# What else writes the tables

* `TelemetryReport` : what an agent reports (`lib/telemetry/ingest.ts` and the `ingest.ts` of the modules), with what becomes
  of hosts, devices and databases by it;
* `Writer`, `Writer.apply` : the transaction of a report, of `scripts/provision-host.ts`, and of a runner of the checks
  (`modules/saas/runner/runner.ts`); they leave no entry;
* `Wrote d kinds s t` : statements of organization `d` on tables of `kinds`, each of which adds a row that is enabled or edits
  one and leaves its switch;
* `Writer.wrote`, `writers_mind` : so every transaction does, and it keeps what the requests count on.

A report is one that was authenticated and whose times were accepted; one that is refused, or fails half-way, changes nothing.
-/

namespace IkelyaneMonitor.Tenancy
open Interleave Relational
open Crypto (Token encryptSecret)
open Remediation (RemediationMode)
open Telemetry (AgentInfo AuthenticatedAgent DatabaseMetric HostInventory RemediationPolicy SnmpDevice TelemetryPayload
  hostSecretAad)

/-- A statement of a transaction; `none` where it fails, and the transaction with it. -/
def writeRow (w : Write Row Key) (s : Db) : Option Db :=
  if schema.fresh [w] s.drawn then
    match schema.perform w s.rows with
    | some (rows, 1) => some ⟨rows, schema.draw w s.drawn, s.log⟩
    | _ => none
  else none

/-- `upsert` : the row of the unique columns is edited, or a new one added. -/
def Model.upsert {τ : Type} (m : Model τ) (p : τ → Bool) (new : τ) (f : τ → τ) (s : Db) : Option Db :=
  match m.findFirst s p with
  | none => writeRow (m.create new) s
  | some x => writeRow (m.updateMany (m.id x) (fun _ => true) f) s

/-! ## Reports -/

structure TelemetryReport where
  agent : AuthenticatedAgent
  payload : TelemetryPayload
  now : Int
  /-- The ids of the rows that it adds. -/
  draw : Telemetry.Source → Nat

/-- `recordHeartbeat` -/
def heartbeat (agent : AuthenticatedAgent) (info : AgentInfo) (now : Int) (host : MonitoredHost) : MonitoredHost :=
  { host with
    status := .UP
    lastSeenAt := some now
    agentVersion := some info.version
    remediationMode := some ((info.remediation.map RemediationPolicy.mode).getD .disabled)
    remediationAllowlist :=
      (info.remediation.filter fun policy => policy.mode == .allowlist).elim [] RemediationPolicy.allowedSha256
    firstSeenAt := if agent.firstSeenAt.isSome then host.firstSeenAt else some now }

/-- The columns of the inventory that are kept here. -/
def inventoried (inv : HostInventory) (host : MonitoredHost) : MonitoredHost :=
  { host with
    osFamily := inv.osFamily
    agentVersion := inv.agentVersion.or host.agentVersion }

/-- A device that a report adds, with the defaults of its columns. -/
def discoveredDevice (r : TelemetryReport) (ip : String) (snmp : SnmpDevice) : NetworkDevice :=
  { Telemetry.newDevice r.agent (r.draw (.device (r.agent.orgId, ip))) snmp.device snmp.collectedAt.ms with
    ipAddress := ip
    tags := []
    enabled := true
    pollIntervalSec := 60
    snmpPort := 161
    snmpTimeoutMs := 3000
    snmpRetries := 1
    snmpCommunityEnc := none
    snmpV3Username := none
    snmpV3SecurityLevel := none
    snmpV3AuthProtocol := none
    snmpV3AuthKeyEnc := none
    snmpV3PrivProtocol := none
    snmpV3PrivKeyEnc := none
    snmpV3ContextName := none
    createdAt := r.now }

def refreshedDevice (snmp : SnmpDevice) (device : NetworkDevice) : NetworkDevice :=
  { device with toNetworkDevice := device.toNetworkDevice.refresh snmp.device snmp.collectedAt.ms }

def healthOf (reachable : Bool) : Saas.HealthStatus := if reachable then .UP else .DOWN

def discoveredDatabase (r : TelemetryReport) (db : DatabaseMetric) : DatabaseInstance where
  id := r.draw (.database (r.agent.orgId, r.agent.hostId, db.instance.engine, db.instance.name))
  orgId := r.agent.orgId
  hostId := some r.agent.hostId
  name := db.instance.name
  engine := db.instance.engine
  version := db.instance.version
  endpoint := db.instance.endpoint
  isReplica := db.instance.isReplica.getD false
  tags := []
  enabled := true
  storageQuotaBytes := db.instance.storageQuotaBytes
  storageUsedBytes := db.metrics.storageUsedBytes
  maxConnections := db.instance.maxConnections
  activeConnections := db.metrics.activeConnections
  cacheHitRatio := db.metrics.cacheHitRatio
  deadlocksTotal := db.metrics.deadlocksTotal
  replicationLagSeconds := db.metrics.replicationLagSeconds
  slowQueryThresholdMs := db.instance.slowQueryThresholdMs.getD 1000
  status := healthOf db.reachable
  lastPolledAt := some db.collectedAt.ms
  createdAt := r.now

/-- A field that was not reported is left as it is stored. -/
def refreshedDatabase (db : DatabaseMetric) (d : DatabaseInstance) : DatabaseInstance :=
  { d with
    version := db.instance.version.or d.version
    endpoint := db.instance.endpoint.or d.endpoint
    isReplica := db.instance.isReplica.getD d.isReplica
    storageQuotaBytes := db.instance.storageQuotaBytes.or d.storageQuotaBytes
    storageUsedBytes := db.metrics.storageUsedBytes.or d.storageUsedBytes
    maxConnections := db.instance.maxConnections.or d.maxConnections
    activeConnections := db.metrics.activeConnections.or d.activeConnections
    cacheHitRatio := db.metrics.cacheHitRatio.or d.cacheHitRatio
    deadlocksTotal := db.metrics.deadlocksTotal.or d.deadlocksTotal
    replicationLagSeconds := db.metrics.replicationLagSeconds.or d.replicationLagSeconds
    slowQueryThresholdMs := db.instance.slowQueryThresholdMs.getD d.slowQueryThresholdMs
    status := healthOf db.reachable
    lastPolledAt := some db.collectedAt.ms }

def TelemetryReport.ingestSystem (r : TelemetryReport) (s : Db) : Option Db :=
  match r.payload.system.bind fun system => system.inventory with
  | none => some s
  | some inv => writeRow (monitoredHost.updateMany r.agent.hostId (fun _ => true) (inventoried inv)) s

def TelemetryReport.ingestDatabase (r : TelemetryReport) (s : Db) (db : DatabaseMetric) : Option Db :=
  databaseInstance.upsert (fun d => d.orgId == r.agent.orgId && d.hostId == some r.agent.hostId &&
    d.engine == db.instance.engine && d.name == db.instance.name) (discoveredDatabase r db) (refreshedDatabase db) s

section Platform
variable {URL : Type} (platform : Platform URL)

/-- The address is the one that the column stores. -/
def TelemetryReport.ingestSnmpDevice (r : TelemetryReport) (s : Db) (snmp : SnmpDevice) : Option Db :=
  (platform.inet snmp.device.ipAddress).bind fun ip =>
    networkDevice.upsert (fun d => d.orgId == r.agent.orgId && d.ipAddress == ip) (discoveredDevice r ip snmp)
      (refreshedDevice snmp) s

/-- `ingestTelemetry`, of an agent of a host that there is. -/
def TelemetryReport.apply (r : TelemetryReport) (s : Db) : Option Db :=
  if (monitoredHost.findFirst s fun h => h.id == r.agent.hostId && h.orgId == r.agent.orgId).isSome then
    (writeRow (monitoredHost.updateMany r.agent.hostId (fun _ => true) (heartbeat r.agent r.payload.agent r.now)) s).bind
      fun s => (r.ingestSystem s).bind fun s =>
        ((r.payload.snmpDevices.getD []).foldlM (r.ingestSnmpDevice platform) s).bind fun s =>
          (r.payload.databases.getD []).foldlM r.ingestDatabase s
  else none

/-! ## All writers -/

inductive Writer where
  | report (r : TelemetryReport)
  /-- `key` and `secret` are what `generateAgentCredentials` draws. -/
  | provisionHost (orgId : Nat) (hostname : String) (displayName : Option String) (key secret : String) (iv : Token)
      (draws : Draws)
  /-- The checks that a claim takes, whichever they are. -/
  | claimDueChecks (ids : List Nat) (now : Int)
  | recordResult (check : Saas.ClaimedCheck) (result : Saas.ProbeResult) (now : Int)

def Writer.apply (writer : Writer) (s : Db) : Option Db :=
  match writer with
  | .report r => r.apply platform s
  | .provisionHost orgId hostname displayName key secret iv draws =>
    let keyId := "ikm_" ++ key
    writeRow (monitoredHost.create
      { registered orgId hostname none keyId (encryptSecret platform.gcm iv secret (hostSecretAad keyId)) draws with
        displayName := displayName }) s
  | .claimDueChecks ids now =>
    ids.foldlM (fun s id => writeRow (endpointCheck.updateMany id (fun _ => true) fun e =>
      { e with toEndpointCheck := e.toEndpointCheck.postponed now }) s) s
  | .recordResult check result now =>
    writeRow (endpointCheck.updateMany check.id (fun e => e.orgId == check.orgId) fun e =>
      { e with toEndpointCheck := e.toEndpointCheck.recorded check result now }) s

end Platform

/-! ## What they leave -/

def Row.enabled : Row → Bool
  | .host r => r.enabled
  | .device r => r.enabled
  | .database r => r.enabled
  | .endpoint r => r.enabled
  | .rule r => r.enabled
  | .action r => r.enabled
  | .node _ | .dependency _ => true

/-- A new row is enabled, an old one stays so or not. -/
def Quiet : Change Row Key → Prop
  | .put r => r.enabled = true ∧ (r.key.1 = .host ∨ r.key.1 = .device ∨ r.key.1 = .database)
  | .edit k f => ∀ r : Row, r.key = k → (f r).key = k ∧ (f r).enabled = r.enabled
  | .drop _ => False

/-- Statements of an organization on tables of these kinds. -/
inductive Wrote (kinds : List Kind) (s : Db) : Db → Prop
  | refl : Wrote kinds s s
  | write {t t' : Db} {d : Nat} {w : Write Row Key} {c : Change Row Key} : Wrote kinds s t →
      schema.Within d t.rows t.drawn w → schema.Does Row.settings w c → Quiet c → (changeKey c).1 ∈ kinds →
      writeRow w t = some t' → Wrote kinds s t'

section Wrote
variable {s t u : Db} {d : Nat} {w : Write Row Key} {kinds : List Kind}

theorem writeRow_eq_some (h : writeRow w s = some t) : schema.fresh [w] s.drawn = true ∧
    schema.perform w s.rows = some (t.rows, 1) ∧ t = ⟨t.rows, schema.draw w s.drawn, s.log⟩ := by
  unfold writeRow at h
  split at h
  · split at h
    · cases h
      exact ⟨‹_›, ‹_›, rfl⟩
    · cases h
  · cases h

theorem writeRow_minded (hs : schema.Sound s.rows s.drawn) (hw : schema.Within d s.rows s.drawn w)
    (h : writeRow w s = some t) : Minded schema s t := by
  obtain ⟨hfresh, hp, ht⟩ := writeRow_eq_some h
  obtain ⟨hnew, -⟩ := Schema.fresh_cons hfresh
  have hdrawn : t.drawn = schema.draw w s.drawn := congrArg Store.drawn ht
  refine ⟨hdrawn ▸ Schema.perform_sound hs hnew hw hp, hdrawn ▸ Schema.subset_draw, by rw [ht],
    fun r' hr' hk => ?_⟩
  rcases Schema.perform_rows hw hp r' hr' with hdraw | h
  · exact absurd hk (hnew _ hdraw)
  · exact h

theorem writeRow_settings (hs : schema.Sound s.rows s.drawn) {c : Change Row Key} (hw : schema.Does Row.settings w c)
    (h : writeRow w s = some t) :
    schema.settings Row.settings t.rows = schema.apply c (schema.settings Row.settings s.rows) := by
  obtain ⟨hfresh, hp, -⟩ := writeRow_eq_some h
  obtain ⟨hnew, -⟩ := Schema.fresh_cons hfresh
  exact Schema.settings_perform settings_blanks ⟨hs.nodup, hs.isDrawn⟩ hnew hp hw

theorem Wrote.minded (hs : schema.Sound s.rows s.drawn) (h : Wrote kinds s t) : Minded schema s t := by
  induction h with
  | refl => exact .refl hs
  | write _ hw _ _ _ hwrite ih => exact ih.trans (writeRow_minded ih.sound hw hwrite)

theorem Wrote.trans (h : Wrote kinds s t) (h' : Wrote kinds t u) : Wrote kinds s u := by
  induction h' with
  | refl => exact h
  | write _ hw hdoes hquiet hkind hwrite ih => exact ih.write hw hdoes hquiet hkind hwrite

theorem Wrote.mono {kinds' : List Kind} (hkinds : kinds ⊆ kinds') (h : Wrote kinds s t) : Wrote kinds' s t := by
  induction h with
  | refl => exact .refl
  | write _ hw hdoes hquiet hkind hwrite ih => exact ih.write hw hdoes hquiet (hkinds hkind) hwrite

theorem key_settings {rows : List Row} {k : Key} {r : Row} (h : schema.settings Row.settings rows k = some r) :
    r.key = k := by
  obtain ⟨q, hq, rfl⟩ := Option.map_eq_some_iff.mp h
  exact (settings_key q).trans (Schema.rowAt_key hq)

theorem rowAt_of_not_drawn {rows : List Row} {drawn : List Key} {k : Key} (h : ∀ r ∈ rows, r.key ∈ drawn) (hk : k ∉ drawn) :
    schema.rowAt k rows = none := by
  refine List.find?_eq_none.mpr fun r hr hrk => hk ?_
  have hkey : r.key = k := eq_of_beq hrk
  exact hkey ▸ h r hr

theorem settings_of_not_drawn (hs : schema.Sound t.rows t.drawn) {k : Key} (hk : k ∉ t.drawn) :
    schema.settings Row.settings t.rows k = none := by
  rw [Schema.settings, rowAt_of_not_drawn hs.isDrawn hk, Option.map_none]

theorem settings_enabled (r : Row) : r.settings.enabled = r.enabled := by cases r <;> rfl

section Model
variable {τ : Type} (m : Model τ)

theorem quiet_put {x : τ} (henabled : (m.row x).enabled = true)
    (hkind : m.kind = .host ∨ m.kind = .device ∨ m.kind = .database) : Quiet (m.put x) := by
  refine ⟨(settings_enabled _).trans henabled, ?_⟩
  rw [settings_key, m.key_row]
  exact hkind

theorem quiet_edit {id : Nat} {f : τ → τ} (hid : ∀ x, m.id (f x) = m.id x)
    (henabled : ∀ x, (m.row (f x)).enabled = (m.row x).enabled) : Quiet (m.edit id f) := by
  intro r hk
  obtain ⟨x, rfl⟩ := m.row_of_key (congrArg Prod.fst hk)
  have hread : m.read (m.row x) = some x := m.read_iff.mpr rfl
  simp only [hread, Option.map_some, Option.getD_some, settings_key, settings_enabled, henabled, and_true]
  rw [m.key_row, hid, ← m.key_row, hk]

theorem changeKey_put (x : τ) : changeKey (m.put x) = (m.kind, m.id x) :=
  (settings_key (m.row x)).trans (m.key_row x)

theorem Wrote.create {x : τ} (h : Wrote kinds s t) (hw : schema.Within d t.rows t.drawn (m.create x))
    (henabled : (m.row x).enabled = true) (hkind : m.kind = .host ∨ m.kind = .device ∨ m.kind = .database)
    (hkinds : m.kind ∈ kinds) (hwrite : writeRow (m.create x) t = some u) : Wrote kinds s u :=
  h.write hw (m.does_create x) (quiet_put m henabled hkind) (by rwa [changeKey_put]) hwrite

/-- An edit that reads no column which is blanked. -/
theorem Wrote.update {id : Nat} {p : τ → Bool} {f g : τ → τ} (h : Wrote kinds s t)
    (hw : schema.Within d t.rows t.drawn (m.updateMany id p f)) (hid : ∀ x, m.id (f x) = m.id x)
    (hid' : ∀ x, m.id (g x) = m.id x) (hf : ∀ x, ∃ y, (m.row x).settings = m.row y ∧ (m.row (f x)).settings =
    (m.row (g y)).settings)
    (henabled : ∀ x, (m.row (g x)).enabled = (m.row x).enabled) (hkinds : m.kind ∈ kinds)
    (hwrite : writeRow (m.updateMany id p f) t = some u) : Wrote kinds s u :=
  h.write hw (m.does_update (g := g) hid hf) (quiet_edit m hid' henabled) hkinds hwrite

theorem Wrote.upsert {p : τ → Bool} {x : τ} {f : τ → τ} (hs : schema.Sound s.rows s.drawn) (h : Wrote kinds s t)
    (hp : ∀ x, p x = true → m.orgId x = d) (hnew : schema.Within d t.rows t.drawn (m.create x))
    (henabled : (m.row x).enabled = true) (hkind : m.kind = .host ∨ m.kind = .device ∨ m.kind = .database)
    (hid : ∀ x, m.id (f x) = m.id x) (horg : ∀ x, m.orgId (f x) = m.orgId x)
    (hrefs : ∀ x, (m.row (f x)).refs = (m.row x).refs) (hnames : ∀ x, (m.row (f x)).names = (m.row x).names)
    (hsettings : ∀ x, (m.row x).settings = m.row x) (hf : ∀ x, (m.row (f x)).enabled = (m.row x).enabled)
    (hkinds : m.kind ∈ kinds) (hwrite : m.upsert p x f t = some u) : Wrote kinds s u := by
  unfold Model.upsert at hwrite
  split at hwrite
  · exact h.create m hnew henabled hkind hkinds hwrite
  · rename_i z hz
    obtain ⟨hmem, hpz⟩ := m.findFirst_eq_some hz
    have hsound := (h.minded hs).sound
    refine h.update m (m.within_update (d := d) (fun y hy hyid _ => ?_) hid horg (fun y k hk => .inl (hrefs y ▸ hk))
      fun y k hk => .inl (hnames y ▸ hk)) hid hid (fun y => ⟨y, hsettings y, rfl⟩) hf hkinds hwrite
    have heq := hsound.eq_of_key hy hmem ((m.key_row y).trans (by rw [hyid]; exact (m.key_row z).symm))
    rw [← m.orgId_row y, heq, m.orgId_row z]
    exact hp z hpz

end Model

end Wrote

/-! ## Each writer -/

section Writers
variable {URL : Type} {platform : Platform URL} {s t u : Db} {kinds : List Kind} {r : TelemetryReport}

/-- A write on the host of an agent. -/
theorem Wrote.host {d id : Nat} {f : MonitoredHost → MonitoredHost} (h : Wrote [.host] s t)
    (hknown : Known schema d (.host, id) t) (hid : ∀ x, (f x).id = x.id) (horg : ∀ x, (f x).orgId = x.orgId)
    (hf : ∀ x, ∃ y, Row.settings (.host x) = .host y ∧ Row.settings (.host (f x)) = Row.settings (.host (f y)))
    (henabled : ∀ x, (f x).enabled = x.enabled)
    (hwrite : writeRow (monitoredHost.updateMany id (fun _ => true) f) t = some u) : Wrote [.host] s u := by
  refine h.update monitoredHost (g := f) (monitoredHost.within_update (d := d) (fun x hx hxid _ => ?_) hid horg
    (fun x k hk => ?_) fun x k hk => ?_) hid hid hf henabled List.mem_cons_self hwrite
  · exact hknown.2 _ hx ((monitoredHost.key_row x).trans (by rw [hxid]; rfl))
  · simp [monitoredHost, Row.refs] at hk
  · simp [monitoredHost, Row.names] at hk

theorem TelemetryReport.ingestSnmpDevice_wrote {snmp : SnmpDevice} (hs : schema.Sound s.rows s.drawn)
    (hknown : Known schema r.agent.orgId (.host, r.agent.hostId) s) (h : Wrote [.device] s t)
    (hwrite : r.ingestSnmpDevice platform t snmp = some u) : Wrote [.device] s u := by
  obtain ⟨ip, -, hwrite⟩ := Option.bind_eq_some_iff.mp hwrite
  refine h.upsert networkDevice (d := r.agent.orgId) (x := discoveredDevice r ip snmp) (f := refreshedDevice snmp) hs
    (fun x hx => ?_) (networkDevice.within_create rfl (fun k hk => ?_)
    fun k hk => ?_) rfl (.inr (.inl rfl)) (fun _ => rfl) (fun _ => rfl) (fun _ => rfl) (fun _ => rfl) (fun _ => rfl)
    (fun _ => rfl) List.mem_cons_self hwrite
  · simp only [Bool.and_eq_true, beq_iff_eq] at hx
    exact hx.1
  · have hk' : k ∈ refTo .host (some r.agent.hostId) := hk
    rw [List.mem_singleton.mp hk']
    exact (h.minded hs).known hknown
  · simp [networkDevice, Row.names] at hk

theorem TelemetryReport.ingestDatabase_wrote {db : DatabaseMetric} (hs : schema.Sound s.rows s.drawn)
    (hknown : Known schema r.agent.orgId (.host, r.agent.hostId) s) (h : Wrote [.database] s t)
    (hwrite : r.ingestDatabase t db = some u) : Wrote [.database] s u := by
  refine h.upsert databaseInstance (d := r.agent.orgId) (x := discoveredDatabase r db) (f := refreshedDatabase db) hs
    (fun x hx => ?_) (databaseInstance.within_create rfl
    (fun k hk => ?_) fun k hk => ?_) rfl (.inr (.inr rfl)) (fun _ => rfl) (fun _ => rfl) (fun _ => rfl) (fun _ => rfl)
    (fun _ => rfl) (fun _ => rfl) List.mem_cons_self hwrite
  · simp only [Bool.and_eq_true, beq_iff_eq] at hx
    exact hx.1.1.1
  · have hk' : k ∈ refTo .host (some r.agent.hostId) := hk
    rw [List.mem_singleton.mp hk']
    exact (h.minded hs).known hknown
  · simp [databaseInstance, Row.names] at hk

/-- The loop over a section of the report. -/
theorem Wrote.foldlM {β : Type} {step : Db → β → Option Db}
    (hstep : ∀ t u x, Wrote kinds s t → step t x = some u → Wrote kinds s u) {xs : List β} (h : Wrote kinds s t)
    (hfold : xs.foldlM step t = some u) : Wrote kinds s u := by
  induction xs generalizing t with
  | nil =>
      cases hfold
      exact h
  | cons x xs ih =>
      simp only [List.foldlM_cons, Option.bind_eq_bind, Option.bind_eq_some_iff] at hfold
      obtain ⟨v, hv, hfold⟩ := hfold
      exact ih (hstep t v x h hv) hfold

/-- Its host, then the devices, then the databases. -/
theorem TelemetryReport.wrote (hs : schema.Sound s.rows s.drawn) (h : r.apply platform s = some t) :
    ∃ s₁ s₂, Wrote [.host] s s₁ ∧ Known schema r.agent.orgId (.host, r.agent.hostId) s₁ ∧
      (r.payload.snmpDevices.getD []).foldlM (r.ingestSnmpDevice platform) s₁ = some s₂ ∧ Wrote [.device] s₁ s₂ ∧
      Wrote [.database] s₂ t := by
  unfold TelemetryReport.apply at h
  split at h
  swap
  · cases h
  rename_i hfound
  have hknown : Known schema r.agent.orgId (.host, r.agent.hostId) s :=
    monitoredHost.knows_of_find hs (fun x hx => by simpa [monitoredHost] using hx) hfound _ List.mem_cons_self
  obtain ⟨s₀, hbeat, h⟩ := Option.bind_eq_some_iff.mp h
  obtain ⟨s₁, hsystem, h⟩ := Option.bind_eq_some_iff.mp h
  obtain ⟨s₂, hdevices, hdatabases⟩ := Option.bind_eq_some_iff.mp h
  have h₀ : Wrote [.host] s s₀ :=
    Wrote.refl.host (f := heartbeat r.agent r.payload.agent r.now) hknown (fun _ => rfl) (fun _ => rfl)
      (fun _ => ⟨_, rfl, rfl⟩) (fun _ => rfl) hbeat
  have h₁ : Wrote [.host] s s₁ := by
    unfold TelemetryReport.ingestSystem at hsystem
    split at hsystem
    · cases hsystem
      exact h₀
    · rename_i inv _
      exact h₀.host (f := inventoried inv) ((h₀.minded hs).known hknown) (fun _ => rfl) (fun _ => rfl)
        (fun _ => ⟨_, rfl, rfl⟩) (fun _ => rfl) hsystem
  have hs₁ := h₁.minded hs
  have h₂ : Wrote [.device] s₁ s₂ :=
    Wrote.refl.foldlM (fun _ _ _ => ingestSnmpDevice_wrote hs₁.sound (hs₁.known hknown)) hdevices
  have hs₂ := h₂.minded hs₁.sound
  exact ⟨s₁, s₂, h₁, hs₁.known hknown, hdevices, h₂,
    Wrote.refl.foldlM (fun _ _ _ => ingestDatabase_wrote hs₂.sound (hs₂.known (hs₁.known hknown))) hdatabases⟩

/-- A write on a check, by id alone. -/
theorem Wrote.check {id : Nat} {p : EndpointCheck → Bool} {f g : EndpointCheck → EndpointCheck}
    (hs : schema.Sound s.rows s.drawn) (h : Wrote [.endpoint] s t) (hid : ∀ x, (f x).id = x.id)
    (horg : ∀ x, (f x).orgId = x.orgId) (hid' : ∀ x, (g x).id = x.id)
    (hf : ∀ x, ∃ y, Row.settings (.endpoint x) = .endpoint y ∧ Row.settings (.endpoint (f x)) =
      Row.settings (.endpoint (g y)))
    (henabled : ∀ x, (g x).enabled = x.enabled)
    (hwrite : writeRow (endpointCheck.updateMany id p f) t = some u) : Wrote [.endpoint] s u := by
  obtain ⟨-, hp, -⟩ := writeRow_eq_some hwrite
  obtain ⟨x, hx, hxid, -, -⟩ := endpointCheck.of_update hp
  have hsound := (h.minded hs).sound
  refine h.update endpointCheck (g := g) (endpointCheck.within_update (d := x.orgId) (fun y hy hyid _ => ?_) hid horg
    (fun y k hk => ?_) fun y k hk => ?_) hid hid' hf henabled List.mem_cons_self hwrite
  · have hkey : schema.key (.endpoint y) = schema.key (.endpoint x) :=
      (endpointCheck.key_row y).trans (by rw [hyid, ← hxid]; rfl)
    rw [Row.endpoint.inj (hsound.eq_of_key hy hx hkey)]
    rfl
  · simp [endpointCheck, Row.refs] at hk
  · simp [endpointCheck, Row.names] at hk

theorem Writer.wrote_provisionHost {orgId : Nat} {hostname : String} {displayName : Option String} {key secret : String}
    {iv : Token} {draws : Draws}
    (h : (Writer.provisionHost orgId hostname displayName key secret iv draws).apply platform s = some t) :
    Wrote [.host] s t := by
  refine Wrote.refl.create monitoredHost (monitoredHost.within_create (d := orgId) rfl (fun k hk => ?_) fun k hk => ?_)
    rfl (.inl rfl) List.mem_cons_self h
  · simp [monitoredHost, Row.refs] at hk
  · simp [monitoredHost, Row.names] at hk

theorem Writer.wrote_claimDueChecks {ids : List Nat} {now : Int} (hs : schema.Sound s.rows s.drawn)
    (h : (Writer.claimDueChecks ids now).apply platform s = some t) : Wrote [.endpoint] s t :=
  Wrote.refl.foldlM (fun _ _ _ ht hu => ht.check
    (f := fun e => { e with toEndpointCheck := e.toEndpointCheck.postponed now }) (g := fun e => e) hs
    (fun _ => rfl) (fun _ => rfl) (fun _ => rfl) (fun _ => ⟨_, rfl, rfl⟩) (fun _ => rfl) hu) h

theorem Writer.wrote_recordResult {check : Saas.ClaimedCheck} {result : Saas.ProbeResult} {now : Int}
    (hs : schema.Sound s.rows s.drawn) (h : (Writer.recordResult check result now).apply platform s = some t) :
    Wrote [.endpoint] s t :=
  Wrote.refl.check (f := fun e => { e with toEndpointCheck := e.toEndpointCheck.recorded check result now })
    (g := fun e => { e with toEndpointCheck := e.toEndpointCheck.recorded check result now }) hs (fun _ => rfl)
    (fun _ => rfl) (fun _ => rfl) (fun _ => ⟨_, rfl, rfl⟩) (fun _ => rfl) h

theorem Writer.wrote {writer : Writer} (hs : schema.Sound s.rows s.drawn) (h : writer.apply platform s = some t) :
    Wrote [.host, .device, .database, .endpoint] s t := by
  cases writer with
  | report r =>
      obtain ⟨s₁, s₂, h₁, -, -, h₂, h₃⟩ := TelemetryReport.wrote hs h
      exact ((h₁.mono (by simp)).trans (h₂.mono (by simp))).trans (h₃.mono (by simp))
  | provisionHost => exact (wrote_provisionHost h).mono (by simp)
  | claimDueChecks => exact (wrote_claimDueChecks hs h).mono (by simp)
  | recordResult => exact (wrote_recordResult hs h).mono (by simp)

theorem writers_mind (platform : Platform URL) : Minds schema (Writer.apply platform) :=
  fun _ _ _ hs h => (Writer.wrote hs h).minded hs

end Writers

/-! ## Beside requests -/

/-- A database with the host of an agent that polls. -/
def pollingDb : Db where
  rows := [.host ⟨⟨7, 1, "poller", "ikm_7", true, none, "", none, none⟩, none, 0, .UNKNOWN, .other, none, none, none, [], 0⟩]
  drawn := [(.host, 7)]
  log := []

theorem pollingDb_sound : schema.Sound pollingDb.rows pollingDb.drawn := by
  constructor <;> simp [pollingDb, schema, Row.key, Row.check, Row.refs, Row.names]

def polledDevice (ip : String) (type : Telemetry.DeviceType) : SnmpDevice :=
  ⟨⟨"", 1000⟩, ⟨ip, none, some type, none, none, none, none, none, none, none, none, none, none, true, none, none, none⟩, []⟩

/-- Its report: a device that may be known, and another one. -/
def polledReport : TelemetryReport where
  agent := ⟨7, 1, "poller", "ikm_7", none, []⟩
  payload := ⟨⟨"1.0.0", none⟩, none, some [polledDevice "192.0.2.1" .switch, polledDevice "192.0.2.9" .ups], none⟩
  now := 1000
  draw := fun | .device _ => 30 | .database _ => 31

def edgeInput (snmpPort : Nat) (snmpCommunity : Option String) : DeviceInput :=
  ⟨"edge", "192.0.2.1", .router, [], some 7, 60, .v2c, snmpPort, 1000, 1, snmpCommunity, none, none, none, none, none, none,
    none⟩

/-- A device is registered and edited, its community left blank; the one that was reported is disabled; the first deleted. -/
def watching : Nat → Request
  | 0 => .registerDevice (ofOrganization 1 .admin) ⟨10, 20, 0⟩ ⟨Servers.sampleIv, Servers.sampleIv, Servers.sampleIv⟩
    (edgeInput 161 (some "public"))
  | 1 => .updateDevice (ofOrganization 1 .admin) ⟨0, 21, 0⟩ ⟨Servers.sampleIv, Servers.sampleIv, Servers.sampleIv⟩ 10
    (edgeInput 1161 (some ""))
  | 2 => .setDeviceEnabled (ofOrganization 1 .admin) ⟨0, 22, 0⟩ 30 false
  | _ => .deleteDevice (ofOrganization 1 .admin) ⟨0, 23, 0⟩ 10

def watched : System := start plain (fun _ => "") false watching (fun _ => none) pollingDb

end IkelyaneMonitor.Tenancy
