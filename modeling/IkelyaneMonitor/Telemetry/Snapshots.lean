import IkelyaneMonitor.Replay.Latest
import IkelyaneMonitor.Telemetry.Replays

/-!
# The latest values

The rows of devices, interfaces and instances keep the values of the report that was stored last. The agent replays what it
buffered after newer samples were stored, so that report may not be the newest.

* `deviceEntries`, `databaseEntries` : the entries of a sequence of requests, in the order they are stored; `ofDevice`,
  `ofPort`, `ofInstance`, `ofColumn` : those that report one row, or one column of it;
* `view_devices`, `view_databases` : a column holds the last entry that reports it;
* `Current` : every row that was reported holds the values of the newest report;
* `InOrder` : the reports of each device and instance arrive in the order they were collected;
* `current_of_inOrder` : the second gives the first, after any sequence; `older_after_newer` : without it.
-/

namespace IkelyaneMonitor.Telemetry
open Replay

/-! ## Entries -/

def deviceEntries (ds : List Delivery) : List (Delivery × SnmpDevice) :=
  ds.flatMap fun d => d.report.devices.map (d, ·)

def databaseEntries (ds : List Delivery) : List (Delivery × DatabaseMetric) :=
  ds.flatMap fun d => d.report.databases.map (d, ·)

def ofDevice (key : DeviceKey) (e : Delivery × SnmpDevice) : Option SnmpDevice :=
  if deviceKey e.1.report.agent e.2 = key then some e.2 else none

/-- The report of a port, with the time of the device's: the last one of its index, if the device was reached. -/
def ofPort (draw : Source → Nat) (key : InterfaceKey) (e : Delivery × SnmpDevice) : Option (Int × SnmpInterface) :=
  if e.2.device.reachable && draw (.device (deviceKey e.1.report.agent e.2)) = key.1 then
    (lookup SnmpInterface.ifIndex key.2 (byIndex e.2.interfaces)).map fun port => (e.2.collectedAt.ms, port)
  else none

def ofInstance (key : InstanceKey) (e : Delivery × DatabaseMetric) : Option DatabaseMetric :=
  if instanceKey e.1.report.agent e.2 = key then some e.2 else none

/-- The report of one reading of an instance. -/
def ofColumn {β : Type} (column : DatabaseReadings → Option β) (key : InstanceKey) (e : Delivery × DatabaseMetric) :
    Option (Int × β) :=
  if instanceKey e.1.report.agent e.2 = key then (column e.2.metrics).map fun v => (e.2.collectedAt.ms, v) else none

/-! ## What a run leaves -/

/-- The values that hold for the moment of the poll. -/
structure PortReading where
  lastPolledAt : Option Int
  operStatus : OperStatus
  inBps : Int
  outBps : Int
  utilizationPercent : Option ℚ
  packetLossPercent : Option ℚ
  deriving DecidableEq

def NetworkInterface.reading (n : NetworkInterface) : PortReading :=
  ⟨n.lastPolledAt, n.operStatus, n.inBps, n.outBps, n.utilizationPercent, n.packetLossPercent⟩

def SnmpInterface.reading (time : Int) (port : SnmpInterface) : PortReading :=
  ⟨some time, port.operStatus, mathRound port.inBps, mathRound port.outBps, port.utilizationPercent, port.packetLossPercent⟩

/-- Every row that the requests reported holds the values of the newest report of it. -/
structure Current (draw : Source → Nat) (ds : List Delivery) (s : Store) : Prop where
  devices : ∀ key, (deviceEntries ds).filterMap (ofDevice key) ≠ [] →
    ∃ e, Newest (fun snmp => snmp.collectedAt.ms) ((deviceEntries ds).filterMap (ofDevice key)) e ∧
      ∃ d, lookup NetworkDevice.key key s.devices = some d ∧ d.status = healthOf e.device.reachable ∧
        d.lastPolledAt = some e.collectedAt.ms
  interfaces : ∀ key, (deviceEntries ds).filterMap (ofPort draw key) ≠ [] →
    ∃ e, Newest Prod.fst ((deviceEntries ds).filterMap (ofPort draw key)) e ∧
      ∃ n, lookup NetworkInterface.key key s.interfaces = some n ∧ n.reading = e.2.reading e.1
  instances : ∀ key, (databaseEntries ds).filterMap (ofInstance key) ≠ [] →
    ∃ e, Newest (fun db => db.collectedAt.ms) ((databaseEntries ds).filterMap (ofInstance key)) e ∧
      ∃ d, lookup DatabaseInstance.key key s.instances = some d ∧ d.status = healthOf e.reachable ∧
        d.lastPolledAt = some e.collectedAt.ms
  connections : ∀ key, (databaseEntries ds).filterMap (ofColumn DatabaseReadings.activeConnections key) ≠ [] →
    ∃ e, Newest Prod.fst ((databaseEntries ds).filterMap (ofColumn DatabaseReadings.activeConnections key)) e ∧
      ∃ d, lookup DatabaseInstance.key key s.instances = some d ∧ d.activeConnections = some e.2
  lag : ∀ key, (databaseEntries ds).filterMap (ofColumn DatabaseReadings.replicationLagSeconds key) ≠ [] →
    ∃ e, Newest Prod.fst ((databaseEntries ds).filterMap (ofColumn DatabaseReadings.replicationLagSeconds key)) e ∧
      ∃ d, lookup DatabaseInstance.key key s.instances = some d ∧ d.replicationLagSeconds = some e.2

/-- No report of a device or an instance comes after a newer one. -/
structure InOrder (draw : Source → Nat) (ds : List Delivery) : Prop where
  devices : ∀ id, Chronological (fun e => e.2.collectedAt.ms)
    ((deviceEntries ds).filter fun e => draw (.device (deviceKey e.1.report.agent e.2)) = id)
  databases : ∀ key, Chronological (fun e => e.2.collectedAt.ms)
    ((databaseEntries ds).filter fun e => instanceKey e.1.report.agent e.2 = key)

section Runs
variable {draw : Source → Nat} {s : Store}

theorem getLast_toList {β : Type} (o : Option β) : o.toList.getLast? = o := by
  cases o <;> rfl

/-- What entries of devices write, after a run. -/
theorem view_devices {γ : Type} (view : Store → Option γ) (read : Delivery × SnmpDevice → Option γ)
    (hdevice : ∀ s d snmp, view (s.putDevice draw d.report.agent d.ctx.now snmp) = (read (d, snmp)).or (view s))
    (hdatabase : ∀ s agent db, view (s.putDatabase draw agent db) = view s)
    (hmetrics : ∀ s metrics, view { s with metrics := metrics } = view s) (ds : List Delivery) (s : Store) :
    view (ds.foldl (Store.deliver draw) s) = ((deviceEntries ds).filterMap read).getLast?.or (view s) := by
  rw [deviceEntries, List.filterMap_flatMap]
  refine foldl_getLast (fun s d => ?_) s ds
  rw [Store.deliver, Store.put, hmetrics, foldl_kept fun s db => hdatabase s _ db,
    foldl_getLast (fun s snmp => (hdevice s d snmp).trans (by rw [← getLast_toList (read (d, snmp))])) s _,
    List.filterMap_map, List.filterMap_eq_flatMap_toList]
  rfl

theorem view_databases {γ : Type} (view : Store → Option γ) (read : Delivery × DatabaseMetric → Option γ)
    (hdatabase : ∀ s d db, view (s.putDatabase draw d.report.agent db) = (read (d, db)).or (view s))
    (hdevice : ∀ s agent now snmp, view (s.putDevice draw agent now snmp) = view s)
    (hmetrics : ∀ s metrics, view { s with metrics := metrics } = view s) (ds : List Delivery) (s : Store) :
    view (ds.foldl (Store.deliver draw) s) = ((databaseEntries ds).filterMap read).getLast?.or (view s) := by
  rw [databaseEntries, List.filterMap_flatMap]
  refine foldl_getLast (fun s d => ?_) s ds
  rw [Store.deliver, Store.put, hmetrics,
    foldl_getLast (fun s db => (hdatabase s d db).trans (by rw [← getLast_toList (read (d, db))])) _ _,
    foldl_kept fun s snmp => hdevice s _ _ snmp, List.filterMap_map, List.filterMap_eq_flatMap_toList]
  rfl

/-! ## What one entry writes -/

theorem devices_putDevice (s : Store) (agent : AuthenticatedAgent) (now : Int) (snmp : SnmpDevice) :
    (s.putDevice draw agent now snmp).devices = upsert NetworkDevice.key (deviceKey agent snmp)
      (newDevice agent (draw (.device (deviceKey agent snmp))) snmp.device snmp.collectedAt.ms)
      (NetworkDevice.refresh snmp.device snmp.collectedAt.ms) s.devices := by
  unfold Store.putDevice
  split <;> rfl

def deviceView (key : DeviceKey) (s : Store) : Option (HealthStatus × Option Int) :=
  (lookup NetworkDevice.key key s.devices).map fun row => (row.status, row.lastPolledAt)

theorem deviceView_putDevice (key : DeviceKey) (s : Store) (d : Delivery) (snmp : SnmpDevice) :
    deviceView key (s.putDevice draw d.report.agent d.ctx.now snmp) =
      ((ofDevice key (d, snmp)).map fun e => (healthOf e.device.reachable, some e.collectedAt.ms)).or (deviceView key s) := by
  unfold deviceView ofDevice
  rw [devices_putDevice, lookup_upsertDevice]
  by_cases hkey : key = deviceKey d.report.agent snmp
  · rw [if_pos hkey, if_pos hkey.symm]
    cases lookup NetworkDevice.key (deviceKey d.report.agent snmp) s.devices <;> rfl
  · rw [if_neg hkey, if_neg (Ne.symm hkey)]
    rfl

theorem lookup_newInterfaces (id : Nat) (now : Int) (ports : List SnmpInterface) (key : InterfaceKey) :
    lookup NetworkInterface.key key (ports.map (newInterface id now)) =
      if id = key.1 then (lookup SnmpInterface.ifIndex key.2 ports).map (newInterface id now) else none := by
  rw [lookup, List.find?_map]
  by_cases hid : id = key.1
  · rw [if_pos hid, lookup]
    congr 2
    funext port
    have hkey : (newInterface id now port).key = key ↔ port.ifIndex = key.2 := by
      rw [Prod.ext_iff]
      exact and_iff_right hid
    simp only [Function.comp_apply, hkey]
  · have hnone : ports.find? ((fun n => decide (n.key = key)) ∘ newInterface id now) = none := by
      rw [List.find?_eq_none]
      intro port _ hport
      exact hid (congrArg Prod.fst (of_decide_eq_true hport))
    rw [if_neg hid, hnone]
    rfl

def portView (key : InterfaceKey) (s : Store) : Option PortReading :=
  (lookup NetworkInterface.key key s.interfaces).map NetworkInterface.reading

theorem portView_upsertInterfaces (id : Nat) (interfaces : List SnmpInterface) (polledAt now : Int) (s : Store)
    (key : InterfaceKey) :
    portView key (upsertInterfaces id interfaces polledAt now s).1 =
      (if id = key.1 then (lookup SnmpInterface.ifIndex key.2 (byIndex interfaces)).map fun port => port.reading polledAt
        else none).or (portView key s) := by
  have hkeep : ∀ n : NetworkInterface, (n.refreshFrom id (byIndex interfaces) polledAt now).key = n.key := by
    intro n
    unfold NetworkInterface.refreshFrom
    split
    · split <;> rfl
    · rfl
  simp only [upsertInterfaces, portView]
  rw [lookup_map hkeep, lookup_insertAll, lookup_newInterfaces, Option.map_map]
  by_cases hid : id = key.1
  · rw [if_pos hid, if_pos hid]
    -- the row that was there, or the new one
    cases hrow : lookup NetworkInterface.key key s.interfaces with
    | some n =>
        have hn := key_of_lookup hrow
        obtain ⟨rfl, hindex⟩ : n.deviceId = id ∧ n.ifIndex = key.2 := by
          rw [hid, ← hn]
          exact ⟨rfl, rfl⟩
        rw [Option.some_or, Option.map_some, Option.map_some, Function.comp_apply, NetworkInterface.refreshFrom,
          if_pos rfl, hindex]
        cases lookup SnmpInterface.ifIndex key.2 (byIndex interfaces) <;> rfl
    | none =>
        cases hport : lookup SnmpInterface.ifIndex key.2 (byIndex interfaces) with
        | none => rfl
        | some port =>
            have hport' : port.ifIndex = key.2 := key_of_lookup hport
            have hdevice : (newInterface id now port).deviceId = id := rfl
            have hindex : (newInterface id now port).ifIndex = key.2 := hport'
            rw [Option.none_or, Option.map_some, Option.map_some, Option.map_some, Function.comp_apply,
              NetworkInterface.refreshFrom, if_pos hdevice, hindex, hport]
            rfl
  · rw [if_neg hid, if_neg hid, Option.or_none, Option.none_or]
    cases hrow : lookup NetworkInterface.key key s.interfaces with
    | none => rfl
    | some n =>
        have hn := key_of_lookup hrow
        have hother : n.deviceId ≠ id := by
          rintro rfl
          exact hid (congrArg Prod.fst hn)
        rw [Option.map_some, Option.map_some, Function.comp_apply, NetworkInterface.refreshFrom, if_neg hother]

theorem portView_putDevice (key : InterfaceKey) (s : Store) (d : Delivery) (snmp : SnmpDevice) :
    portView key (s.putDevice draw d.report.agent d.ctx.now snmp) =
      ((ofPort draw key (d, snmp)).map fun e => e.2.reading e.1).or (portView key s) := by
  unfold Store.putDevice ofPort
  by_cases hreach : snmp.device.reachable = true
  · simp only [hreach, if_true, Bool.true_and, decide_eq_true_eq]
    rw [portView_upsertInterfaces]
    split
    · rw [Option.map_map]
      rfl
    · rfl
  · simp [hreach, portView]

def instanceView (key : InstanceKey) (s : Store) : Option (HealthStatus × Option Int) :=
  (lookup DatabaseInstance.key key s.instances).map fun row => (row.status, row.lastPolledAt)

theorem instanceView_putDatabase (key : InstanceKey) (s : Store) (d : Delivery) (db : DatabaseMetric) :
    instanceView key (s.putDatabase draw d.report.agent db) =
      ((ofInstance key (d, db)).map fun e => (healthOf e.reachable, some e.collectedAt.ms)).or (instanceView key s) := by
  unfold instanceView ofInstance
  rw [lookup_putDatabase]
  by_cases hkey : key = instanceKey d.report.agent db
  · rw [if_pos hkey, if_pos hkey.symm]
    cases lookup DatabaseInstance.key (instanceKey d.report.agent db) s.instances <;> rfl
  · rw [if_neg hkey, if_neg (Ne.symm hkey)]
    rfl

/-- A column of an instance that may be unknown. -/
def columnView {β : Type} (stored : DatabaseInstance → Option β) (key : InstanceKey) (s : Store) : Option β :=
  (lookup DatabaseInstance.key key s.instances).bind stored

/-- A reading that is kept when it is not reported. -/
theorem columnView_putDatabase {β : Type} {column : DatabaseReadings → Option β} {stored : DatabaseInstance → Option β}
    (hcreate : ∀ agent id db time, stored (newInstance agent id db time) = column db.metrics)
    (hupdate : ∀ db time row, stored (DatabaseInstance.refresh db time row) = (column db.metrics).or (stored row))
    (key : InstanceKey) (s : Store) (d : Delivery) (db : DatabaseMetric) :
    columnView stored key (s.putDatabase draw d.report.agent db) =
      ((ofColumn column key (d, db)).map Prod.snd).or (columnView stored key s) := by
  unfold columnView ofColumn
  rw [lookup_putDatabase]
  by_cases hkey : key = instanceKey d.report.agent db
  · rw [if_pos hkey, if_pos hkey.symm, hkey, Option.map_map]
    have hid : (Prod.snd ∘ fun v : β => (db.collectedAt.ms, v)) = id := rfl
    rw [hid, Option.map_id, id_eq]
    cases lookup DatabaseInstance.key (instanceKey d.report.agent db) s.instances with
    | none => simp [hcreate]
    | some row => simp [hupdate]
  · rw [if_neg hkey, if_neg (Ne.symm hkey)]
    rfl

/-! ## Reports in order -/

/-- Whatever a column reads of the last entry, it reads of the newest. -/
theorem view_newest {ε γ δ : Type} {entries : List ε} {read : ε → Option γ} {f : γ → δ} {before after : Option δ}
    (hview : after = (entries.filterMap fun e => (read e).map f).getLast?.or before) {time : γ → Int}
    (hchron : Chronological time (entries.filterMap read)) (hne : entries.filterMap read ≠ []) :
    ∃ e, Newest time (entries.filterMap read) e ∧ after = some (f e) := by
  obtain ⟨e, hlast, hnewest⟩ := exists_newest hchron hne
  refine ⟨e, hnewest, ?_⟩
  rw [hview, ← List.map_filterMap, List.getLast?_map, hlast]
  rfl

theorem InOrder.column {ds : List Delivery} (h : InOrder draw ds) {β : Type} {column : DatabaseReadings → Option β}
    {stored : DatabaseInstance → Option β}
    (hcreate : ∀ agent id db time, stored (newInstance agent id db time) = column db.metrics)
    (hupdate : ∀ db time row, stored (DatabaseInstance.refresh db time row) = (column db.metrics).or (stored row))
    (s : Store) (key : InstanceKey) (hne : (databaseEntries ds).filterMap (ofColumn column key) ≠ []) :
    ∃ e, Newest Prod.fst ((databaseEntries ds).filterMap (ofColumn column key)) e ∧
      ∃ d, lookup DatabaseInstance.key key (ds.foldl (Store.deliver draw) s).instances = some d ∧ stored d = some e.2 := by
  have hchron : Chronological Prod.fst ((databaseEntries ds).filterMap (ofColumn column key)) := by
    refine chronological_filterMap (h.databases key) fun e v he => ?_
    unfold ofColumn at he
    split at he
    · rename_i hkey
      obtain ⟨v', -, rfl⟩ := Option.map_eq_some_iff.mp he
      exact ⟨decide_eq_true hkey, rfl⟩
    · cases he
  obtain ⟨e, hnewest, hview⟩ := view_newest
    (view_databases (columnView stored key) (fun e => (ofColumn column key e).map Prod.snd)
      (columnView_putDatabase hcreate hupdate key)
      (fun s agent now snmp => by rw [columnView, (putDevice_kept draw agent now s snmp).1]; rfl) (fun _ _ => rfl) ds s)
    hchron hne
  obtain ⟨d, hd, hcolumn⟩ := Option.bind_eq_some_iff.mp hview
  exact ⟨e, hnewest, d, hd, hcolumn⟩

theorem current_of_foldl {ds : List Delivery} (h : InOrder draw ds) (s : Store) :
    Current draw ds (ds.foldl (Store.deliver draw) s) where
  devices := by
    intro key hne
    have hchron : Chronological (fun snmp => snmp.collectedAt.ms) ((deviceEntries ds).filterMap (ofDevice key)) := by
      refine chronological_filterMap (h.devices (draw (.device key))) fun e snmp he => ?_
      unfold ofDevice at he
      split at he
      · rename_i hkey
        cases he
        exact ⟨by rw [hkey]; exact decide_eq_true rfl, rfl⟩
      · cases he
    obtain ⟨e, hnewest, hview⟩ := view_newest
      (view_devices (deviceView key) (fun e => (ofDevice key e).map fun snmp => (healthOf snmp.device.reachable,
        some snmp.collectedAt.ms)) (deviceView_putDevice key) (fun _ _ _ => rfl) (fun _ _ => rfl) ds s) hchron hne
    obtain ⟨d, hd, hcols⟩ := Option.map_eq_some_iff.mp hview
    exact ⟨e, hnewest, d, hd, congrArg Prod.fst hcols, congrArg Prod.snd hcols⟩
  interfaces := by
    intro key hne
    have hchron : Chronological Prod.fst ((deviceEntries ds).filterMap (ofPort draw key)) := by
      refine chronological_filterMap (h.devices key.1) fun e port he => ?_
      unfold ofPort at he
      split at he
      · rename_i hkey
        obtain ⟨port', -, rfl⟩ := Option.map_eq_some_iff.mp he
        exact ⟨(Bool.and_eq_true _ _ ▸ hkey).2, rfl⟩
      · cases he
    obtain ⟨e, hnewest, hview⟩ := view_newest
      (view_devices (portView key) (fun e => (ofPort draw key e).map fun port => port.2.reading port.1)
        (portView_putDevice key) (fun _ _ _ => rfl) (fun _ _ => rfl) ds s) hchron hne
    obtain ⟨n, hn, hreading⟩ := Option.map_eq_some_iff.mp hview
    exact ⟨e, hnewest, n, hn, hreading⟩
  instances := by
    intro key hne
    have hchron : Chronological (fun db => db.collectedAt.ms) ((databaseEntries ds).filterMap (ofInstance key)) := by
      refine chronological_filterMap (h.databases key) fun e db he => ?_
      unfold ofInstance at he
      split at he
      · rename_i hkey
        cases he
        exact ⟨decide_eq_true hkey, rfl⟩
      · cases he
    obtain ⟨e, hnewest, hview⟩ := view_newest
      (view_databases (instanceView key) (fun e => (ofInstance key e).map fun db => (healthOf db.reachable,
        some db.collectedAt.ms)) (instanceView_putDatabase key)
        (fun s agent now snmp => by rw [instanceView, (putDevice_kept draw agent now s snmp).1]; rfl) (fun _ _ => rfl) ds s)
      hchron hne
    obtain ⟨d, hd, hcols⟩ := Option.map_eq_some_iff.mp hview
    exact ⟨e, hnewest, d, hd, congrArg Prod.fst hcols, congrArg Prod.snd hcols⟩
  connections := fun key hne => h.column (fun _ _ _ _ => rfl) (fun _ _ _ => rfl) s key hne
  lag := fun key hne => h.column (fun _ _ _ _ => rfl) (fun _ _ _ => rfl) s key hne

/-- In a run whose reports arrive in order, every row holds its newest report at all times. -/
theorem current_of_inOrder (toISOString : Int → String) (draw : Source → Nat) (s : Store) (hs : Drawn draw s)
    (ds : List Delivery) (hw : ∀ d ∈ ds, d.report.payload.inWindow d.ctx = true) (h : InOrder draw ds) :
    ∃ s', ingestAll toISOString draw ds s = .ok s' ∧ Current draw ds s' :=
  ⟨_, ingestAll_eq_foldl toISOString hs hw, current_of_foldl h s⟩

end Runs

/-- The window of the samples. -/
def sampleWindow : IngestContext := ⟨2000, 10000, 0⟩

/-- A buffered report is replayed after a newer one was stored. -/
theorem older_after_newer :
    ∃ s', ingestAll toString (fun _ => 7) [⟨connections twoSeconds 20 none, sampleWindow⟩,
        ⟨connections oneSecond 10 none, sampleWindow⟩] Store.empty = .ok s' ∧
      ¬ Current (fun _ => 7) [⟨connections twoSeconds 20 none, sampleWindow⟩,
        ⟨connections oneSecond 10 none, sampleWindow⟩] s' := by
  have hw : ∀ d ∈ [(⟨connections twoSeconds 20 none, sampleWindow⟩ : Delivery),
      ⟨connections oneSecond 10 none, sampleWindow⟩], d.report.payload.inWindow d.ctx = true := by
    rw [List.forall_mem_cons, List.forall_mem_singleton]
    exact ⟨rfl, rfl⟩
  refine ⟨_, ingestAll_eq_foldl toString (drawn_empty _) hw, fun h => ?_⟩
  obtain ⟨e, ⟨-, hnewest⟩, d, hd, -, hpolled⟩ := h.instances (1, 1, .postgresql, "main") (by simp [databaseEntries,
    connections, Report.databases, ofInstance, instanceKey])
  have hlate : (2000 : Int) ≤ e.collectedAt.ms :=
    hnewest _ (List.mem_filterMap.mpr ⟨_, List.mem_flatMap.mpr ⟨_, List.mem_cons_self,
      List.mem_map.mpr ⟨_, List.mem_cons_self, rfl⟩⟩, rfl⟩)
  obtain rfl : _ = d := Option.some.inj hd
  have heq : (1000 : Int) = e.collectedAt.ms := Option.some.inj hpolled
  omega

/-- Reports that arrive as they were collected. -/
theorem newer_after_older :
    ∃ s', ingestAll toString (fun _ => 7) [⟨connections oneSecond 10 none, sampleWindow⟩,
        ⟨connections twoSeconds 20 none, sampleWindow⟩] Store.empty = .ok s' ∧
      Current (fun _ => 7) [⟨connections oneSecond 10 none, sampleWindow⟩,
        ⟨connections twoSeconds 20 none, sampleWindow⟩] s' := by
  apply current_of_inOrder toString (fun _ => 7) Store.empty (drawn_empty _)
  · rw [List.forall_mem_cons, List.forall_mem_singleton]
    exact ⟨rfl, rfl⟩
  · refine ⟨fun id => List.Pairwise.filter _ List.Pairwise.nil, fun key => List.Pairwise.filter _ ?_⟩
    simp [databaseEntries, connections, Report.databases, oneSecond, twoSeconds]

end IkelyaneMonitor.Telemetry
