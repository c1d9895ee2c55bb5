import IkelyaneMonitor.Replay.Latest
import IkelyaneMonitor.Telemetry.Replays

/-!
# Port snapshots and port series

The row of a port takes the last reading of its index; the series of a port, which is named after it, keeps the first value
of its name at a time (`ON CONFLICT DO NOTHING`).

* `Bandwidth` : the three series of a port that its row also holds;
* `Refreshed` : a row after an entry, and the reading it was refreshed from; `Refreshed.reading` : what it then holds;
* `PortsAgree` : the series hold, at the time of the entry, the readings the rows were refreshed from;
* `valueAt_put` : the value of a key after a payload is the one stored before, or else the first one in the payload;
* `FirstOfName` : of each index, the last reading is the first value of its name; `port_series_agree_iff` : that is when
  ports agree; `repeated_index_apart` : a port reported twice.
-/

namespace IkelyaneMonitor.Telemetry
open Replay

/-- The series of a port that its row holds too. -/
inductive Bandwidth where
  | inBps | outBps | utilization
  deriving DecidableEq, Repr

def Bandwidth.metric : Bandwidth → MetricType
  | inBps => .bandwidthInBps
  | outBps => .bandwidthOutBps
  | utilization => .bandwidthUtilizationPercent

def Bandwidth.reading : Bandwidth → SnmpInterface → Option ℚ
  | inBps, port => some port.inBps
  | outBps, port => some port.outBps
  | utilization, port => port.utilizationPercent

abbrev RowKey := Nat × MetricType × String × Int

def MetricEntries.valueAt (entries : MetricEntries) (k : RowKey) : Option ℚ :=
  (lookup MetricRow.id k entries.rows).map MetricRow.value

/-- The values of a key, in the order of the rows. -/
def valuesAt (k : RowKey) (rows : List MetricRow) : List ℚ := (rows.filter fun row => row.id = k).map MetricRow.value

section Agreement
variable (draw : Source → Nat) (agent : AuthenticatedAgent)

def deviceId (snmp : SnmpDevice) : Nat := draw (.device (deviceKey agent snmp))

/-- The key of a series of the device, at the time of the entry. -/
def seriesKey (snmp : SnmpDevice) (b : Bandwidth) (name : String) : RowKey :=
  (deviceId draw agent snmp, b.metric, name, snmp.collectedAt.ms)

/-- A row of the device after the entry, and the port it was refreshed from; `s` is the store before the entry. -/
structure Refreshed (now : Int) (s : Store) (snmp : SnmpDevice) (n : NetworkInterface) (port : SnmpInterface) : Prop where
  reachable : snmp.device.reachable = true
  mem : n ∈ (s.putDevice draw agent now snmp).interfaces
  device : n.deviceId = deviceId draw agent snmp
  port : lookup SnmpInterface.ifIndex n.ifIndex (byIndex snmp.interfaces) = some port

/-- The series under the name of a row hold what the row was refreshed from. -/
def PortsAgree (now : Int) (s : Store) (snmp : SnmpDevice) (entries : MetricEntries) : Prop :=
  ∀ n port, Refreshed draw agent now s snmp n port →
    ∀ b : Bandwidth, entries.valueAt (seriesKey draw agent snmp b n.name) = b.reading port

/-- The values of ports with a name, in the order they are reported for the device and the time of the entry. -/
def reported (devices : List SnmpDevice) (snmp : SnmpDevice) (b : Bandwidth) (name : String) : List ℚ :=
  (devices.filter fun e => e.device.reachable ∧ deviceId draw agent e = deviceId draw agent snmp ∧
      e.collectedAt.ms = snmp.collectedAt.ms).flatMap fun e =>
    (e.interfaces.filter fun p => p.name = name).filterMap b.reading

/-- The last port of each index has the first value of its name: none is stored for the time, nor reported before it, that
differs. -/
def FirstOfName (stored : MetricEntries) (devices : List SnmpDevice) (snmp : SnmpDevice) : Prop :=
  snmp.device.reachable = true → ∀ port ∈ snmp.interfaces,
    (snmp.interfaces.filter fun p => p.ifIndex = port.ifIndex).getLast? = some port →
      ∀ b : Bandwidth, (stored.valueAt (seriesKey draw agent snmp b port.name)).or
        (reported draw agent devices snmp b port.name).head? = b.reading port

end Agreement

/-! ## The rows of ports -/

theorem lookup_byIndex (ports : List SnmpInterface) (i : Nat) :
    lookup SnmpInterface.ifIndex i (byIndex ports) = (ports.filter fun p => p.ifIndex = i).getLast? := by
  have hstep : ∀ (table : List SnmpInterface) (port : SnmpInterface),
      lookup SnmpInterface.ifIndex i (upsert SnmpInterface.ifIndex port.ifIndex port (fun _ => port) table) =
        (Option.guard (fun p : SnmpInterface => p.ifIndex = i) port).or (lookup SnmpInterface.ifIndex i table) := by
    intro table port
    rw [lookup_replace]
    by_cases hi : port.ifIndex = i
    · simp [Option.guard, hi]
    · simp [Option.guard, hi, Ne.symm hi]
  rw [byIndex, foldl_filterMap hstep, List.filterMap_eq_filter]
  exact Option.or_none

theorem key_refreshFrom (id : Nat) (ports : List SnmpInterface) (polledAt now : Int) (n : NetworkInterface) :
    (n.refreshFrom id ports polledAt now).key = n.key := by
  unfold NetworkInterface.refreshFrom
  split
  · split <;> rfl
  · rfl

section Rows
variable {draw : Source → Nat} {agent : AuthenticatedAgent} {now : Int} {s : Store} {snmp : SnmpDevice}

theorem interfaces_putDevice (hreach : snmp.device.reachable = true) :
    (s.putDevice draw agent now snmp).interfaces =
      (insertAll NetworkInterface.key s.interfaces
        ((byIndex snmp.interfaces).map (newInterface (deviceId draw agent snmp) now))).map
        (NetworkInterface.refreshFrom (deviceId draw agent snmp) (byIndex snmp.interfaces) snmp.collectedAt.ms now) := by
  unfold Store.putDevice
  rw [if_pos hreach]
  rfl

/-- The row holds the readings it was refreshed from. -/
theorem Refreshed.refresh {n : NetworkInterface} {port : SnmpInterface} (h : Refreshed draw agent now s snmp n port) :
    ∃ n₀ : NetworkInterface, n = n₀.refresh snmp.collectedAt.ms now port := by
  have hmem := h.mem
  rw [interfaces_putDevice h.reachable] at hmem
  obtain ⟨n₀, -, rfl⟩ := List.mem_map.mp hmem
  have hkey := key_refreshFrom (deviceId draw agent snmp) (byIndex snmp.interfaces) snmp.collectedAt.ms now n₀
  obtain ⟨hid, hindex⟩ := Prod.ext_iff.mp hkey
  have hdevice : n₀.deviceId = deviceId draw agent snmp := hid.symm.trans h.device
  have hport := h.port
  rw [show NetworkInterface.ifIndex _ = n₀.ifIndex from hindex] at hport
  refine ⟨n₀, ?_⟩
  rw [NetworkInterface.refreshFrom, if_pos hdevice, hport]

/-- Every port that is the last of its index has a row. -/
theorem exists_refreshed (hreach : snmp.device.reachable = true) {port : SnmpInterface}
    (hlast : (snmp.interfaces.filter fun p => p.ifIndex = port.ifIndex).getLast? = some port) :
    ∃ n, Refreshed draw agent now s snmp n port := by
  have hport : lookup SnmpInterface.ifIndex port.ifIndex (byIndex snmp.interfaces) = some port := by
    rw [lookup_byIndex, hlast]
  have hnew : newInterface (deviceId draw agent snmp) now port ∈
      (byIndex snmp.interfaces).map (newInterface (deviceId draw agent snmp) now) :=
    List.mem_map_of_mem (List.mem_of_find?_eq_some hport)
  have hrow : ∃ n₀ ∈ insertAll NetworkInterface.key s.interfaces
      ((byIndex snmp.interfaces).map (newInterface (deviceId draw agent snmp) now)),
      n₀.key = (newInterface (deviceId draw agent snmp) now port).key := exists_mem_insertAll hnew
  obtain ⟨n₀, hn₀, hkey₀⟩ := hrow
  have hkey := (key_refreshFrom (deviceId draw agent snmp) (byIndex snmp.interfaces) snmp.collectedAt.ms now n₀).trans hkey₀
  obtain ⟨hid, hindex⟩ := Prod.ext_iff.mp hkey
  refine ⟨n₀.refreshFrom (deviceId draw agent snmp) (byIndex snmp.interfaces) snmp.collectedAt.ms now, hreach, ?_, hid, ?_⟩
  · rw [interfaces_putDevice hreach]
    exact List.mem_map_of_mem hn₀
  · rw [show NetworkInterface.ifIndex _ = port.ifIndex from hindex]
    exact hport

end Rows

/-! ## The values of a key -/

@[simp] theorem valuesAt_nil (k : RowKey) : valuesAt k [] = [] := rfl

@[simp] theorem valuesAt_append (k : RowKey) (rows rows' : List MetricRow) :
    valuesAt k (rows ++ rows') = valuesAt k rows ++ valuesAt k rows' := by simp [valuesAt]

theorem valuesAt_flatMap {α : Type} (k : RowKey) (as : List α) (rows : α → List MetricRow) :
    valuesAt k (as.flatMap rows) = as.flatMap fun a => valuesAt k (rows a) := by
  simp [valuesAt, List.filter_flatMap, List.map_flatMap]

theorem valuesAt_eq_nil {k : RowKey} {rows : List MetricRow} (h : ∀ row ∈ rows, row.metric ≠ k.2.1) :
    valuesAt k rows = [] := by
  rw [valuesAt, List.filter_eq_nil_iff.mpr, List.map_nil]
  intro row hrow hid
  exact h row hrow (congrArg (fun id : RowKey => id.2.1) (of_decide_eq_true hid))

theorem valueAt_addAll (entries : MetricEntries) (rows : List MetricRow) (k : RowKey) :
    (entries.addAll rows).valueAt k = (entries.valueAt k).or (valuesAt k rows).head? := by
  have hrows : (lookup MetricRow.id k rows).map MetricRow.value = (valuesAt k rows).head? := by
    rw [valuesAt, List.head?_map, List.head?_filter]
    rfl
  rw [MetricEntries.valueAt, ← hrows]
  show Option.map _ (lookup MetricRow.id k (insertAll MetricRow.id entries.rows rows)) = _
  rw [lookup_insertAll, Option.map_or]
  rfl

theorem valuesAt_collect (k : RowKey) (c : RowCollector) (points : List (MetricType × Option ℚ × String)) :
    valuesAt k (c.collect points) =
      if c.sourceId = k.1 ∧ c.time = k.2.2.2 then
        (points.filter fun p => p.1 = k.2.1 ∧ p.2.2 = k.2.2.1).filterMap fun p => p.2.1
      else [] := by
  obtain ⟨id, metric, inst, time⟩ := k
  rw [RowCollector.collect, valuesAt_flatMap]
  by_cases hc : c.sourceId = id ∧ c.time = time
  · rw [if_pos hc]
    obtain ⟨rfl, rfl⟩ := hc
    induction points with
    | nil => rfl
    | cons p points ih =>
        obtain ⟨metric', value, inst'⟩ := p
        rw [List.flatMap_cons, ih]
        cases value with
        | none => by_cases hp : metric' = metric ∧ inst' = inst <;> simp [RowCollector.add, hp]
        | some v => by_cases hp : metric' = metric ∧ inst' = inst <;> simp [RowCollector.add, valuesAt, MetricRow.id, hp]
  · rw [if_neg hc, List.flatMap_eq_nil_iff]
    rintro ⟨metric', value, inst'⟩ -
    cases value with
    | none => rfl
    | some v =>
        have hid : ((c.sourceId, metric', inst', c.time) : RowKey) ≠ (id, metric, inst, time) :=
          fun heq => hc ⟨congrArg (fun k : RowKey => k.1) heq, congrArg (fun k : RowKey => k.2.2.2) heq⟩
        have hrow : ∀ row ∈ c.add metric' (some v) inst', ¬ decide (row.id = (id, metric, inst, time)) = true := by
          intro row hrow
          rw [List.mem_singleton.mp hrow, decide_eq_true_iff]
          exact hid
        rw [valuesAt, List.filter_eq_nil_iff.mpr hrow, List.map_nil]

section Values
variable {draw : Source → Nat} {agent : AuthenticatedAgent}

theorem metric_of_systemRows {system : SystemMetrics} {row : MetricRow} (h : row ∈ systemRows agent system) (b : Bandwidth) :
    row.metric ≠ b.metric := by
  intro hmetric
  obtain ⟨metric, v, inst, hp, rfl⟩ := mem_collect.mp h
  obtain rfl : metric = b.metric := hmetric
  cases b <;> simp [systemPoints, diskPoints, Bandwidth.metric] at hp

theorem metric_of_databasesRows {databases : List DatabaseMetric} {limit : InstanceKey → Option Nat} {row : MetricRow}
    (h : row ∈ databasesRows draw agent databases limit) (b : Bandwidth) : row.metric ≠ b.metric := by
  intro hmetric
  obtain ⟨before, db, after, -, hrow⟩ := mem_databasesRows.mp h
  unfold databaseRows at hrow
  split at hrow
  · obtain ⟨metric, v, inst, hp, rfl⟩ := mem_collect.mp hrow
    obtain rfl : metric = b.metric := hmetric
    cases b <;> simp [databasePoints, Bandwidth.metric] at hp
  · cases hrow

theorem values_devicePoints (e : SnmpDevice) (b : Bandwidth) (name : String) :
    ((devicePoints e).filter fun p => p.1 = b.metric ∧ p.2.2 = name).filterMap (fun p => p.2.1) =
      (e.interfaces.filter fun p => p.name = name).filterMap b.reading := by
  have hdevice : ((devicePoints e).filter fun p => p.1 = b.metric ∧ p.2.2 = name) =
      (e.interfaces.flatMap portPoints).filter fun p => p.1 = b.metric ∧ p.2.2 = name := by
    rw [devicePoints, List.filter_append]
    cases b <;> simp [Bandwidth.metric]
  have hport : ∀ port, ((portPoints port).filter fun p => p.1 = b.metric ∧ p.2.2 = name) =
      if port.name = name then [(b.metric, b.reading port, name)] else [] := by
    intro port
    by_cases hname : port.name = name
    · cases b <;> simp [portPoints, Bandwidth.metric, Bandwidth.reading, hname]
    · cases b <;> simp [portPoints, hname]
  rw [hdevice]
  induction e.interfaces with
  | nil => rfl
  | cons port ports ih =>
      rw [List.flatMap_cons, List.filter_append, List.filterMap_append, ih, hport]
      by_cases hname : port.name = name
      · rw [if_pos hname, List.filter_cons_of_pos (by simpa using hname)]
        cases hread : b.reading port <;> simp [hread]
      · rw [if_neg hname, List.filter_cons_of_neg (by simpa using hname)]
        rfl

theorem valuesAt_deviceRows (snmp e : SnmpDevice) (b : Bandwidth) (name : String) :
    valuesAt (seriesKey draw agent snmp b name) (deviceRows draw agent e) =
      if e.device.reachable ∧ deviceId draw agent e = deviceId draw agent snmp ∧ e.collectedAt.ms = snmp.collectedAt.ms then
        (e.interfaces.filter fun p => p.name = name).filterMap b.reading
      else [] := by
  unfold deviceRows
  by_cases hreach : e.device.reachable = true
  · rw [if_pos hreach, deviceMetricRows, valuesAt_collect, ← values_devicePoints]
    simp only [hreach, true_and]
    rfl
  · rw [if_neg hreach, if_neg fun h => hreach h.1]
    rfl

theorem valuesAt_metricRows (payload : TelemetryPayload) (limit : InstanceKey → Option Nat) (snmp : SnmpDevice)
    (b : Bandwidth) (name : String) :
    valuesAt (seriesKey draw agent snmp b name) (metricRows draw agent payload limit) =
      reported draw agent (payload.snmpDevices.getD []) snmp b name := by
  have hsystem : valuesAt (seriesKey draw agent snmp b name) ((payload.system.map (systemRows agent)).getD []) = [] := by
    cases payload.system with
    | none => rfl
    | some system => exact valuesAt_eq_nil fun row hrow => metric_of_systemRows hrow b
  have hdatabases : ∀ rows, rows = databasesRows draw agent (payload.databases.getD []) limit →
      valuesAt (seriesKey draw agent snmp b name) rows = [] := by
    rintro rows rfl
    exact valuesAt_eq_nil fun row hrow => metric_of_databasesRows hrow b
  rw [metricRows, valuesAt_append, valuesAt_append, hsystem, hdatabases _ rfl, List.nil_append, List.append_nil,
    valuesAt_flatMap, reported]
  induction payload.snmpDevices.getD [] with
  | nil => rfl
  | cons e devices ih =>
      rw [List.flatMap_cons, ih, valuesAt_deviceRows]
      by_cases he : e.device.reachable ∧ deviceId draw agent e = deviceId draw agent snmp ∧
          e.collectedAt.ms = snmp.collectedAt.ms
      · rw [if_pos he, List.filter_cons_of_pos (by simpa using he), List.flatMap_cons]
      · rw [if_neg he, List.filter_cons_of_neg (by simpa using he), List.nil_append]

/-- What is stored of a series for the time of an entry. -/
theorem valueAt_put (now : Int) (payload : TelemetryPayload) (s : Store) (snmp : SnmpDevice) (b : Bandwidth) (name : String) :
    (s.put draw agent now payload).metrics.valueAt (seriesKey draw agent snmp b name) =
      (s.metrics.valueAt (seriesKey draw agent snmp b name)).or
        (reported draw agent (payload.snmpDevices.getD []) snmp b name).head? := by
  show (s.metrics.addAll (metricRows draw agent payload s.limit)).valueAt _ = _
  rw [valueAt_addAll, valuesAt_metricRows]

/-- The rows of an entry agree with the series exactly when the last reading of each index is the first of its name. -/
theorem portsAgree_put_iff (now : Int) (payload : TelemetryPayload) (s s₀ : Store) (snmp : SnmpDevice) :
    PortsAgree draw agent now s₀ snmp (s.put draw agent now payload).metrics ↔
      FirstOfName draw agent s.metrics (payload.snmpDevices.getD []) snmp := by
  constructor
  · intro h hreach port _ hlast b
    have hrow : ∃ n, Refreshed draw agent now s₀ snmp n port := exists_refreshed hreach hlast
    obtain ⟨n, hn⟩ := hrow
    obtain ⟨n₀, hrow⟩ := hn.refresh
    have hname : n.name = port.name := by rw [hrow]; rfl
    have hagree := h n port hn b
    rwa [hname, valueAt_put] at hagree
  · intro h n port hn b
    obtain ⟨n₀, hrow⟩ := hn.refresh
    have hname : n.name = port.name := by rw [hrow]; rfl
    have hport := hn.port
    have hindex := key_of_lookup hport
    rw [lookup_byIndex, ← hindex] at hport
    rw [hname, valueAt_put]
    refine h hn.reachable port ?_ hport b
    exact List.mem_of_mem_filter (List.mem_of_getLast? hport)

/-- Of an entry of an accepted payload: every row it refreshed, as the row is then, has in the three series of its name the
readings it was refreshed from exactly when the last port of each index is the first of its name. -/
theorem port_series_agree_iff (toISOString : Int → String) (draw : Source → Nat) (agent : AuthenticatedAgent)
    (ctx : IngestContext) (payload : TelemetryPayload) (s s' : Store) (result : IngestResult) (hs : Drawn draw s)
    (haccepted : ingestTelemetry toISOString draw agent payload ctx s = .ok (s', result))
    (before after : List SnmpDevice) (snmp : SnmpDevice) (hdevices : payload.snmpDevices = some (before ++ snmp :: after)) :
    PortsAgree draw agent ctx.now (before.foldl (Store.putDevice draw agent ctx.now) s) snmp s'.metrics ↔
      FirstOfName draw agent s.metrics (before ++ snmp :: after) snmp := by
  have hwindow := inWindow_of_ingestTelemetry toISOString haccepted
  obtain ⟨result', hput, -, -⟩ := ingestTelemetry_of_inWindow toISOString agent hs hwindow
  have hs' : s' = s.put draw agent ctx.now payload := by
    rw [haccepted] at hput
    exact congrArg Prod.fst (Except.ok.inj hput)
  rw [hs', portsAgree_put_iff, hdevices, Option.getD_some]

end Values

/-! ## A port that is reported twice -/

def etherPort (inBps : ℚ) : SnmpInterface where
  ifIndex := 1
  name := "ether1"
  «alias» := none
  description := none
  macAddress := none
  speedMbps := none
  mtu := none
  adminStatus := none
  operStatus := .up
  inBps := inBps
  outBps := 0
  utilizationPercent := none
  packetLossPercent := none
  inErrors := none
  outErrors := none
  crcErrors := none
  inDiscards := none
  outDiscards := none
  errorsPerSec := none
  crcErrorsPerSec := none
  lastChangeAt := none

def etherDevice (ports : List SnmpInterface) : SnmpDevice where
  collectedAt := oneSecond
  device := ⟨"10.0.0.1", none, none, none, none, none, none, none, none, none, none, none, none, true, none, none, none⟩
  interfaces := ports

def etherPayload (ports : List SnmpInterface) : TelemetryPayload where
  agent := ⟨"1.0.0", none⟩
  system := none
  snmpDevices := some [etherDevice ports]
  databases := none

def etherAgent : AuthenticatedAgent := ⟨1, 1, "web-1", "ak_1", none, ["s3cret"]⟩

theorem inWindow_etherPayload (ports : List SnmpInterface) : (etherPayload ports).inWindow ⟨2000, 10000, 0⟩ = true := rfl

/-- A port that is reported three times, last with its first reading. -/
theorem repeated_port_agrees : ∃ s' result,
    ingestTelemetry toString (fun _ => 7) etherAgent (etherPayload [etherPort 100, etherPort 200, etherPort 100])
        ⟨2000, 10000, 0⟩ Store.empty = .ok (s', result) ∧
      PortsAgree (fun _ => 7) etherAgent 2000 Store.empty (etherDevice [etherPort 100, etherPort 200, etherPort 100])
        s'.metrics := by
  let ports := [etherPort 100, etherPort 200, etherPort 100]
  obtain ⟨result, hput, -, -⟩ := ingestTelemetry_of_inWindow toString etherAgent
    (drawn_empty fun _ => 7) (inWindow_etherPayload ports)
  refine ⟨_, result, hput, ?_⟩
  refine (port_series_agree_iff toString (fun _ => 7) etherAgent ⟨2000, 10000, 0⟩ (etherPayload ports)
    Store.empty _ result (drawn_empty _) hput [] [] _ rfl).mpr ?_
  intro _ port hport hlast b
  have hindex : port.ifIndex = 1 := by
    obtain rfl | rfl | rfl : port = etherPort 100 ∨ port = etherPort 200 ∨ port = etherPort 100 := by
      simpa [etherDevice, ports] using hport
    all_goals rfl
  rw [hindex] at hlast
  obtain rfl : etherPort 100 = port := Option.some.inj hlast
  cases b <;> rfl

/-- A port that is reported twice: its row holds the second reading, its series the first. -/
theorem repeated_index_apart : ∃ s' result,
    ingestTelemetry toString (fun _ => 7) etherAgent (etherPayload [etherPort 100, etherPort 200]) ⟨2000, 10000, 0⟩
        Store.empty = .ok (s', result) ∧
      ¬ PortsAgree (fun _ => 7) etherAgent 2000 Store.empty (etherDevice [etherPort 100, etherPort 200]) s'.metrics := by
  obtain ⟨result, hput, -, -⟩ := ingestTelemetry_of_inWindow toString etherAgent
    (drawn_empty fun _ => 7) (inWindow_etherPayload [etherPort 100, etherPort 200])
  refine ⟨_, result, hput, fun hagree => ?_⟩
  have hfirst := (portsAgree_put_iff _ _ _ _ _).mp hagree rfl (etherPort 200) (List.mem_cons_of_mem _ List.mem_cons_self) rfl
    .inBps
  have hvalue : (100 : ℚ) = 200 := Option.some.inj hfirst
  norm_num at hvalue

end IkelyaneMonitor.Telemetry
