import Mathlib.Data.List.Pairwise
import IkelyaneMonitor.Telemetry.Ingest

/-!
# Deliveries in any order, any number of times

The rows of a payload are a function of the payload, but for one: the share of connections in use is derived from the
limit that is stored when the payload arrives, and other payloads change that limit.

* `Report`, `Delivery`, `ingestAll` : payloads with the agent that sent them, and sequences of requests;
* `ingestAll_of_inWindow` : the rows after a sequence, as one batch after another (`batches`);
* `OrderFree` : any two sequences that deliver the same payloads leave the same rows, and one more delivery adds none;
* `Independent` : no limit that a payload of the set relies on is reported by another, and slow queries under one key agree;
* `orderFree_iff` : the first holds exactly when the second does; `limit_between` : where it does not.
-/

namespace IkelyaneMonitor.Telemetry
open Replay

/-- A payload and the agent that sent it. -/
structure Report where
  agent : AuthenticatedAgent
  payload : TelemetryPayload
  deriving DecidableEq

structure Delivery where
  report : Report
  ctx : IngestContext

/-- Who reports in a payload. -/
inductive Reporter where
  | host (id : Nat)
  | drawn (source : Source)
  deriving DecidableEq

namespace Report

def devices (r : Report) : List SnmpDevice := r.payload.snmpDevices.getD []
def databases (r : Report) : List DatabaseMetric := r.payload.databases.getD []

/-- The sources of the payload, with the times they were read. -/
def readings (r : Report) : List (Reporter × Int) :=
  (r.payload.system.map fun system => (Reporter.host r.agent.hostId, system.collectedAt.ms)).toList ++
    (r.devices.map fun snmp => (.drawn (.device (deviceKey r.agent snmp)), snmp.collectedAt.ms)) ++
    r.databases.map fun db => (.drawn (.database (instanceKey r.agent db)), db.collectedAt.ms)

def slow (draw : Source → Nat) (r : Report) : List SlowQueryLog := r.databases.flatMap (slowRows draw r.agent)

/-- The limit the payload leaves for an instance, if it reports one. -/
def lastLimit (agent : AuthenticatedAgent) (databases : List DatabaseMetric) : InstanceKey → Option Nat :=
  limitsAfter agent databases fun _ => none

end Report

def Reporter.id (draw : Source → Nat) : Reporter → Nat
  | .host id => id
  | .drawn source => draw source

/-- The share of connections in use is left to the server, which has no limit but the stored one. -/
def DatabaseMetric.derives (db : DatabaseMetric) : Bool :=
  db.reachable && db.metrics.connectionUsagePercent.isNone && db.metrics.activeConnections.isSome &&
    db.instance.maxConnections.isNone

/-- A set of payloads in which no source reports twice with the same time, the ids of the sources are distinct, and each
payload is at some time in the window. -/
structure Deliverable (draw : Source → Nat) (reports : List Report) : Prop where
  nodup : reports.Nodup
  once : (reports.flatMap Report.readings).Nodup
  ids : ∀ a ∈ reports.flatMap Report.readings, ∀ b ∈ reports.flatMap Report.readings,
    a.1.id draw = b.1.id draw → a.1 = b.1
  window : ∀ r ∈ reports, ∃ ctx, r.payload.inWindow ctx = true

/-- Where an entry leaves its share to the stored limit, and no entry before it in the payload sets that, no other payload
reports the limit of the instance, nor does the payload itself report one afterwards, other than zero; and slow queries
of one instance, statement and time are the same in every payload. -/
structure Independent (draw : Source → Nat) (reports : List Report) : Prop where
  limits : ∀ r ∈ reports, ∀ before db after, r.databases = before ++ db :: after → db.derives = true →
    Report.lastLimit r.agent before (instanceKey r.agent db) = none →
    (∀ r' ∈ reports, r' ≠ r → Report.lastLimit r'.agent r'.databases (instanceKey r.agent db) = none) ∧
      (Report.lastLimit r.agent after (instanceKey r.agent db)).getD 0 = 0
  slow : Agree SlowQueryLog.key (Report.slow draw) reports

section Runs
variable (toISOString : Int → String) (draw : Source → Nat)

/-- One request after another. -/
def ingestAll : List Delivery → Store → Except HttpError Store
  | [], s => .ok s
  | d :: ds, s =>
    match ingestTelemetry toISOString draw d.report.agent d.report.payload d.ctx s with
    | .error e => .error e
    | .ok (s', _) => ingestAll ds s'

/-- The sequence delivers these payloads, each at least once, and inside the window. -/
structure Covers (reports : List Report) (ds : List Delivery) : Prop where
  only : ∀ d ∈ ds, d.report ∈ reports
  each : ∀ r ∈ reports, ∃ d ∈ ds, d.report = r
  window : ∀ d ∈ ds, d.report.payload.inWindow d.ctx = true

def SameRows (s s' : Store) : Prop :=
  (∀ row, row ∈ s.metrics.rows ↔ row ∈ s'.metrics.rows) ∧ ∀ q, q ∈ s.slowQueries ↔ q ∈ s'.slowQueries

def OrderFree (reports : List Report) : Prop :=
  ∀ s, Drawn draw s → ∀ ds ds', Covers reports ds → Covers reports ds' →
    ∃ s₁ s₂, ingestAll toISOString draw ds s = .ok s₁ ∧ ingestAll toISOString draw ds' s = .ok s₂ ∧ SameRows s₁ s₂ ∧
      ∀ d : Delivery, d.report ∈ reports → d.report.payload.inWindow d.ctx = true →
        ∃ s₃ result, ingestTelemetry toISOString draw d.report.agent d.report.payload d.ctx s₁ = .ok (s₃, result) ∧
          result.metricsStored = 0 ∧ result.slowQueriesStored = 0

/-- The payloads of a sequence, each with the limits stored when it arrives. -/
def batches : List Report → (InstanceKey → Option Nat) → List (Report × (InstanceKey → Option Nat))
  | [], _ => []
  | r :: rs, limit => (r, limit) :: batches rs (limitsAfter r.agent r.databases limit)

def batchRows (b : Report × (InstanceKey → Option Nat)) : List MetricRow := metricRows draw b.1.agent b.1.payload b.2

variable {toISOString draw} {s : Store}

theorem slow_put (agent : AuthenticatedAgent) (now : Int) (payload : TelemetryPayload) (s : Store) :
    (s.put draw agent now payload).slowQueries = insertAll SlowQueryLog.key s.slowQueries
      (Report.slow draw ⟨agent, payload⟩) := by
  obtain ⟨-, -, hslow⟩ := putDevices_kept draw agent now (payload.snmpDevices.getD []) s
  obtain ⟨-, -, -, hslow', -⟩ := putDatabases_kept draw agent (payload.databases.getD [])
    ((payload.snmpDevices.getD []).foldl (Store.putDevice draw agent now) s)
  rw [hslow] at hslow'
  exact hslow'

theorem limit_put (agent : AuthenticatedAgent) (now : Int) (payload : TelemetryPayload) (s : Store) :
    (s.put draw agent now payload).limit = limitsAfter agent (payload.databases.getD []) s.limit := by
  obtain ⟨hinstances, -, -⟩ := putDevices_kept draw agent now (payload.snmpDevices.getD []) s
  obtain ⟨-, -, -, -, hlimit⟩ := putDatabases_kept draw agent (payload.databases.getD [])
    ((payload.snmpDevices.getD []).foldl (Store.putDevice draw agent now) s)
  have hsame : ((payload.snmpDevices.getD []).foldl (Store.putDevice draw agent now) s).limit = s.limit := by
    funext key
    rw [Store.limit, hinstances, Store.limit]
  rw [hsame] at hlimit
  exact hlimit

/-- A sequence inside the window goes through, and its rows are those of its batches. -/
theorem ingestAll_of_inWindow (toISOString : Int → String) (h : Drawn draw s) {ds : List Delivery}
    (hw : ∀ d ∈ ds, d.report.payload.inWindow d.ctx = true) :
    ∃ s', ingestAll toISOString draw ds s = .ok s' ∧ Drawn draw s' ∧
      s'.metrics.rows = insertAll MetricRow.id s.metrics.rows
        ((batches (ds.map Delivery.report) s.limit).flatMap (batchRows draw)) ∧
      s'.slowQueries = insertAll SlowQueryLog.key s.slowQueries ((ds.map Delivery.report).flatMap (Report.slow draw)) ∧
      s'.limit = (ds.map Delivery.report).foldl (fun limit r => limitsAfter r.agent r.databases limit) s.limit := by
  induction ds generalizing s with
  | nil => exact ⟨s, rfl, h, rfl, rfl, rfl⟩
  | cons d ds ih =>
      obtain ⟨result, hone, -, -⟩ := ingestTelemetry_of_inWindow toISOString d.report.agent h (hw d List.mem_cons_self)
      obtain ⟨s', hrest, hdrawn, hmetrics, hslow, hlimit⟩ := ih (h.put d.report.agent d.ctx.now d.report.payload)
        fun d' hd' => hw d' (List.mem_cons_of_mem _ hd')
      refine ⟨s', ?_, hdrawn, ?_, ?_, ?_⟩
      · simp only [ingestAll, hone, hrest]
      · rw [hmetrics, limit_put, List.map_cons, batches, List.flatMap_cons, insertAll_append]
        rfl
      · rw [hslow, slow_put, List.map_cons, List.flatMap_cons, insertAll_append]
      · rw [hlimit, limit_put]
        rfl

theorem mem_of_mem_batches {rs : List Report} {limit : InstanceKey → Option Nat}
    {b : Report × (InstanceKey → Option Nat)} (h : b ∈ batches rs limit) : b.1 ∈ rs := by
  induction rs generalizing limit with
  | nil => cases h
  | cons r rs ih =>
      rcases List.mem_cons.mp h with rfl | hrest
      · exact List.mem_cons_self
      · exact List.mem_cons_of_mem _ (ih hrest)

theorem mem_batches_append (rs : List Report) (r : Report) (limit : InstanceKey → Option Nat) :
    (r, rs.foldl (fun limit r => limitsAfter r.agent r.databases limit) limit) ∈ batches (rs ++ [r]) limit := by
  induction rs generalizing limit with
  | nil => exact List.mem_cons_self
  | cons head rs ih => exact List.mem_cons_of_mem _ (ih _)

def Store.deliver (draw : Source → Nat) (s : Store) (d : Delivery) : Store :=
  s.put draw d.report.agent d.ctx.now d.report.payload

theorem ingestAll_eq_foldl (toISOString : Int → String) (h : Drawn draw s) {ds : List Delivery}
    (hw : ∀ d ∈ ds, d.report.payload.inWindow d.ctx = true) :
    ingestAll toISOString draw ds s = .ok (ds.foldl (Store.deliver draw) s) := by
  induction ds generalizing s with
  | nil => rfl
  | cons d ds ih =>
      obtain ⟨result, hone, -, -⟩ := ingestTelemetry_of_inWindow toISOString d.report.agent h (hw d List.mem_cons_self)
      have hrest := ih (h.put d.report.agent d.ctx.now d.report.payload) fun d' hd' => hw d' (List.mem_cons_of_mem _ hd')
      simp only [ingestAll, hone, hrest]
      rfl

/-! ## Limits -/

theorem limitsAfter_eq (agent : AuthenticatedAgent) (databases : List DatabaseMetric) (limit : InstanceKey → Option Nat)
    (key : InstanceKey) :
    limitsAfter agent databases limit key = (Report.lastLimit agent databases key).or (limit key) := by
  induction databases generalizing limit with
  | nil => rfl
  | cons db databases ih =>
      have hlast : Report.lastLimit agent (db :: databases) key = (Report.lastLimit agent databases key).or
          (Function.update (fun _ => none) (instanceKey agent db) (db.instance.maxConnections.or none) key) := ih _
      have hafter : limitsAfter agent (db :: databases) limit key = (Report.lastLimit agent databases key).or
          (Function.update limit (instanceKey agent db)
            (db.instance.maxConnections.or (limit (instanceKey agent db))) key) := ih _
      rw [hafter, hlast, Option.or_assoc]
      congr 1
      by_cases hkey : key = instanceKey agent db
      · subst hkey
        rw [Function.update_self, Function.update_self, Option.or_none]
      · rw [Function.update_of_ne hkey, Function.update_of_ne hkey, Option.none_or]

/-- A row of the databases, by the entry it comes from and the limit stored by then. -/
theorem mem_databasesRows {agent : AuthenticatedAgent} {databases : List DatabaseMetric} {limit : InstanceKey → Option Nat}
    {row : MetricRow} : row ∈ databasesRows draw agent databases limit ↔
      ∃ before db after, databases = before ++ db :: after ∧ row ∈ databaseRows draw agent db
        (db.instance.maxConnections.or ((Report.lastLimit agent before (instanceKey agent db)).or
          (limit (instanceKey agent db)))) := by
  induction databases generalizing limit with
  | nil => simp [databasesRows]
  | cons head databases ih =>
      rw [databasesRows, List.mem_append, Function.update_self, ih]
      have hlimit : ∀ before db, (Report.lastLimit agent before (instanceKey agent db)).or
          (Function.update limit (instanceKey agent head)
            (head.instance.maxConnections.or (limit (instanceKey agent head))) (instanceKey agent db)) =
          (Report.lastLimit agent (head :: before) (instanceKey agent db)).or (limit (instanceKey agent db)) := by
        intro before db
        rw [← limitsAfter_eq, ← limitsAfter_eq]
        rfl
      simp only [hlimit]
      constructor
      · rintro (hrow | ⟨before, db, after, rfl, hrow⟩)
        · exact ⟨[], head, databases, rfl, hrow⟩
        · exact ⟨head :: before, db, after, rfl, hrow⟩
      · rintro ⟨before, db, after, hsplit, hrow⟩
        rcases before with _ | ⟨first, before⟩
        · rw [List.nil_append, List.cons.injEq] at hsplit
          obtain ⟨rfl, rfl⟩ := hsplit
          exact .inl hrow
        · rw [List.cons_append, List.cons.injEq] at hsplit
          obtain ⟨rfl, rfl⟩ := hsplit
          exact .inr ⟨before, db, after, rfl, hrow⟩

/-! ## Which rows depend on the stored limit -/

theorem usage_of_limit {m : DatabaseReadings} {limit limit' : Option Nat} {v : ℚ} (h : usage m limit = some v)
    (hlimit : m.connectionUsagePercent = none → m.activeConnections.isSome = true → limit = limit' ∨ limit = some 0) :
    usage m limit' = some v := by
  unfold usage at h ⊢
  cases hpercent : m.connectionUsagePercent with
  | some percent =>
      rw [hpercent] at h
      exact h
  | none =>
      cases hactive : m.activeConnections with
      | none => simp [hpercent, hactive] at h
      | some active =>
          rw [hpercent, hactive] at h
          rcases hlimit hpercent (by rw [hactive]; rfl) with rfl | rfl
          · exact h
          · cases h

/-- A row that does not come from the limit, or comes from the same one, is there under the other limit too. -/
theorem mem_databaseRows_of_limit {agent : AuthenticatedAgent} {db : DatabaseMetric} {limit limit' : Option Nat}
    {row : MetricRow} (h : row ∈ databaseRows draw agent db (db.instance.maxConnections.or limit))
    (hlimit : db.derives = true → limit = limit' ∨ limit = some 0) :
    row ∈ databaseRows draw agent db (db.instance.maxConnections.or limit') := by
  unfold databaseRows at h ⊢
  by_cases hreach : db.reachable = true
  · rw [if_pos hreach] at h ⊢
    obtain ⟨metric, v, inst, hpoint, rfl⟩ := mem_collect.mp h
    refine mem_collect.mpr ⟨metric, v, inst, ?_, rfl⟩
    have husage : usage db.metrics (db.instance.maxConnections.or limit) = some v →
        usage db.metrics (db.instance.maxConnections.or limit') = some v := by
      intro hv
      refine usage_of_limit hv fun hpercent hactive => ?_
      cases hmax : db.instance.maxConnections with
      | some max => exact .inl rfl
      | none => exact hlimit (by simp [DatabaseMetric.derives, hreach, hpercent, hactive, hmax])
    simp only [databasePoints, List.mem_cons, Prod.mk.injEq, List.not_mem_nil, or_false] at hpoint ⊢
    rcases hpoint with h | h | ⟨rfl, hv, rfl⟩ | h | h | h | h | h
    case inr.inr.inl => exact .inr (.inr (.inl ⟨rfl, (husage hv.symm).symm, rfl⟩))
    all_goals simp [h]
  · rw [if_neg hreach] at h
    cases h

/-- The entry leaves its share to the limit that is stored before the payload. -/
structure Report.Exposed (r : Report) (before : List DatabaseMetric) (db : DatabaseMetric) (after : List DatabaseMetric) :
    Prop where
  split : r.databases = before ++ db :: after
  derives : db.derives = true
  unset : Report.lastLimit r.agent before (instanceKey r.agent db) = none

theorem mem_batchRows_of_limit {r : Report} {limit limit' : InstanceKey → Option Nat} {row : MetricRow}
    (h : row ∈ databasesRows draw r.agent r.databases limit)
    (hlimit : ∀ before db after, r.Exposed before db after →
      limit (instanceKey r.agent db) = limit' (instanceKey r.agent db) ∨ limit (instanceKey r.agent db) = some 0) :
    row ∈ databasesRows draw r.agent r.databases limit' := by
  obtain ⟨before, db, after, hsplit, hrow⟩ := mem_databasesRows.mp h
  refine mem_databasesRows.mpr ⟨before, db, after, hsplit, mem_databaseRows_of_limit hrow fun hderives => ?_⟩
  cases hlast : Report.lastLimit r.agent before (instanceKey r.agent db) with
  | some l => exact .inl rfl
  | none => exact hlimit before db after ⟨hsplit, hderives, hlast⟩

/-! ## Rows of one key -/

theorem metric_collect_sublist (c : RowCollector) (points : List (MetricType × Option ℚ × String)) :
    ((c.collect points).map MetricRow.metric).Sublist (points.map Prod.fst) := by
  induction points with
  | nil => exact List.Sublist.refl _
  | cons p points ih =>
      rw [RowCollector.collect, List.flatMap_cons, List.map_append, List.map_cons]
      rcases p with ⟨metric, _ | v, inst⟩
      · exact ih.cons _
      · exact ih.cons_cons _

theorem nodup_databaseRows (agent : AuthenticatedAgent) (db : DatabaseMetric) (limit : Option Nat) :
    ((databaseRows draw agent db limit).map MetricRow.id).Nodup := by
  unfold databaseRows
  split
  · apply List.Nodup.of_map fun id : Nat × MetricType × String × Int => id.2.1
    rw [List.map_map]
    exact (metric_collect_sublist _ _).nodup (by simp [databasePoints])
  · exact List.nodup_nil

theorem source_of_mem_databaseRows {agent : AuthenticatedAgent} {db : DatabaseMetric} {limit : Option Nat} {row : MetricRow}
    (h : row ∈ databaseRows draw agent db limit) :
    row.sourceId = draw (.database (instanceKey agent db)) ∧ row.time = db.collectedAt.ms := by
  unfold databaseRows at h
  split at h
  · exact source_of_mem_collect h
  · cases h

theorem nodup_databasesRows {agent : AuthenticatedAgent} {databases : List DatabaseMetric} (limit : InstanceKey → Option Nat)
    (h : (databases.map fun db => (draw (.database (instanceKey agent db)), db.collectedAt.ms)).Nodup) :
    ((databasesRows draw agent databases limit).map MetricRow.id).Nodup := by
  induction databases generalizing limit with
  | nil => exact List.nodup_nil
  | cons db databases ih =>
      rw [List.map_cons, List.nodup_cons] at h
      rw [databasesRows, List.map_append]
      refine (nodup_databaseRows agent db _).append (ih _ h.2) fun id hid hid' => h.1 ?_
      obtain ⟨row, hrow, rfl⟩ := List.mem_map.mp hid
      obtain ⟨row', hrow', heq⟩ := List.mem_map.mp hid'
      obtain ⟨before, db', after, rfl, hdb'⟩ := mem_databasesRows.mp hrow'
      obtain ⟨hsource, htime⟩ := source_of_mem_databaseRows hrow
      obtain ⟨hsource', htime'⟩ := source_of_mem_databaseRows hdb'
      simp only [MetricRow.id, Prod.mk.injEq] at heq
      refine List.mem_map.mpr ⟨db', List.mem_append_right _ List.mem_cons_self, ?_⟩
      rw [← hsource', ← htime', ← hsource, ← htime, heq.1, heq.2.2.2]

theorem reading_of_mem_batchRows {r : Report} {limit : InstanceKey → Option Nat} {row : MetricRow}
    (h : row ∈ batchRows draw (r, limit)) : ∃ q ∈ r.readings, q.1.id draw = row.sourceId ∧ q.2 = row.time := by
  simp only [batchRows, metricRows, List.mem_append] at h
  simp only [Report.readings, List.mem_append]
  rcases h with (hsystem | hdevice) | hdatabase
  · cases hsys : r.payload.system with
    | none =>
        rw [hsys] at hsystem
        cases hsystem
    | some system =>
        rw [hsys, Option.map_some, Option.getD_some] at hsystem
        obtain ⟨hsource, htime⟩ := source_of_mem_collect hsystem
        exact ⟨_, .inl (.inl (List.mem_singleton.mpr rfl)), hsource.symm, htime.symm⟩
  · obtain ⟨snmp, hsnmp, hrow⟩ := List.mem_flatMap.mp hdevice
    unfold deviceRows at hrow
    split at hrow
    · obtain ⟨hsource, htime⟩ := source_of_mem_collect hrow
      exact ⟨_, .inl (.inr (List.mem_map_of_mem hsnmp)), hsource.symm, htime.symm⟩
    · cases hrow
  · obtain ⟨before, db, after, hsplit, hrow⟩ := mem_databasesRows.mp hdatabase
    obtain ⟨hsource, htime⟩ := source_of_mem_databaseRows hrow
    have hdb : db ∈ r.databases := by
      rw [Report.databases, hsplit]
      exact List.mem_append_right _ List.mem_cons_self
    exact ⟨_, .inr (List.mem_map_of_mem hdb), hsource.symm, htime.symm⟩

variable {reports : List Report}

/-- No source is read twice at the same time, in one payload or in two. -/
theorem Deliverable.same_reading (h : Deliverable draw reports) {r r' : Report} (hr : r ∈ reports) (hr' : r' ∈ reports)
    {q q' : Reporter × Int} (hq : q ∈ r.readings) (hq' : q' ∈ r'.readings) (hid : q.1.id draw = q'.1.id draw)
    (htime : q.2 = q'.2) : q = q' ∧ r = r' := by
  have hwho := h.ids q (List.mem_flatMap.mpr ⟨r, hr, hq⟩) q' (List.mem_flatMap.mpr ⟨r', hr', hq'⟩) hid
  obtain rfl : q = q' := Prod.ext hwho htime
  refine ⟨rfl, ?_⟩
  by_contra hne
  have hsymm : Std.Symm (Function.onFun List.Disjoint Report.readings) := ⟨fun _ _ hab _ hb ha => hab ha hb⟩
  exact (List.nodup_flatMap.mp h.once).2.forall hr hr' hne hq hq'

/-- Rows of one key come from one payload. -/
theorem Deliverable.same_report (h : Deliverable draw reports) {r r' : Report} (hr : r ∈ reports) (hr' : r' ∈ reports)
    {limit limit' : InstanceKey → Option Nat} {row row' : MetricRow} (hrow : row ∈ batchRows draw (r, limit))
    (hrow' : row' ∈ batchRows draw (r', limit')) (hid : row.id = row'.id) : r = r' := by
  obtain ⟨q, hq, hsource, htime⟩ := reading_of_mem_batchRows hrow
  obtain ⟨q', hq', hsource', htime'⟩ := reading_of_mem_batchRows hrow'
  simp only [MetricRow.id, Prod.mk.injEq] at hid
  exact (h.same_reading hr hr' hq hq' (by rw [hsource, hsource', hid.1]) (by rw [htime, htime', hid.2.2.2])).2

theorem Deliverable.nodup_entries (h : Deliverable draw reports) {r : Report} (hr : r ∈ reports) :
    (r.databases.map fun db => (draw (.database (instanceKey r.agent db)), db.collectedAt.ms)).Nodup := by
  have hreadings : (r.databases.map fun db =>
      ((.drawn (.database (instanceKey r.agent db)), db.collectedAt.ms) : Reporter × Int)).Nodup :=
    (List.nodup_append.mp ((List.nodup_flatMap.mp h.once).1 r hr)).2.1
  have hinj := hreadings.map_on (f := fun q => (q.1.id draw, q.2)) fun q hq q' hq' heq => by
    rw [Prod.mk.injEq] at heq
    exact (h.same_reading hr hr (List.mem_append_right _ hq) (List.mem_append_right _ hq') heq.1 heq.2).1
  rw [List.map_map] at hinj
  exact hinj

/-- The entry of a source and time is at one place. -/
theorem Deliverable.entry_eq (h : Deliverable draw reports) {r : Report} (hr : r ∈ reports)
    {before before' after after' : List DatabaseMetric} {db db' : DatabaseMetric}
    (hsplit : r.databases = before ++ db :: after)
    (hsplit' : r.databases = before' ++ db' :: after')
    (hid : draw (.database (instanceKey r.agent db)) = draw (.database (instanceKey r.agent db')))
    (htime : db.collectedAt.ms = db'.collectedAt.ms) : db = db' ∧ before = before' := by
  have hnodup := h.nodup_entries hr
  have hmem : db ∈ r.databases := by simp [hsplit]
  have hmem' : db' ∈ r.databases := by simp [hsplit']
  obtain rfl : db = db' := List.inj_on_of_nodup_map hnodup hmem hmem' (by rw [hid, htime])
  have honce := hnodup.of_map
  rw [hsplit, List.nodup_append, List.nodup_cons] at honce
  obtain ⟨-, ⟨hafter, -⟩, hbefore⟩ := honce
  rw [hsplit, List.append_cons_inj_of_notMem (fun hin => hbefore db hin db List.mem_cons_self rfl) hafter] at hsplit'
  exact ⟨rfl, hsplit'.1⟩

/-- The first row of a key under limits that lose no more than a zero says is the first row under the others. -/
theorem Deliverable.first_of_limit (h : Deliverable draw reports) {r : Report} (hr : r ∈ reports)
    {limit limit' : InstanceKey → Option Nat} {k : Nat × MetricType × String × Int} {row : MetricRow}
    (hfirst : first MetricRow.id k (batchRows draw (r, limit)) = some row)
    (hlimit : ∀ before db after, r.Exposed before db after →
      limit (instanceKey r.agent db) = limit' (instanceKey r.agent db) ∨ limit (instanceKey r.agent db) = some 0) :
    first MetricRow.id k (batchRows draw (r, limit')) = some row := by
  rw [batchRows, metricRows, first_append] at hfirst ⊢
  rcases Option.or_eq_some_iff.mp hfirst with hfixed | ⟨hnone, hdb⟩
  · rw [hfixed, Option.some_or]
  · rw [hnone, Option.none_or]
    obtain rfl := key_of_first hdb
    exact first_of_nodup (nodup_databasesRows limit' (h.nodup_entries hr)) (mem_batchRows_of_limit (mem_of_first hdb) hlimit)

/-! ## Independent payloads -/

theorem Report.Exposed.max_eq_none {r : Report} {before after : List DatabaseMetric} {db : DatabaseMetric}
    (h : r.Exposed before db after) : db.instance.maxConnections = none := by
  have hderives := h.derives
  simp only [DatabaseMetric.derives, Bool.and_eq_true, Option.isNone_iff_eq_none] at hderives
  exact hderives.2

theorem Report.Exposed.lastLimit_eq {r : Report} {before after : List DatabaseMetric} {db : DatabaseMetric}
    (h : r.Exposed before db after) :
    Report.lastLimit r.agent r.databases (instanceKey r.agent db) = Report.lastLimit r.agent after
      (instanceKey r.agent db) := by
  have happend : Report.lastLimit r.agent r.databases = limitsAfter r.agent after
      (Function.update (Report.lastLimit r.agent before) (instanceKey r.agent db)
        (db.instance.maxConnections.or (Report.lastLimit r.agent before (instanceKey r.agent db)))) := by
    rw [h.split, Report.lastLimit, limitsAfter, List.foldl_append]
    rfl
  rw [happend, limitsAfter_eq, Function.update_self, h.max_eq_none, h.unset, Option.none_or, Option.or_none]

/-- What one payload does to a limit that another relies on. -/
theorem Independent.limit_step (h : Independent draw reports) {r r' : Report} (hr : r ∈ reports) (hr' : r' ∈ reports)
    {before after : List DatabaseMetric} {db : DatabaseMetric} (hexp : r.Exposed before db after)
    (limit : InstanceKey → Option Nat) :
    limitsAfter r'.agent r'.databases limit (instanceKey r.agent db) = limit (instanceKey r.agent db) ∨
      r' = r ∧ limitsAfter r'.agent r'.databases limit (instanceKey r.agent db) = some 0 := by
  obtain ⟨hothers, hafter⟩ := h.limits r hr before db after hexp.split hexp.derives hexp.unset
  rw [limitsAfter_eq]
  by_cases hsame : r' = r
  · subst hsame
    rw [hexp.lastLimit_eq]
    cases hlast : Report.lastLimit r'.agent after (instanceKey r'.agent db) with
    | none => exact .inl (Option.none_or)
    | some v =>
        rw [hlast, Option.getD_some] at hafter
        exact .inr ⟨rfl, by rw [hafter, Option.some_or]⟩
  · rw [hothers r' hr' hsame, Option.none_or]
    exact .inl rfl

theorem Independent.limit_of_mem_batches (h : Independent draw reports) {rs : List Report} (hrs : ∀ r ∈ rs, r ∈ reports)
    {limit limit' : InstanceKey → Option Nat} {r : Report} (hr : (r, limit') ∈ batches rs limit)
    {before after : List DatabaseMetric} {db : DatabaseMetric} (hexp : r.Exposed before db after) :
    limit' (instanceKey r.agent db) = limit (instanceKey r.agent db) ∨ limit' (instanceKey r.agent db) = some 0 := by
  -- a limit that became zero stays so, whichever payload comes next
  induction rs generalizing limit with
  | nil => cases hr
  | cons head rs ih =>
      rcases List.mem_cons.mp hr with heq | hrest
      · rw [(Prod.mk.inj heq).2]
        exact .inl rfl
      · have hreport : r ∈ reports := hrs r (mem_of_mem_batches hr)
        rcases ih (fun r hr => hrs r (List.mem_cons_of_mem _ hr)) hrest with hlater | hzero
        · rcases h.limit_step hreport (hrs head List.mem_cons_self) hexp limit with hkeep | ⟨-, hzero⟩
          · exact .inl (hlater.trans hkeep)
          · exact .inr (hlater.trans hzero)
        · exact .inr hzero

/-- At its first delivery a payload finds the limits it relies on as they were. -/
theorem Independent.exists_first_delivery (h : Independent draw reports) {rs : List Report} (hrs : ∀ r ∈ rs, r ∈ reports)
    (limit : InstanceKey → Option Nat) {r : Report} (hr : r ∈ rs) :
    ∃ limit', (r, limit') ∈ batches rs limit ∧ ∀ before db after, r.Exposed before db after →
      limit' (instanceKey r.agent db) = limit (instanceKey r.agent db) := by
  induction rs generalizing limit with
  | nil => cases hr
  | cons head rs ih =>
      by_cases hhead : head = r
      · subst hhead
        exact ⟨limit, List.mem_cons_self, fun _ _ _ _ => rfl⟩
      · have htail : r ∈ rs := (List.mem_cons.mp hr).resolve_left fun heq => hhead heq.symm
        obtain ⟨limit', hmem, hsame⟩ := ih (fun r hr => hrs r (List.mem_cons_of_mem _ hr))
          (limitsAfter head.agent head.databases limit) htail
        refine ⟨limit', List.mem_cons_of_mem _ hmem, fun before db after hexp => (hsame before db after hexp).trans ?_⟩
        rcases h.limit_step (hrs r hr) (hrs head List.mem_cons_self) hexp limit with hkeep | ⟨heq, -⟩
        · exact hkeep
        · exact absurd heq hhead

/-- The metric rows after a sequence, in terms of which payloads it delivers and the limits at its start. -/
theorem Independent.mem_rows (h : Independent draw reports) (hd : Deliverable draw reports) {rs : List Report}
    (hrs : ∀ r, r ∈ rs ↔ r ∈ reports) (table : List MetricRow) (limit : InstanceKey → Option Nat) (row : MetricRow) :
    row ∈ insertAll MetricRow.id table ((batches rs limit).flatMap (batchRows draw)) ↔
      row ∈ table ∨ (∀ row' ∈ table, row'.id ≠ row.id) ∧
        ∃ r ∈ reports, first MetricRow.id row.id (batchRows draw (r, limit)) = some row := by
  have honly : ∀ r ∈ rs, r ∈ reports := fun r hr => (hrs r).mp hr
  have hstart : ∀ b ∈ batches rs limit, ∀ k row, first MetricRow.id k (batchRows draw b) = some row →
      first MetricRow.id k (batchRows draw (b.1, limit)) = some row := fun b hb k row hfirst =>
    hd.first_of_limit (honly b.1 (mem_of_mem_batches hb)) hfirst fun _ _ _ hexp => h.limit_of_mem_batches honly hb hexp
  have hagree : Agree MetricRow.id (batchRows draw) (batches rs limit) := by
    intro b hb b' hb' k row row' hfirst hfirst'
    have hsame : b.1 = b'.1 := by
      apply hd.same_report (honly _ (mem_of_mem_batches hb)) (honly _ (mem_of_mem_batches hb')) (mem_of_first hfirst)
        (mem_of_first hfirst')
      rw [key_of_first hfirst, key_of_first hfirst']
    have hrow := hstart b hb k row hfirst
    have hrow' := hstart b' hb' k row' hfirst'
    rw [hsame, hrow'] at hrow
    exact (Option.some.inj hrow).symm
  rw [mem_insertAll_batches hagree]
  refine or_congr_right (and_congr_right fun _ => ?_)
  constructor
  · rintro ⟨b, hb, hfirst⟩
    exact ⟨b.1, honly _ (mem_of_mem_batches hb), hstart b hb _ _ hfirst⟩
  · rintro ⟨r, hr, hfirst⟩
    obtain ⟨limit', hmem, hsame⟩ := h.exists_first_delivery honly limit ((hrs r).mpr hr)
    exact ⟨(r, limit'), hmem, hd.first_of_limit hr hfirst fun before db after hexp => .inl (hsame before db after hexp).symm⟩

theorem Covers.mem_iff {ds : List Delivery} (h : Covers reports ds) (r : Report) :
    r ∈ ds.map Delivery.report ↔ r ∈ reports := by
  constructor
  · intro hr
    obtain ⟨d, hd, rfl⟩ := List.mem_map.mp hr
    exact h.only d hd
  · intro hr
    obtain ⟨d, hd, rfl⟩ := h.each r hr
    exact List.mem_map_of_mem hd

/-- Nothing is new in a payload that was delivered before. -/
theorem Independent.nothing_new (h : Independent draw reports) (hd : Deliverable draw reports)
    {ds : List Delivery} (hds : Covers reports ds) {s₁ : Store}
    (hmetrics : s₁.metrics.rows = insertAll MetricRow.id s.metrics.rows
      ((batches (ds.map Delivery.report) s.limit).flatMap (batchRows draw)))
    (hslow : s₁.slowQueries = insertAll SlowQueryLog.key s.slowQueries ((ds.map Delivery.report).flatMap (Report.slow draw)))
    (hlimit : s₁.limit = (ds.map Delivery.report).foldl (fun limit r => limitsAfter r.agent r.databases limit) s.limit)
    {r : Report} (hr : r ∈ reports) (now : Int) :
    (s₁.put draw r.agent now r.payload).metrics.rows = s₁.metrics.rows ∧
      (s₁.put draw r.agent now r.payload).slowQueries = s₁.slowQueries := by
  constructor
  · apply insertAll_eq_self
    intro row hrow
    obtain ⟨row', hrow'⟩ := exists_first hrow (rfl : row.id = row.id)
    -- one more delivery at the end of the sequence
    have hmem : (r, s₁.limit) ∈ batches (ds.map Delivery.report ++ [r]) s.limit := by
      rw [hlimit]
      exact mem_batches_append _ _ _
    have honly : ∀ r' ∈ ds.map Delivery.report ++ [r], r' ∈ reports := by
      intro r' hr'
      rcases List.mem_append.mp hr' with hbefore | hlast
      · exact (hds.mem_iff r').mp hbefore
      · exact List.mem_singleton.mp hlast ▸ hr
    have hfirst := hd.first_of_limit hr hrow' fun _ _ _ hexp => h.limit_of_mem_batches honly hmem hexp
    obtain ⟨limit', hmem', hsame⟩ := h.exists_first_delivery (fun r' hr' => (hds.mem_iff r').mp hr') s.limit
      ((hds.mem_iff r).mpr hr)
    have hfirst' := hd.first_of_limit hr hfirst fun before db after hexp => .inl (hsame before db after hexp).symm
    rw [hmetrics, ← key_of_first hfirst']
    exact exists_mem_insertAll (List.mem_flatMap.mpr ⟨(r, limit'), hmem', mem_of_first hfirst'⟩)
  · rw [slow_put]
    apply insertAll_eq_self
    intro q hq
    rw [hslow]
    exact exists_mem_insertAll (List.mem_flatMap.mpr ⟨r, (hds.mem_iff r).mpr hr, hq⟩)

theorem orderFree_of_independent (hd : Deliverable draw reports) (h : Independent draw reports) :
    OrderFree toISOString draw reports := by
  intro s hs ds ds' hds hds'
  obtain ⟨s₁, hrun, hdrawn, hmetrics, hslow, hlimit⟩ := ingestAll_of_inWindow toISOString hs hds.window
  obtain ⟨s₂, hrun', -, hmetrics', hslow', -⟩ := ingestAll_of_inWindow toISOString hs hds'.window
  have hagree : ∀ {ds : List Delivery}, Covers reports ds → Agree SlowQueryLog.key (Report.slow draw)
    (ds.map Delivery.report) :=
    fun hds r hr r' hr' => h.slow r ((hds.mem_iff r).mp hr) r' ((hds.mem_iff r').mp hr')
  refine ⟨s₁, s₂, hrun, hrun', ⟨fun row => ?_, fun q => ?_⟩, fun d hreport hw => ?_⟩
  · rw [hmetrics, hmetrics', h.mem_rows hd hds.mem_iff, h.mem_rows hd hds'.mem_iff]
  · rw [hslow, hslow', mem_insertAll_batches (hagree hds), mem_insertAll_batches (hagree hds')]
    simp only [hds.mem_iff, hds'.mem_iff]
  · obtain ⟨result, hok, hstored, hslowStored⟩ := ingestTelemetry_of_inWindow toISOString d.report.agent hdrawn hw
    obtain ⟨hsame, hsame'⟩ := h.nothing_new hd hds hmetrics hslow hlimit hreport d.ctx.now
    rw [hsame, Nat.sub_self] at hstored
    rw [hsame', Nat.sub_self] at hslowStored
    exact ⟨_, result, hok, hstored, hslowStored⟩

/-! ## Why the condition is needed -/

theorem Deliverable.exists_covers (h : Deliverable draw reports) {rs : List Report} (hrs : ∀ r, r ∈ rs ↔ r ∈ reports) :
    ∃ ds : List Delivery, ds.map Delivery.report = rs ∧ Covers reports ds := by
  have hex : ∀ rs : List Report, (∀ r ∈ rs, r ∈ reports) →
      ∃ ds : List Delivery, ds.map Delivery.report = rs ∧ ∀ d ∈ ds, d.report.payload.inWindow d.ctx = true := by
    intro rs
    induction rs with
    | nil => exact fun _ => ⟨[], rfl, fun d hd => nomatch hd⟩
    | cons r rs ih =>
        intro hmem
        obtain ⟨ctx, hctx⟩ := h.window r (hmem r List.mem_cons_self)
        obtain ⟨ds, hmap, hw⟩ := ih fun r hr => hmem r (List.mem_cons_of_mem _ hr)
        exact ⟨⟨r, ctx⟩ :: ds, by rw [List.map_cons, hmap], List.forall_mem_cons.mpr ⟨hctx, hw⟩⟩
  obtain ⟨ds, rfl, hw⟩ := hex rs fun r hr => (hrs r).mp hr
  refine ⟨ds, rfl, fun d hd => (hrs _).mp (List.mem_map_of_mem hd), fun r hr => ?_, hw⟩
  exact List.mem_map.mp ((hrs r).mpr hr)

/-- A store that has nothing but one instance, with this limit. -/
def Store.single (draw : Source → Nat) (agent : AuthenticatedAgent) (db : DatabaseMetric) (limit : Option Nat) : Store :=
  { Store.empty with
    instances := [{ newInstance agent (draw (.database (instanceKey agent db))) db db.collectedAt.ms with
      maxConnections := limit }] }

theorem drawn_single (agent : AuthenticatedAgent) (db : DatabaseMetric) (limit : Option Nat) :
    Drawn draw (Store.single draw agent db limit) where
  devices := fun d hd => nomatch hd
  instances := by
    intro d hd
    rw [List.mem_singleton.mp hd]
    rfl

theorem limit_single (agent : AuthenticatedAgent) (db : DatabaseMetric) (limit : Option Nat) :
    (Store.single draw agent db limit).limit (instanceKey agent db) = limit := by
  simp [Store.limit, Store.single, lookup, newInstance, DatabaseInstance.key, instanceKey]

/-- The rows after two sequences that deliver the same payloads. -/
theorem OrderFree.rows (h : OrderFree toISOString draw reports) (hd : Deliverable draw reports) (hs : Drawn draw s)
    {rs rs' : List Report} (hrs : ∀ r, r ∈ rs ↔ r ∈ reports) (hrs' : ∀ r, r ∈ rs' ↔ r ∈ reports) :
    (∀ row, row ∈ insertAll MetricRow.id s.metrics.rows ((batches rs s.limit).flatMap (batchRows draw)) ↔
      row ∈ insertAll MetricRow.id s.metrics.rows ((batches rs' s.limit).flatMap (batchRows draw))) ∧
    ∀ q, q ∈ insertAll SlowQueryLog.key s.slowQueries (rs.flatMap (Report.slow draw)) ↔
      q ∈ insertAll SlowQueryLog.key s.slowQueries (rs'.flatMap (Report.slow draw)) := by
  obtain ⟨ds, rfl, hds⟩ := hd.exists_covers hrs
  obtain ⟨ds', rfl, hds'⟩ := hd.exists_covers hrs'
  obtain ⟨s₁, s₂, hrun, hrun', hsame, -⟩ := h s hs ds ds' hds hds'
  obtain ⟨s₁', hok, -, hmetrics, hslow, -⟩ := ingestAll_of_inWindow toISOString hs hds.window
  obtain ⟨s₂', hok', -, hmetrics', hslow', -⟩ := ingestAll_of_inWindow toISOString hs hds'.window
  obtain rfl : s₁ = s₁' := Except.ok.inj (hrun.symm.trans hok)
  obtain rfl : s₂ = s₂' := Except.ok.inj (hrun'.symm.trans hok')
  rw [← hmetrics, ← hmetrics', ← hslow, ← hslow']
  exact hsame

/-- The key of the share of connections in use. -/
def usageId (draw : Source → Nat) (agent : AuthenticatedAgent) (db : DatabaseMetric) : Nat × MetricType × String × Int :=
  (draw (.database (instanceKey agent db)), .dbConnectionUsagePercent, "", db.collectedAt.ms)

theorem derivedUsage_isSome (active : Nat) (limit : Option Nat) :
    (∃ v, derivedUsage active limit = some v) ↔ limit.getD 0 ≠ 0 := by
  rcases limit with _ | _ | n <;> simp [derivedUsage]

/-- The row of the share is there exactly when the limit is known and not zero. -/
theorem usage_mem_databaseRows (draw : Source → Nat) (agent : AuthenticatedAgent) {db : DatabaseMetric}
    (h : db.derives = true) (limit : Option Nat) :
    (∃ row ∈ databaseRows draw agent db limit, row.id = usageId draw agent db) ↔ limit.getD 0 ≠ 0 := by
  simp only [DatabaseMetric.derives, Bool.and_eq_true, Option.isNone_iff_eq_none] at h
  obtain ⟨⟨⟨hreach, hpercent⟩, hactive⟩, -⟩ := h
  obtain ⟨active, hactive⟩ := Option.isSome_iff_exists.mp hactive
  have husage : usage db.metrics limit = derivedUsage active limit := by rw [usage, hpercent, hactive]
  rw [← derivedUsage_isSome active, databaseRows, if_pos hreach]
  constructor
  · rintro ⟨row, hrow, hid⟩
    obtain ⟨metric, v, inst, hpoint, rfl⟩ := mem_collect.mp hrow
    simp only [MetricRow.id, usageId, Prod.mk.injEq] at hid
    obtain ⟨-, rfl, -, -⟩ := hid
    simp only [databasePoints, List.mem_cons, Prod.mk.injEq, reduceCtorEq, false_and, List.not_mem_nil, or_false, false_or,
      true_and] at hpoint
    exact ⟨v, by rw [← husage, ← hpoint.1]⟩
  · rintro ⟨v, hv⟩
    refine ⟨_, mem_collect.mpr ⟨.dbConnectionUsagePercent, v, "", ?_, rfl⟩, rfl⟩
    rw [databasePoints, husage, hv]
    simp

/-- Of all rows of a payload, only those of its databases tell the share of connections in use. -/
theorem mem_databasesRows_of_usage {r : Report} {limit : InstanceKey → Option Nat} {row : MetricRow}
    (h : row ∈ batchRows draw (r, limit)) (hmetric : row.metric = .dbConnectionUsagePercent) :
    row ∈ databasesRows draw r.agent r.databases limit := by
  simp only [batchRows, metricRows, List.mem_append] at h
  rcases h with (hsystem | hdevice) | hdatabase
  · cases hsys : r.payload.system with
    | none =>
        rw [hsys] at hsystem
        cases hsystem
    | some system =>
        rw [hsys, Option.map_some, Option.getD_some] at hsystem
        obtain ⟨metric, v, inst, hpoint, rfl⟩ := mem_collect.mp hsystem
        obtain rfl : metric = .dbConnectionUsagePercent := hmetric
        simp [systemPoints, diskPoints] at hpoint
  · obtain ⟨snmp, -, hrow⟩ := List.mem_flatMap.mp hdevice
    unfold deviceRows at hrow
    split at hrow
    · obtain ⟨metric, v, inst, hpoint, rfl⟩ := mem_collect.mp hrow
      obtain rfl : metric = .dbConnectionUsagePercent := hmetric
      simp [devicePoints, portPoints] at hpoint
    · cases hrow
  · exact hdatabase

/-- The share that an entry leaves to the stored limit is stored exactly when some delivery finds one. -/
theorem Deliverable.usage_taken (h : Deliverable draw reports) {r : Report} (hr : r ∈ reports)
    {before after : List DatabaseMetric} {db : DatabaseMetric} (hexp : r.Exposed before db after) {rs : List Report}
    (hrs : ∀ r ∈ rs, r ∈ reports) (limit : InstanceKey → Option Nat) :
    (∃ row ∈ insertAll MetricRow.id [] ((batches rs limit).flatMap (batchRows draw)), row.id = usageId draw r.agent db) ↔
      ∃ limit', (r, limit') ∈ batches rs limit ∧ (limit' (instanceKey r.agent db)).getD 0 ≠ 0 := by
  have hdb : db ∈ r.databases := by
    rw [hexp.split]
    exact List.mem_append_right _ List.mem_cons_self
  have hreading : (Reporter.drawn (.database (instanceKey r.agent db)), db.collectedAt.ms) ∈ r.readings :=
    List.mem_append_right _ (List.mem_map_of_mem hdb)
  have hlimit : ∀ limit' : InstanceKey → Option Nat, db.instance.maxConnections.or
      ((Report.lastLimit r.agent before (instanceKey r.agent db)).or (limit' (instanceKey r.agent db))) =
        limit' (instanceKey r.agent db) := by
    intro limit'
    rw [hexp.unset, hexp.max_eq_none, Option.none_or, Option.none_or]
  constructor
  · rintro ⟨row, hrow, hid⟩
    rcases mem_insertAll.mp hrow with hold | ⟨-, hfind⟩
    · cases hold
    · obtain ⟨⟨r', limit'⟩, hb, hmem⟩ := List.mem_flatMap.mp (List.mem_of_find?_eq_some hfind)
      have hid' := hid
      simp only [MetricRow.id, usageId, Prod.mk.injEq] at hid'
      -- the row is of this entry of this payload
      obtain ⟨q, hq, hsource, htime⟩ := reading_of_mem_batchRows hmem
      obtain ⟨-, rfl⟩ := h.same_reading (hrs _ (mem_of_mem_batches hb)) hr hq hreading (hsource.trans hid'.1)
        (htime.trans hid'.2.2.2)
      obtain ⟨before', db', after', hsplit, hrow'⟩ := mem_databasesRows.mp (mem_databasesRows_of_usage hmem hid'.2.1)
      obtain ⟨hsource', htime'⟩ := source_of_mem_databaseRows hrow'
      obtain ⟨rfl, rfl⟩ := h.entry_eq hr hexp.split hsplit (hid'.1.symm.trans hsource') (hid'.2.2.2.symm.trans htime')
      rw [hlimit] at hrow'
      exact ⟨limit', hb, (usage_mem_databaseRows draw _ hexp.derives _).mp ⟨row, hrow', hid⟩⟩
  · rintro ⟨limit', hb, hne⟩
    obtain ⟨row, hrow, hid⟩ := (usage_mem_databaseRows draw r.agent hexp.derives _).mpr hne
    rw [← hlimit limit'] at hrow
    have hmem : row ∈ batchRows draw (r, limit') :=
      List.mem_append_right _ (mem_databasesRows.mpr ⟨before, db, after, hexp.split, hrow⟩)
    rw [← hid]
    exact exists_mem_insertAll (List.mem_flatMap.mpr ⟨(r, limit'), hb, hmem⟩)

theorem mem_batches_once {r : Report} {rs : List Report} (hr : r ∉ rs) {limit limit' : InstanceKey → Option Nat} :
    (r, limit') ∈ batches (r :: rs) limit ↔ limit' = limit := by
  rw [batches, List.mem_cons, Prod.mk.injEq]
  constructor
  · rintro (⟨-, hsame⟩ | hrest)
    · exact hsame
    · exact absurd (mem_of_mem_batches hrest) hr
  · exact fun hsame => .inl ⟨rfl, hsame⟩

/-- A limit that is there or not before a payload, and one that another delivery leaves, must say the same. -/
theorem OrderFree.limit_irrelevant (h : OrderFree toISOString draw reports) (hd : Deliverable draw reports) {r r' : Report}
    (hr : r ∈ reports) (hr' : r' ∈ reports) {before after : List DatabaseMetric} {db : DatabaseMetric}
    (hexp : r.Exposed before db after) (limit : Option Nat)
    (hunknown : r' = r → limit.getD 0 = 0) :
    limit.getD 0 ≠ 0 ↔ ((Report.lastLimit r'.agent r'.databases (instanceKey r.agent db)).or limit).getD 0 ≠ 0 := by
  have hnot : r ∉ reports.erase r := hd.nodup.not_mem_erase
  have hrs : ∀ x, x ∈ r :: reports.erase r ↔ x ∈ reports := fun x => (List.perm_cons_erase hr).mem_iff.symm
  have hrs' : ∀ x, x ∈ r' :: r :: reports.erase r ↔ x ∈ reports := by
    intro x
    rw [List.mem_cons, hrs, or_iff_right_of_imp]
    rintro rfl
    exact hr'
  have hrows := (h.rows hd (drawn_single r.agent db limit) hrs hrs').1
  have htaken := hd.usage_taken hr hexp (fun x hx => (hrs x).mp hx) (Store.single draw r.agent db limit).limit
  have htaken' := hd.usage_taken hr hexp (fun x hx => (hrs' x).mp hx) (Store.single draw r.agent db limit).limit
  have honce : (∃ limit', (r, limit') ∈ batches (r :: reports.erase r) (Store.single draw r.agent db limit).limit ∧
      (limit' (instanceKey r.agent db)).getD 0 ≠ 0) ↔ limit.getD 0 ≠ 0 := by
    simp only [mem_batches_once hnot, exists_eq_left, limit_single]
  have htwice : (∃ limit', (r, limit') ∈ batches (r' :: r :: reports.erase r) (Store.single draw r.agent db limit).limit ∧
      (limit' (instanceKey r.agent db)).getD 0 ≠ 0) ↔
        ((Report.lastLimit r'.agent r'.databases (instanceKey r.agent db)).or limit).getD 0 ≠ 0 := by
    rw [batches]
    simp only [List.mem_cons, Prod.mk.injEq, mem_batches_once hnot]
    constructor
    · rintro ⟨limit', ⟨hsame, rfl⟩ | rfl, hne⟩
      · rw [limit_single] at hne
        exact absurd (hunknown hsame.symm) hne
      · rwa [limitsAfter_eq, limit_single] at hne
    · intro hne
      refine ⟨_, .inr rfl, ?_⟩
      rwa [limitsAfter_eq, limit_single]
  rw [← honce, ← htwice, ← htaken, ← htaken']
  exact exists_congr fun row => and_congr_left fun _ => hrows row

theorem independent_of_orderFree (hd : Deliverable draw reports) (h : OrderFree toISOString draw reports) :
    Independent draw reports where
  limits := by
    intro r hr before db after hsplit hderives hunset
    have hexp : r.Exposed before db after := ⟨hsplit, hderives, hunset⟩
    refine ⟨fun r' hr' hne => ?_, ?_⟩
    · -- a limit of zero hides a known one, any other makes up for none
      cases hlast : Report.lastLimit r'.agent r'.databases (instanceKey r.agent db) with
      | none => rfl
      | some v =>
          have hknown := h.limit_irrelevant hd hr hr' hexp (some 1) fun heq => absurd heq hne
          have hnone := h.limit_irrelevant hd hr hr' hexp none fun heq => absurd heq hne
          rw [hlast, Option.some_or, Option.getD_some] at hknown hnone
          simp only [Option.getD_some, Option.getD_none, ne_eq, not_true_eq_false, one_ne_zero, not_false_eq_true,
            true_iff, false_iff, not_not] at hknown hnone
          exact absurd hnone hknown
    · have hnone := h.limit_irrelevant hd hr hr hexp none fun _ => rfl
      rw [hexp.lastLimit_eq, Option.or_none] at hnone
      simpa using hnone
  slow := by
    intro r hr r' hr' k q q' hq hq'
    -- each comes first once, into an empty table
    have hcons : ∀ {r : Report}, r ∈ reports → ∀ x, x ∈ r :: reports ↔ x ∈ reports := by
      intro r hr x
      rw [List.mem_cons, or_iff_right_of_imp]
      rintro rfl
      exact hr
    have hrows := (h.rows hd (drawn_empty draw) (hcons hr) (hcons hr')).2 q
    have hkept : ∀ {r : Report} {q : SlowQueryLog}, first SlowQueryLog.key k (Report.slow draw r) = some q →
        q ∈ insertAll SlowQueryLog.key [] ((r :: reports).flatMap (Report.slow draw)) := by
      intro r q hq
      rw [List.flatMap_cons, insertAll_append]
      apply subset_insertAll
      rw [← key_of_first hq] at hq
      exact mem_insertAll.mpr (.inr ⟨fun _ => (nomatch ·), hq⟩)
    have hnodup : ((insertAll SlowQueryLog.key [] ((r' :: reports).flatMap (Report.slow draw))).map
      SlowQueryLog.key).Nodup := by
      apply nodup_insertAll
      exact List.nodup_nil
    refine List.inj_on_of_nodup_map hnodup (hrows.mp (hkept hq)) (hkept hq') ?_
    rw [key_of_first hq, key_of_first hq']

/-- The rows do not depend on order and repetition exactly when no payload interferes with what another relies on. -/
theorem orderFree_iff (hd : Deliverable draw reports) : OrderFree toISOString draw reports ↔ Independent draw reports :=
  ⟨independent_of_orderFree hd, orderFree_of_independent hd⟩

end Runs

/-- A report of one database of one host. -/
def connections (time : Timestamp) (active : Nat) (max : Option Nat) : Report where
  agent := ⟨1, 1, "web-1", "ak_1", none, ["s3cret"]⟩
  payload :=
    { agent := ⟨"1.0.0", none⟩
      system := none
      snmpDevices := none
      databases := some [{
        collectedAt := time
        «instance» := ⟨"main", .postgresql, none, none, none, none, max, none⟩
        reachable := true
        metrics := ⟨none, some active, none, none, none, none, none, none, none⟩
        slowQueries := [] }] }

def oneSecond : Timestamp := ⟨"1970-01-01T00:00:01.000Z", 1000⟩
def twoSeconds : Timestamp := ⟨"1970-01-01T00:00:02.000Z", 2000⟩

theorem deliverable_connections (active active' : Nat) (max max' : Option Nat) :
    Deliverable (fun _ => 7) [connections oneSecond active max, connections twoSeconds active' max'] where
  nodup := by simp [connections, oneSecond, twoSeconds]
  once := by simp [Report.readings, Report.devices, Report.databases, connections, oneSecond, twoSeconds]
  ids := by simp [Report.readings, Report.devices, Report.databases, connections, instanceKey]
  window := by
    have hwindow : ∀ r ∈ [connections oneSecond active max, connections twoSeconds active' max'],
        r.payload.inWindow ⟨2000, 10000, 0⟩ = true := by
      rw [List.forall_mem_cons, List.forall_mem_singleton]
      exact ⟨rfl, rfl⟩
    exact fun r hr => ⟨_, hwindow r hr⟩

/-- The limit is reported by one payload and missing in the other. -/
theorem limit_between :
    ¬ OrderFree toString (fun _ => 7) [connections oneSecond 10 none, connections twoSeconds 20 (some 100)] := by
  intro h
  have hlimits := (independent_of_orderFree (deliverable_connections 10 20 none (some 100)) h).limits
    (connections oneSecond 10 none)
    List.mem_cons_self [] _ [] rfl rfl rfl
  have hunset := hlimits.1 (connections twoSeconds 20 (some 100)) (by simp) (by simp [connections, oneSecond, twoSeconds])
  exact absurd hunset (by decide)

/-- Payloads that all report the limit. -/
theorem limit_everywhere :
    OrderFree toString (fun _ => 7) [connections oneSecond 10 (some 50), connections twoSeconds 20 (some 100)] := by
  refine (orderFree_iff (deliverable_connections 10 20 (some 50) (some 100))).mpr ⟨?_, ?_⟩
  · intro r hr before db after hsplit hderives
    have hdb : db ∈ r.databases := by simp [hsplit]
    rcases List.mem_cons.mp hr with rfl | hr
    · rw [List.mem_singleton.mp hdb] at hderives
      cases hderives
    · obtain rfl := List.mem_singleton.mp hr
      rw [List.mem_singleton.mp hdb] at hderives
      cases hderives
  · intro r hr r' hr' k q q' hq
    have hslow : Report.slow (fun _ => 7) r = [] := by
      rcases List.mem_cons.mp hr with rfl | hr
      · rfl
      · rw [List.mem_singleton.mp hr]
        rfl
    rw [hslow] at hq
    cases hq

end IkelyaneMonitor.Telemetry
