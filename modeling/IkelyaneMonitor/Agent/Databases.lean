import Mathlib.Data.Rat.Floor
import IkelyaneMonitor.Agent.Profiler
import IkelyaneMonitor.Replay.Latest

/-!
# Polling a database (`agent/internal/dbmetrics`)

* `Answers` : what an instance says when a poll succeeds, by its engine;
* `collectPostgres`, `collectMySQL`, `collectMongo`, `collectRedis`; `collect` : one poll, whatever becomes of it;
* `Poll`, `after` : polls in turn; `lastSuccess`, `lastStatistics`, `lastSlowlog` : the last that succeeded, and the last that
  read the statistics or the slow log;
* `prevAt_after`, `prevQueries_after`, `slowlogLastID_after` : what is kept is of these;
* `DatabaseMetric.json` : what is reported, as the server reads it.

The answers are already decoded: the fields of `INFO`, the numbers of `SHOW GLOBAL STATUS` and of `serverStatus`, the rows of
the other queries; `none` stands for a query that fails where this is no failure of the poll. No sum of counters leaves 64
bits.
-/

namespace IkelyaneMonitor.Agent.Db
open Wire Replay

/-! ## What is reported -/

structure InstanceInfo where
  name : List UInt8
  engine : Engine
  version : List UInt8 := []
  endpoint : List UInt8
  isReplica : Option Bool := none
  storageQuotaBytes : Option Nat := none
  maxConnections : Option Int := none
  slowQueryThresholdMs : Option Int

structure Metrics where
  qps : Option ℚ := none
  activeConnections : Option Int := none
  connectionUsagePercent : Option ℚ := none
  cacheHitRatio : Option ℚ := none
  slowQueriesPerMin : Option ℚ := none
  deadlocksPerMin : Option ℚ := none
  deadlocksTotal : Option Nat := none
  replicationLagSeconds : Option ℚ := none
  storageUsedBytes : Option Nat := none

structure DatabaseMetric where
  collectedAt : List UInt8
  info : InstanceInfo
  reachable : Bool
  metrics : Metrics := {}
  slowQueries : List SlowQuery := []

/-! ## What an instance says -/

structure PostgresAnswers where
  version : List UInt8
  maxConnections : Option Int
  isReplica : Option Bool
  activeConnections : Option Int
  blksHit : Nat
  blksRead : Nat
  xactTotal : Nat
  deadlocks : Nat
  storageBytes : Option Nat
  lagSeconds : Option ℚ
  statements : Option (List StatRow)

structure MysqlAnswers where
  version : List UInt8
  maxConnections : Option Int
  /-- The lag of a replica, if it is one. -/
  replica : Option (Option ℚ)
  status : String → Option ℚ
  /-- These two are made unsigned, and count from 0. -/
  counters : ∀ name ∈ ["Innodb_deadlocks", "Questions"], ∀ v ∈ status name, 0 ≤ v
  storageBytes : Option Nat
  digests : Option (List StatRow)

structure RedisAnswers where
  version : List UInt8
  valkeyVersion : List UInt8
  role : String
  maxclients : Option Int
  connectedClients : Option Nat
  usedMemory : Option Nat
  maxmemory : Option Nat
  keyspaceHits : Option Nat
  keyspaceMisses : Option Nat
  totalCommandsProcessed : Option Nat
  slowlog : Option (List SlowlogEntry)

/-- What `replSetGetStatus` says of a member. -/
structure Member where
  stateStr : String
  /-- Milliseconds; the zero time when it is missing. -/
  optimeDate : Int
  self : Bool
  deriving DecidableEq

structure MongoAnswers where
  version : List UInt8
  /-- `number(status, path...)`. -/
  status : List String → Option ℚ
  secondary : Bool
  members : Option (List Member)
  databases : Option Listing
  profiles : List UInt8 → Option Profile

def Answers : Engine → Type
  | .postgresql => PostgresAnswers
  | .mysql | .mariadb => MysqlAnswers
  | .redis => RedisAnswers
  | .mongodb => MongoAnswers

/-- What was learnt of an instance before a poll broke off. -/
structure Known where
  version : List UInt8 := []
  isReplica : Option Bool := none
  maxConnections : Option Int := none

/-- Not reached, or without an answer that a poll rests on, or all answers. -/
inductive Outcome (e : Engine) where
  | unreachable
  | failed (known : Known)
  | answered (a : Answers e)

/-- What the drivers, the servers and the library decide. -/
structure Platform where
  server : Server
  commands : AnyOrder (List UInt8 × List ℚ)
  grouping : Grouping

/-! ## A poll -/

/-- What a poll that succeeds makes of the answers. -/
structure Sample (e : Engine) where
  info : InstanceInfo
  metrics : Metrics
  slowQueries : List SlowQuery
  monitor : Monitor e

/-- The conversion of a floating-point number, towards zero. -/
def truncInt (q : ℚ) : Int := q.num.tdiv q.den

section Collect
variable (fl : Rounding) (p : Platform) {e : Engine} (m : Monitor e)

/-- `float64(a) / float64(b)`. -/
def ratio (a b : ℚ) : ℚ := fl.round (fl.round a / fl.round b)

def percent (a b : ℚ) : ℚ := fl.round (ratio fl a b * 100)

/-- `info`, before the instance is asked. -/
def Monitor.info : InstanceInfo where
  name := m.target.name
  engine := e
  endpoint := m.endpoint
  slowQueryThresholdMs := some m.target.slowQueryThresholdMs

def Monitor.collectPostgres (a : PostgresAnswers) (now : Instant) : Sample e :=
  let slow := { m with prevTxns := a.xactTotal, prevDeadlocks := a.deadlocks }.postgresSlowQueries fl p.server
    a.statements now
  { info := { m.info with version := a.version, maxConnections := a.maxConnections, isReplica := a.isReplica }
    metrics := {
      activeConnections := a.activeConnections
      connectionUsagePercent := a.activeConnections.bind fun active =>
        (a.maxConnections.filter fun maxConn => 0 < maxConn).map fun maxConn : Int => percent fl active maxConn
      cacheHitRatio := if 0 < a.blksHit + a.blksRead then some (ratio fl a.blksHit ((a.blksHit + a.blksRead : Nat) : ℚ))
        else none
      deadlocksTotal := some a.deadlocks
      qps := m.ratePerSecond fl a.xactTotal m.prevTxns now
      deadlocksPerMin := m.rate fl a.deadlocks m.prevDeadlocks now
      storageUsedBytes := a.storageBytes
      replicationLagSeconds := if a.isReplica = some true then a.lagSeconds else none
      slowQueriesPerMin := slow.1.2 }
    slowQueries := slow.1.1
    monitor := slow.2 }

/-- Deadlocks are counted by MariaDB only. -/
def Monitor.collectMySQL (a : MysqlAnswers) (now : Instant) : Sample e :=
  let deadlocks := (a.status "Innodb_deadlocks").map fun v => (truncInt v).toNat
  let questions := (truncInt ((a.status "Questions").getD 0)).toNat
  let requests := (a.status "Innodb_buffer_pool_read_requests").getD 0
  let reads := (a.status "Innodb_buffer_pool_reads").getD 0
  let slow := { m with prevTxns := questions, prevDeadlocks := deadlocks.getD m.prevDeadlocks }.mysqlSlowQueries fl p.server
    a.digests now
  { info := { m.info with version := a.version, maxConnections := a.maxConnections, isReplica := some a.replica.isSome }
    metrics := {
      replicationLagSeconds := a.replica.getD none
      activeConnections := (a.status "Threads_connected").map truncInt
      connectionUsagePercent := (a.status "Threads_connected").bind fun connected =>
        (a.maxConnections.filter fun maxConn => 0 < maxConn).map fun maxConn : Int => min (percent fl connected maxConn) 100
      cacheHitRatio := if 0 < requests ∧ reads ≤ requests then some (fl.round (fl.round (requests - reads) / requests))
        else none
      deadlocksTotal := deadlocks
      deadlocksPerMin := deadlocks.bind fun deadlocks => m.rate fl deadlocks m.prevDeadlocks now
      qps := m.ratePerSecond fl questions m.prevTxns now
      storageUsedBytes := a.storageBytes
      slowQueriesPerMin := slow.1.2 }
    slowQueries := slow.1.1
    monitor := slow.2 }

def Monitor.collectRedis (a : RedisAnswers) (now : Instant) : Sample e :=
  let maxclients := a.maxclients.filter fun n => 0 < n ∧ n ≤ 10000000
  let slow := { m with prevTxns := a.totalCommandsProcessed.getD m.prevTxns }.redisSlowlog fl p.commands a.slowlog now
  { info := { m.info with
      version := if a.valkeyVersion ≠ [] then utf8 "valkey ".toList ++ a.valkeyVersion else a.version
      isReplica := some (a.role = "slave")
      maxConnections := maxclients
      storageQuotaBytes := a.maxmemory.filter fun quota => 0 < quota }
    metrics := {
      activeConnections := a.connectedClients.map fun clients : Nat => (clients : Int)
      connectionUsagePercent := a.connectedClients.bind fun clients =>
        maxclients.map fun maxclients : Int => min (percent fl clients maxclients) 100
      storageUsedBytes := a.usedMemory
      cacheHitRatio := a.keyspaceHits.bind fun hits =>
        (a.keyspaceMisses.filter fun misses => 0 < hits + misses).map fun misses => ratio fl hits ((hits + misses : Nat) : ℚ)
      qps := a.totalCommandsProcessed.bind fun commands => m.ratePerSecond fl commands m.prevTxns now
      slowQueriesPerMin := slow.1.2 }
    slowQueries := slow.1.1
    monitor := slow.2 }

/-- `Time.Sub`, of milliseconds: what does not fit in 64 bits is the last duration that does. -/
def timeSub (t u : Int) : Int := max (-2 ^ 63) (min ((t - u) * 10 ^ 6) (2 ^ 63 - 1))

/-- How far this member is behind the primary; unknown without either. -/
def mongoReplicationLag (members : Option (List Member)) : Option ℚ :=
  members.bind fun members =>
    let primary := members.foldl (fun t member => if member.stateStr = "PRIMARY" then member.optimeDate else t) zeroTs
    let self := members.foldl (fun t member => if member.self then member.optimeDate else t) zeroTs
    if primary = zeroTs ∨ self = zeroTs then none else some (max (floatSeconds fl (timeSub primary self)) 0)

def opcounters : List String := ["insert", "query", "update", "delete", "getmore", "command"]

def Monitor.collectMongo (a : MongoAnswers) (now : Instant) : Sample e :=
  let current := a.status ["connections", "current"]
  let total := current.bind fun current => ((a.status ["connections", "available"]).map fun available =>
    fl.round (current + available)).filter fun total => 0 < total
  let ops := (opcounters.filterMap fun op => a.status ["opcounters", op]).foldl (fun ops v => fl.round (ops + v)) 0
  let requested := a.status ["wiredTiger", "cache", "pages requested from the cache"]
  let readIn := a.status ["wiredTiger", "cache", "pages read into cache"]
  let slow := { m with
    prevTxns := if 0 ≤ ops then (truncInt ops).toNat else m.prevTxns }.mongoSlowOps fl p.grouping a.profiles
    (a.databases.elim [] Listing.names) now
  { info := { m.info with
      version := a.version
      maxConnections := total.map fun total => truncInt (min total 10000000)
      isReplica := some a.secondary }
    metrics := {
      activeConnections := current.map truncInt
      connectionUsagePercent := current.bind fun current => total.map fun total =>
        min (fl.round (fl.round (current / total) * 100)) 100
      qps := if 0 ≤ ops then m.ratePerSecond fl (truncInt ops).toNat m.prevTxns now else none
      cacheHitRatio := (requested.filter fun requested => 0 < requested).bind fun requested => readIn.map fun readIn =>
        min (max (fl.round (1 - fl.round (readIn / requested))) 0) 1
      replicationLagSeconds := if a.secondary then mongoReplicationLag fl a.members else none
      storageUsedBytes := (a.databases.filter fun databases => 0 ≤ databases.totalSize).map fun databases =>
        databases.totalSize.toNat
      slowQueriesPerMin := slow.1.2 }
    slowQueries := slow.1.1
    monitor := slow.2 }

def Monitor.collectEngine : {e : Engine} → Monitor e → Answers e → Instant → Sample e
  | .postgresql, m, a, now => m.collectPostgres fl p a now
  | .mysql, m, a, now => m.collectMySQL fl p a now
  | .mariadb, m, a, now => m.collectMySQL fl p a now
  | .mongodb, m, a, now => m.collectMongo fl p a now
  | .redis, m, a, now => m.collectRedis fl p a now

/-- The function does not fail: an instance that does not answer is reported as such. -/
def Monitor.collect (outcome : Outcome e) (now : Instant) : DatabaseMetric × Monitor e :=
  match outcome with
  | .unreachable => ({ collectedAt := now.format, info := m.info, reachable := false }, m)
  | .failed known =>
    ({ collectedAt := now.format
       info := { m.info with
        version := truncateUTF8 known.version maxVersionBytes
        isReplica := known.isReplica
        maxConnections := known.maxConnections }
       reachable := false }, m)
  | .answered a =>
    let sample := m.collectEngine fl p a now
    ({ collectedAt := now.format
       info := { sample.info with version := truncateUTF8 sample.info.version maxVersionBytes }
       reachable := true
       metrics := sample.metrics
       slowQueries := sample.slowQueries }, { sample.monitor with prevAt := some now.nanos })

end Collect

/-! ## What a poll reads -/

section Reads
variable {e : Engine}

def Outcome.answers? : Outcome e → Option (Answers e)
  | .answered a => some a
  | _ => none

/-- The statistics of statements. -/
def statisticsOf : {e : Engine} → Answers e → Option (List StatRow)
  | .postgresql, a => PostgresAnswers.statements a
  | .mysql, a => MysqlAnswers.digests a
  | .mariadb, a => MysqlAnswers.digests a
  | .mongodb, _ | .redis, _ => none

def slowlogOf : {e : Engine} → Answers e → Option (List SlowlogEntry)
  | .redis, a => RedisAnswers.slowlog a
  | .postgresql, _ | .mysql, _ | .mariadb, _ | .mongodb, _ => none

/-- The databases whose profiles are read, and these. -/
def profilesOf : {e : Engine} → Answers e → List (List UInt8) × (List UInt8 → Option Profile)
  | .mongodb, a => (polledDatabases ((MongoAnswers.databases a).elim [] Listing.names), MongoAnswers.profiles a)
  | .postgresql, _ | .mysql, _ | .mariadb, _ | .redis, _ => ([], fun _ => none)

def Engine.dialect : Engine → Dialect
  | .postgresql => pgStatStatements
  | .mysql | .mariadb | .mongodb | .redis => statementDigests

variable (fl : Rounding) (p : Platform)

/-- The rows of the query of the engine. -/
def selectOf (e : Engine) (target : Target) (rows : List StatRow) : List QueryStats :=
  e.dialect.select rows fl p.server (fl.round target.slowQueryThresholdMs)

end Reads

/-! ## The part of a poll that is about slow executions -/

section SlowPart
variable (fl : Rounding) (p : Platform)

def Monitor.slowPart : {e : Engine} → Monitor e → Answers e → Instant → (List SlowQuery × Option ℚ) × Monitor e
  | .postgresql, m, a, now => m.postgresSlowQueries fl p.server (PostgresAnswers.statements a) now
  | .mysql, m, a, now => m.mysqlSlowQueries fl p.server (MysqlAnswers.digests a) now
  | .mariadb, m, a, now => m.mysqlSlowQueries fl p.server (MysqlAnswers.digests a) now
  | .mongodb, m, a, now => m.mongoSlowOps fl p.grouping (MongoAnswers.profiles a)
    ((MongoAnswers.databases a).elim [] Listing.names) now
  | .redis, m, a, now => m.redisSlowlog fl p.commands (RedisAnswers.slowlog a) now

variable {fl p} {e : Engine} {m : Monitor e} {a : Answers e} {now : Instant} {txns deadlocks : Nat}

/-- The counters of the other rates have no part in it. -/
def Monitor.withCounters (m : Monitor e) (txns deadlocks : Nat) : Monitor e :=
  { m with prevTxns := txns, prevDeadlocks := deadlocks }

theorem statementSlowQueries_fst (d : Dialect) (rows : Option (List StatRow)) :
    ((m.withCounters txns deadlocks).statementSlowQueries fl p.server d rows now).1 =
      (m.statementSlowQueries fl p.server d rows now).1 := by
  cases rows <;> rfl

theorem statementSlowQueries_snd (d : Dialect) (rows : Option (List StatRow)) :
    (m.statementSlowQueries fl p.server d rows now).2 =
      { m with prevQueries := rows.elim m.prevQueries fun rows =>
        memoryOf (d.select rows fl p.server (m.thresholdMs fl)) } := by
  cases rows <;> rfl

theorem redisSlowlog_fst (entries : Option (List SlowlogEntry)) :
    ((m.withCounters txns deadlocks).redisSlowlog fl p.commands entries now).1 =
      (m.redisSlowlog fl p.commands entries now).1 := by
  cases entries with
  | none => rfl
  | some entries =>
      have hresumes : (m.withCounters txns deadlocks).resumesAt = m.resumesAt := rfl
      unfold Monitor.redisSlowlog Monitor.slowlogDeltas
      rw [hresumes]
      dsimp only
      split <;> rfl

theorem redisSlowlog_snd (entries : Option (List SlowlogEntry)) :
    (m.redisSlowlog fl p.commands entries now).2 =
      { m with slowlogLastID := (entries.map fun entries => maxID (entries.map SlowlogEntry.id)).or m.slowlogLastID } := by
  cases entries with
  | none => rfl
  | some entries =>
      have hids : (entries.map (SlowlogEntry.event fl)).map SlowlogEvent.id = entries.map SlowlogEntry.id := by
        rw [List.map_map]
        rfl
      unfold Monitor.redisSlowlog Monitor.slowlogDeltas
      dsimp only
      rw [hids]
      split <;> rfl

theorem slowPart_fst : ((m.withCounters txns deadlocks).slowPart fl p a now).1 = (m.slowPart fl p a now).1 := by
  cases e with
  | postgresql => exact statementSlowQueries_fst _ _
  | mysql => exact statementSlowQueries_fst _ _
  | mariadb => exact statementSlowQueries_fst _ _
  | mongodb => rfl
  | redis => exact redisSlowlog_fst _

/-- What it keeps is of the statistics it read, where it read some. -/
theorem slowPart_snd : (m.slowPart fl p a now).2 =
    { m with
      prevQueries := (statisticsOf a).elim m.prevQueries fun rows => memoryOf (selectOf fl p e m.target rows)
      slowlogLastID := ((slowlogOf a).map fun entries => maxID (entries.map SlowlogEntry.id)).or m.slowlogLastID
      profileSeen := (readProfiles m.target.slowQueryThresholdMs (profilesOf a).2 (profilesOf a).1 m.profileSeen).1 } := by
  cases e with
  | postgresql => exact statementSlowQueries_snd _ _
  | mysql => exact statementSlowQueries_snd _ _
  | mariadb => exact statementSlowQueries_snd _ _
  | mongodb => rfl
  | redis => exact redisSlowlog_snd _

/-- Of statements, or of the slow log, if either was read. -/
theorem slowPart_read (hengine : e ≠ .mongodb) : (m.slowPart fl p a now).1 = (statisticsOf a).elim
    ((slowlogOf a).elim ([], none) fun entries => (m.slowlogDeltas fl p.commands (entries.map (SlowlogEntry.event fl)) now).1)
    fun rows => (m.slowQueryDeltas fl (selectOf fl p e m.target rows) now).1 := by
  have hstatements : ∀ (e : Engine) (m : Monitor e) (d : Dialect) (answer : Option (List StatRow)),
      (m.statementSlowQueries fl p.server d answer now).1 =
        answer.elim ([], none) fun rows => (m.slowQueryDeltas fl (d.select rows fl p.server (m.thresholdMs fl)) now).1 := by
    intro e m d answer
    cases answer <;> rfl
  cases e with
  | postgresql => exact hstatements _ m _ _
  | mysql => exact hstatements _ m _ _
  | mariadb => exact hstatements _ m _ _
  | mongodb => exact absurd rfl hengine
  | redis =>
      show (m.redisSlowlog fl p.commands (RedisAnswers.slowlog a) now).1 = (RedisAnswers.slowlog a).elim _ _
      cases RedisAnswers.slowlog a <;> rfl

theorem slowPart_statistics {rows : List StatRow} (h : statisticsOf a = some rows) :
    (m.slowPart fl p a now).1 = (m.slowQueryDeltas fl (selectOf fl p e m.target rows) now).1 := by
  have hengine : e ≠ .mongodb := by
    rintro rfl
    cases h
  rw [slowPart_read hengine, h, Option.elim_some]

theorem slowPart_slowlog {entries : List SlowlogEntry} (h : slowlogOf a = some entries) :
    (m.slowPart fl p a now).1 = (m.slowlogDeltas fl p.commands (entries.map (SlowlogEntry.event fl)) now).1 := by
  obtain rfl : e = .redis := by
    cases e with
    | redis => rfl
    | postgresql | mysql | mariadb | mongodb => cases h
  rw [slowPart_read (by decide), h]
  rfl

/-- Nothing was read. -/
theorem slowPart_unread (hengine : e ≠ .mongodb) (hstatistics : statisticsOf a = none) (hslowlog : slowlogOf a = none) :
    (m.slowPart fl p a now).1 = ([], none) := by
  rw [slowPart_read hengine, hstatistics, hslowlog]
  rfl

theorem collectEngine_slow (fl : Rounding) (p : Platform) (m : Monitor e) (a : Answers e) (now : Instant) :
    (m.collectEngine fl p a now).slowQueries = (m.slowPart fl p a now).1.1 ∧
    (m.collectEngine fl p a now).metrics.slowQueriesPerMin = (m.slowPart fl p a now).1.2 ∧
    ∃ txns deadlocks, (m.collectEngine fl p a now).monitor = (m.slowPart fl p a now).2.withCounters txns deadlocks := by
  have hof : ∀ (s : Sample e) txns deadlocks, (s.slowQueries, s.metrics.slowQueriesPerMin, s.monitor) =
      (((m.withCounters txns deadlocks).slowPart fl p a now).1.1, ((m.withCounters txns deadlocks).slowPart fl p a now).1.2,
        ((m.withCounters txns deadlocks).slowPart fl p a now).2) →
      s.slowQueries = (m.slowPart fl p a now).1.1 ∧ s.metrics.slowQueriesPerMin = (m.slowPart fl p a now).1.2 ∧
        ∃ txns deadlocks, s.monitor = (m.slowPart fl p a now).2.withCounters txns deadlocks := by
    intro s txns deadlocks h
    rw [slowPart_fst, slowPart_snd, Prod.mk.injEq, Prod.mk.injEq] at h
    refine ⟨h.1, h.2.1, txns, deadlocks, ?_⟩
    rw [h.2.2, slowPart_snd]
    rfl
  cases e with
  | postgresql => exact hof _ _ _ rfl
  | mysql => exact hof _ _ _ rfl
  | mariadb => exact hof _ _ _ rfl
  | mongodb => exact hof _ _ m.prevDeadlocks rfl
  | redis => exact hof _ _ m.prevDeadlocks rfl

end SlowPart

/-! ## Polls in turn -/

/-- A call of `Collect`. -/
structure Poll (e : Engine) where
  now : Instant
  outcome : Outcome e

def Monitor.start {e : Engine} (target : Target) (endpoint : List UInt8) : Monitor e where
  target := target
  endpoint := endpoint

/-- `New`, with the address that the DSN holds. -/
def Monitor.opened {e : Engine} (target : Target) (address : List UInt8) : Monitor e :=
  .start target (truncateUTF8 address maxEndpointBytes)

section Runs
variable (fl : Rounding) (p : Platform) {e : Engine}

def Monitor.after (m : Monitor e) (polls : List (Poll e)) : Monitor e :=
  polls.foldl (fun m poll => (m.collect fl p poll.outcome poll.now).2) m

def Poll.answers? (poll : Poll e) : Option (Answers e) := poll.outcome.answers?

/-- The time of a poll that succeeded. -/
def Poll.success (poll : Poll e) : Option Int := poll.answers?.map fun _ => poll.now.nanos

/-- The statistics of statements, where they were read, and when. -/
def Poll.statistics (poll : Poll e) : Option (Int × List StatRow) :=
  poll.answers?.bind fun a => (statisticsOf a).map fun rows => (poll.now.nanos, rows)

/-- The slow log, where it was read, and when. -/
def Poll.slowlog (poll : Poll e) : Option (Int × List SlowlogEntry) :=
  poll.answers?.bind fun a => (slowlogOf a).map fun entries => (poll.now.nanos, entries)

def lastSuccess (polls : List (Poll e)) : Option Int := (polls.filterMap Poll.success).getLast?

def lastStatistics (polls : List (Poll e)) : Option (Int × List StatRow) := (polls.filterMap Poll.statistics).getLast?

def lastSlowlog (polls : List (Poll e)) : Option (Int × List SlowlogEntry) := (polls.filterMap Poll.slowlog).getLast?

variable {fl p} {m : Monitor e} {polls : List (Poll e)} {poll : Poll e}

theorem after_append (polls polls' : List (Poll e)) :
    m.after fl p (polls ++ polls') = (m.after fl p polls).after fl p polls' :=
  List.foldl_append

/-- A poll that succeeds leaves what it read, and its time; another leaves everything. -/
theorem collect_snd (fl : Rounding) (p : Platform) (m : Monitor e) (poll : Poll e) : ∃ txns deadlocks,
    (m.collect fl p poll.outcome poll.now).2 = poll.answers?.elim m fun a =>
    { m.withCounters txns deadlocks with
      prevAt := some poll.now.nanos
      prevQueries := (statisticsOf a).elim m.prevQueries fun rows => memoryOf (selectOf fl p e m.target rows)
      slowlogLastID := ((slowlogOf a).map fun entries => maxID (entries.map SlowlogEntry.id)).or m.slowlogLastID
      profileSeen := (readProfiles m.target.slowQueryThresholdMs (profilesOf a).2 (profilesOf a).1 m.profileSeen).1 } := by
  obtain ⟨now, outcome⟩ := poll
  cases outcome with
  | unreachable => exact ⟨0, 0, rfl⟩
  | failed known => exact ⟨0, 0, rfl⟩
  | answered a =>
      obtain ⟨-, -, txns, deadlocks, hmonitor⟩ := collectEngine_slow fl p m a now
      refine ⟨txns, deadlocks, ?_⟩
      show { (m.collectEngine fl p a now).monitor with prevAt := some now.nanos } = _
      rw [hmonitor, slowPart_snd]
      rfl

theorem report_collect {a : Answers e} (h : poll.answers? = some a) :
    (m.collect fl p poll.outcome poll.now).1.slowQueries = (m.slowPart fl p a poll.now).1.1 ∧
      (m.collect fl p poll.outcome poll.now).1.metrics.slowQueriesPerMin = (m.slowPart fl p a poll.now).1.2 := by
  obtain ⟨now, outcome⟩ := poll
  cases outcome with
  | unreachable => cases h
  | failed known => cases h
  | answered a' =>
      obtain rfl := Option.some.inj h
      obtain ⟨hslow, hrate, -⟩ := collectEngine_slow fl p m a' now
      exact ⟨hslow, hrate⟩

/-- What is reported when statistics of statements were read. -/
theorem report_statistics {read : Int × List StatRow} (h : poll.statistics = some read) :
    (m.collect fl p poll.outcome poll.now).1.slowQueries =
        (m.slowQueryDeltas fl (selectOf fl p e m.target read.2) poll.now).1.1 ∧
      (m.collect fl p poll.outcome poll.now).1.metrics.slowQueriesPerMin =
        (m.slowQueryDeltas fl (selectOf fl p e m.target read.2) poll.now).1.2 := by
  obtain ⟨a, ha, hread⟩ := Option.bind_eq_some_iff.mp h
  obtain ⟨rows, hrows, rfl⟩ := Option.map_eq_some_iff.mp hread
  rw [← slowPart_statistics hrows]
  exact report_collect ha

/-- What is reported when the slow log was read. -/
theorem report_slowlog {read : Int × List SlowlogEntry} (h : poll.slowlog = some read) :
    (m.collect fl p poll.outcome poll.now).1.slowQueries =
        (m.slowlogDeltas fl p.commands (read.2.map (SlowlogEntry.event fl)) poll.now).1.1 ∧
      (m.collect fl p poll.outcome poll.now).1.metrics.slowQueriesPerMin =
        (m.slowlogDeltas fl p.commands (read.2.map (SlowlogEntry.event fl)) poll.now).1.2 := by
  obtain ⟨a, ha, hread⟩ := Option.bind_eq_some_iff.mp h
  obtain ⟨entries, hentries, rfl⟩ := Option.map_eq_some_iff.mp hread
  rw [← slowPart_slowlog hentries]
  exact report_collect ha

theorem report_unanswered (h : poll.answers? = none) :
    (m.collect fl p poll.outcome poll.now).1.metrics.slowQueriesPerMin = none := by
  obtain ⟨now, outcome⟩ := poll
  cases outcome with
  | unreachable => rfl
  | failed known => rfl
  | answered a => cases h

/-- Without either there is no rate. -/
theorem report_unread (hengine : e ≠ .mongodb) (hstatistics : poll.statistics = none) (hslowlog : poll.slowlog = none) :
    (m.collect fl p poll.outcome poll.now).1.metrics.slowQueriesPerMin = none := by
  cases ha : poll.answers? with
  | none => exact report_unanswered ha
  | some a =>
      rw [Poll.statistics, ha, Option.bind_some, Option.map_eq_none_iff] at hstatistics
      rw [Poll.slowlog, ha, Option.bind_some, Option.map_eq_none_iff] at hslowlog
      rw [(report_collect ha).2, slowPart_unread hengine hstatistics hslowlog]

theorem target_collect : (m.collect fl p poll.outcome poll.now).2.target = m.target := by
  obtain ⟨txns, deadlocks, h⟩ := collect_snd fl p m poll
  rw [h]
  cases poll.answers? <;> rfl

theorem target_after : (m.after fl p polls).target = m.target := foldl_kept (fun _ _ => target_collect) m polls

theorem prevAt_after : (m.after fl p polls).prevAt = (lastSuccess polls).or m.prevAt := by
  refine foldl_filterMap (fun m poll => ?_) m polls
  obtain ⟨txns, deadlocks, h⟩ := collect_snd fl p m poll
  rw [h, Poll.success]
  cases poll.answers? <;> rfl

theorem slowlogLastID_collect : (m.collect fl p poll.outcome poll.now).2.slowlogLastID =
    (poll.slowlog.map fun read => maxID (read.2.map SlowlogEntry.id)).or m.slowlogLastID := by
  obtain ⟨txns, deadlocks, h⟩ := collect_snd fl p m poll
  rw [h]
  unfold Poll.slowlog
  cases poll.answers? with
  | none => rfl
  | some a =>
      rw [Option.elim_some, Option.bind_some, Option.map_map]
      rfl

theorem slowlogLastID_after : (m.after fl p polls).slowlogLastID =
    ((lastSlowlog polls).map fun read => maxID (read.2.map SlowlogEntry.id)).or m.slowlogLastID := by
  rw [lastSlowlog, ← List.getLast?_map, List.map_filterMap]
  exact foldl_filterMap (fun _ _ => slowlogLastID_collect) m polls

theorem prevQueries_collect : (m.collect fl p poll.outcome poll.now).2.prevQueries =
    poll.statistics.elim m.prevQueries fun read => memoryOf (selectOf fl p e m.target read.2) := by
  obtain ⟨txns, deadlocks, h⟩ := collect_snd fl p m poll
  rw [h]
  unfold Poll.statistics
  cases poll.answers? with
  | none => rfl
  | some a =>
      rw [Option.elim_some, Option.bind_some]
      cases statisticsOf a <;> rfl

/-- The counters that statements are compared with are of the last statistics. -/
theorem prevQueries_after (fl : Rounding) (p : Platform) (polls : List (Poll e)) (target : Target) (endpoint : List UInt8) :
    ((Monitor.start target endpoint).after fl p polls).prevQueries = (lastStatistics polls).elim (fun _ => none) fun read =>
      memoryOf (selectOf fl p e target read.2) := by
  induction polls using List.reverseRecOn with
  | nil => rfl
  | append_singleton polls poll ih =>
      rw [after_append, lastStatistics, getLast?_filterMap_append, ← lastStatistics]
      refine prevQueries_collect.trans ?_
      rw [target_after, ih]
      cases poll.statistics <;> rfl

end Runs

/-! ## As JSON -/

def Engine.name : Engine → String
  | .postgresql => "postgresql"
  | .mysql => "mysql"
  | .mariadb => "mariadb"
  | .mongodb => "mongodb"
  | .redis => "redis"

def intField (n : Option Int) : Option (Json (List UInt8) ℚ) := n.map fun n => .num (n : ℚ)

def SlowQuery.fields (q : SlowQuery) : List (String × Option (Json (List UInt8) ℚ)) :=
  [("capturedAt", some (.str q.capturedAt)),
    ("fingerprint", some (.str q.fingerprint)),
    ("queryText", textField q.queryText),
    ("durationMs", some (.num q.durationMs)),
    ("calls", some (.num (q.calls : ℚ))),
    ("rowsExamined", natField q.rowsExamined),
    ("rowsReturned", natField q.rowsReturned),
    ("databaseName", textField q.databaseName)]

def InstanceInfo.fields (info : InstanceInfo) : List (String × Option (Json (List UInt8) ℚ)) :=
  [("name", some (.str info.name)),
    ("engine", some (.str (utf8 info.engine.name.toList))),
    ("version", textField info.version),
    ("endpoint", textField info.endpoint),
    ("isReplica", info.isReplica.map .bool),
    ("storageQuotaBytes", natField info.storageQuotaBytes),
    ("maxConnections", intField info.maxConnections),
    ("slowQueryThresholdMs", intField info.slowQueryThresholdMs)]

def Metrics.fields (metrics : Metrics) : List (String × Option (Json (List UInt8) ℚ)) :=
  [("qps", numField metrics.qps),
    ("activeConnections", intField metrics.activeConnections),
    ("connectionUsagePercent", numField metrics.connectionUsagePercent),
    ("cacheHitRatio", numField metrics.cacheHitRatio),
    ("slowQueriesPerMin", numField metrics.slowQueriesPerMin),
    ("deadlocksPerMin", numField metrics.deadlocksPerMin),
    ("deadlocksTotal", natField metrics.deadlocksTotal),
    ("replicationLagSeconds", numField metrics.replicationLagSeconds),
    ("storageUsedBytes", natField metrics.storageUsedBytes)]

/-- The metrics are there, with nothing in them, when the instance does not answer. -/
def DatabaseMetric.fields (metric : DatabaseMetric) : List (String × Option (Json (List UInt8) ℚ)) :=
  [("collectedAt", some (.str metric.collectedAt)),
    ("instance", some (Json.record metric.info.fields)),
    ("reachable", some (.bool metric.reachable)),
    ("metrics", some (Json.record metric.metrics.fields)),
    ("slowQueries", listField (metric.slowQueries.map fun q => Json.record q.fields))]

/-- The entry as the server reads it. -/
def DatabaseMetric.json (metric : DatabaseMetric) : Json (List Char) ℚ := (Json.record metric.fields).map decode

/-! ## A platform -/

/-- An order that changes nothing. -/
def asTheyCome {α : Type} : AnyOrder α := ⟨id, List.Perm.refl⟩

/-- The least text is the first, and nothing is hashed. -/
def plain : Platform where
  server := ⟨fun texts => texts.head?.getD [], asTheyCome⟩
  commands := asTheyCome
  grouping := ⟨id, asTheyCome⟩

end IkelyaneMonitor.Agent.Db
