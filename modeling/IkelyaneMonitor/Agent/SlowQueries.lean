import IkelyaneMonitor.Agent.Sample
import IkelyaneMonitor.Replay.Upsert

/-!
# Slow statements (`agent/internal/dbmetrics`)

* `truncateUTF8`, `clampCalls` : the bounds of the server;
* `Monitor` : what is kept of an instance between polls; `rate` : the increase of a counter by the time since the previous
  poll, `perMinute` : the same of a count;
* `slowQueryDeltas` : cumulative counters turned into what happened since they were last read;
* `StatRow` : the statistics of an engine; `select` : the query of either engine for the slowest statements;
* `postgresSlowQueries`, `mysqlSlowQueries`.

Numbers of SQL are exact, those of the agent are rounded. A clock that stands at the zero time is left out: `none` is the time
of no poll.
-/

namespace IkelyaneMonitor.Agent.Db
open Wire Replay

/-- Names are looked up as bytes. -/
scoped instance instLawfulBEqBytes : LawfulBEq (List UInt8) := inferInstance

/-! ## The bounds of the server -/

def maxQueryTextBytes : Nat := 4000
def maxVersionBytes : Nat := 64
def maxEndpointBytes : Nat := 255
def maxFingerprintLen : Nat := 128

/-- `utf8.RuneStart`. -/
def runeStart (b : UInt8) : Bool := b &&& 0xC0 != 0x80

/-- The loop that moves `cut` back to the first byte of a character. -/
def runeCut (s : List UInt8) : (cut : Nat) → Nat
  | 0 => 0
  | cut + 1 => if runeStart (s.getD (cut + 1) 0) then cut + 1 else runeCut s cut

def truncateUTF8 (s : List UInt8) (maxBytes : Nat) : List UInt8 :=
  if s.length ≤ maxBytes then s else s.take (runeCut s maxBytes)

def clampCalls (n : Int) : Int := min n 1000000000

/-- An order for what has none of its own: the entries of a map, or rows that sort alike. -/
structure AnyOrder (α : Type) where
  visit : List α → List α
  perm : ∀ l, (visit l).Perm l

inductive Engine where
  | postgresql | mysql | mariadb | mongodb | redis
  deriving DecidableEq, Repr

/-- What is configured of an instance; a threshold that is not positive was replaced when the configuration was loaded. -/
structure Target where
  name : List UInt8
  slowQueryThresholdMs : Int
  positive : 0 < slowQueryThresholdMs
  deriving DecidableEq

/-- The cumulative counters of one statement. -/
structure QueryStats where
  id : List UInt8
  text : List UInt8
  calls : Int
  totalMs : ℚ
  rowsReturned : Int
  /-- -1 when the engine does not say. -/
  rowsExamined : Int
  deriving DecidableEq

structure SlowQuery where
  capturedAt : List UInt8
  fingerprint : List UInt8
  queryText : List UInt8
  durationMs : ℚ
  calls : Int
  rowsExamined : Option Nat := none
  rowsReturned : Option Nat := none
  databaseName : List UInt8 := []
  deriving DecidableEq

/-- The monitor of an instance of an engine. -/
structure Monitor (e : Engine) where
  target : Target
  /-- Of a DSN, without its credentials. -/
  endpoint : List UInt8
  prevAt : Option Int := none
  prevTxns : Nat := 0
  prevDeadlocks : Nat := 0
  prevQueries : List UInt8 → Option QueryStats := fun _ => none
  /-- The cursor of each database, in milliseconds. -/
  profileSeen : List UInt8 → Option Int := fun _ => none
  slowlogLastID : Option Int := none

section Monitor
variable (fl : Rounding) {e : Engine} (m : Monitor e)

def Monitor.ratePerSecond (cur prev : Nat) (now : Instant) : Option ℚ :=
  m.prevAt.bind fun prevAt =>
    if cur < prev ∨ floatSeconds fl (now.nanos - prevAt) ≤ 0 then none
    else some (perSeconds fl (cur - prev) (floatSeconds fl (now.nanos - prevAt)))

def Monitor.rate (cur prev : Nat) (now : Instant) : Option ℚ :=
  (m.ratePerSecond fl cur prev now).map fun perSecond => fl.round (perSecond * 60)

/-- The end of the functions that count slow executions. -/
def Monitor.perMinute (slowCalls : Int) (now : Instant) : Option ℚ :=
  m.prevAt.bind fun prevAt =>
    if floatSeconds fl (now.nanos - prevAt) ≤ 0 then none
    else some (fl.round (fl.round (fl.round slowCalls / floatSeconds fl (now.nanos - prevAt)) * 60))

/-- `float64(m.target.SlowQueryThresholdMs)`. -/
def Monitor.thresholdMs : ℚ := fl.round m.target.slowQueryThresholdMs

/-- The average duration of the executions between two readings. -/
def intervalMs (prev cur : QueryStats) : ℚ :=
  fl.round (fl.round (cur.totalMs - prev.totalMs) / fl.round ((cur.calls - prev.calls : Int) : ℚ))

def intervalQuery (now : Instant) (prev cur : QueryStats) : SlowQuery where
  capturedAt := now.format
  fingerprint := cur.id
  queryText := truncateUTF8 cur.text maxQueryTextBytes
  durationMs := intervalMs fl prev cur
  calls := clampCalls (cur.calls - prev.calls)
  rowsReturned := if 0 ≤ cur.rowsReturned - prev.rowsReturned then some (cur.rowsReturned - prev.rowsReturned).toNat else none
  rowsExamined :=
    if 0 ≤ cur.rowsExamined ∧ 0 ≤ prev.rowsExamined ∧ prev.rowsExamined ≤ cur.rowsExamined then
      some (cur.rowsExamined - prev.rowsExamined).toNat
    else none

/-- The body of the loop over the statements that have a usable id: how often one was executed since the previous reading, and
what is reported of it when that was slow on average. -/
def Monitor.delta (now : Instant) (cur : QueryStats) : Option (Int × SlowQuery) :=
  (m.prevQueries cur.id).bind fun prev =>
    -- no new executions, or the engine's statistics were reset
    if cur.calls ≤ prev.calls then none
    else if intervalMs fl prev cur < m.thresholdMs fl ∨ intervalMs fl prev cur < 0 then none
    else some (cur.calls - prev.calls, intervalQuery fl now prev cur)

def usable (current : List QueryStats) : List QueryStats :=
  current.filter fun cur => cur.id ≠ [] ∧ cur.id.length ≤ maxFingerprintLen

/-- `next`: the last row of each id. -/
def memoryOf (current : List QueryStats) (id : List UInt8) : Option QueryStats :=
  ((usable current).filter fun cur => cur.id = id).getLast?

/-- The number of slow executions. -/
def Monitor.slowCalls (current : List QueryStats) (now : Instant) : Int :=
  (((usable current).filterMap (m.delta fl now)).map Prod.fst).sum

def Monitor.slowQueryDeltas (current : List QueryStats) (now : Instant) : (List SlowQuery × Option ℚ) × Monitor e :=
  ((((usable current).filterMap (m.delta fl now)).map Prod.snd, m.perMinute fl (m.slowCalls fl current now) now),
    { m with prevQueries := memoryOf current })

variable {fl m} {now : Instant} {cur : QueryStats} {r : Int × SlowQuery}

theorem delta_eq_some : m.delta fl now cur = some r ↔ ∃ prev, m.prevQueries cur.id = some prev ∧ prev.calls < cur.calls ∧
    m.thresholdMs fl ≤ intervalMs fl prev cur ∧ 0 ≤ intervalMs fl prev cur ∧
      r = (cur.calls - prev.calls, intervalQuery fl now prev cur) := by
  unfold Monitor.delta
  rw [Option.bind_eq_some_iff]
  refine exists_congr fun prev => and_congr_right fun _ => ?_
  split
  · rename_i hcalls
    exact iff_of_false nofun fun h => absurd h.1 (not_lt.mpr hcalls)
  rename_i hcalls
  split
  · rename_i hfast
    refine iff_of_false nofun fun h => ?_
    rcases hfast with hfast | hfast
    · exact absurd h.2.1 (not_le.mpr hfast)
    · exact absurd h.2.2.1 (not_le.mpr hfast)
  · rename_i hslow
    rw [not_or, not_lt, not_lt] at hslow
    rw [Option.some.injEq]
    exact ⟨fun h => ⟨not_le.mp hcalls, hslow.1, hslow.2, h.symm⟩, fun h => h.2.2.2.symm⟩

end Monitor

/-! ## The statistics of an engine -/

/-- A `queryid` as text, or a digest of 32 or 64 hexadecimal digits. -/
structure StatementId where
  bytes : List UInt8
  ne : bytes ≠ []
  short : bytes.length ≤ 64
  deriving DecidableEq

theorem StatementId.usable (id : StatementId) : id.bytes ≠ [] ∧ id.bytes.length ≤ maxFingerprintLen :=
  ⟨id.ne, id.short.trans (by decide)⟩

/-- A row of `pg_stat_statements` or of `events_statements_summary_by_digest`: a statement as one user ran it in one database,
or all did in one schema. -/
structure StatRow where
  id : Option StatementId
  text : Option (List UInt8)
  calls : Nat
  /-- Milliseconds or picoseconds. -/
  time : ℚ
  rows : Nat
  rowsExamined : Nat
  deriving DecidableEq

/-- What the server decides of such a query: the least of several texts, and how rows follow each other that sort alike. -/
structure Server where
  least : List (List UInt8) → List UInt8
  order : AnyOrder (StatementId × List StatRow)

/-- What the queries of the two engines differ in. -/
structure Dialect where
  /-- The rest of `WHERE`. -/
  shown : StatRow → Bool
  unitsPerMs : ℚ
  rowsExamined : List StatRow → Int

section Select
variable (d : Dialect) (rows : List StatRow)

def totalCalls : Nat := (rows.map StatRow.calls).sum

def Dialect.totalMs : ℚ := (rows.map StatRow.time).sum / d.unitsPerMs

def Dialect.avgMs : ℚ := d.totalMs rows / totalCalls rows

/-- `WHERE … GROUP BY`. -/
def Dialect.groups : List (StatementId × List StatRow) :=
  groupBy Prod.fst Prod.snd (rows.filterMap fun r => if d.shown r then r.id.map fun id => (id, r) else none)

/-- `HAVING`. -/
def Dialect.having (threshold : ℚ) (group : StatementId × List StatRow) : Bool :=
  0 < totalCalls group.2 && threshold ≤ d.avgMs group.2

/-- A row that was read. -/
def Dialect.scan (fl : Rounding) (server : Server) (group : StatementId × List StatRow) : QueryStats where
  id := group.1.bytes
  text := server.least (group.2.filterMap StatRow.text)
  calls := totalCalls group.2
  totalMs := fl.round (d.totalMs group.2)
  rowsReturned := (group.2.map StatRow.rows).sum
  rowsExamined := d.rowsExamined group.2

/-- `ORDER BY … DESC LIMIT 25`. -/
def Dialect.select (fl : Rounding) (server : Server) (threshold : ℚ) : List QueryStats :=
  (((server.order.visit ((d.groups rows).filter (d.having threshold))).mergeSort
    fun a b => d.avgMs b.2 ≤ d.avgMs a.2).take 25).map (d.scan fl server)

end Select

def insufficientPrivilege : List UInt8 := utf8 "<insufficient privilege>".toList

/-- `pg_stat_statements` counts milliseconds, and not the rows that were examined. -/
def pgStatStatements : Dialect where
  shown r := r.text.any fun text => text ≠ insufficientPrivilege
  unitsPerMs := 1
  rowsExamined _ := -1

/-- The digests of `performance_schema` count picoseconds. -/
def statementDigests : Dialect where
  shown _ := true
  unitsPerMs := 10 ^ 9
  rowsExamined rows := (rows.map StatRow.rowsExamined).sum

section SlowQueries
variable (fl : Rounding) (server : Server) {e : Engine} (m : Monitor e)

/-- No rows when the query is refused or its answer breaks off. -/
def Monitor.statementSlowQueries (d : Dialect) (rows : Option (List StatRow)) (now : Instant) :
    (List SlowQuery × Option ℚ) × Monitor e :=
  match rows with
  | none => (([], none), m)
  | some rows => m.slowQueryDeltas fl (d.select rows fl server (m.thresholdMs fl)) now

def Monitor.postgresSlowQueries : Option (List StatRow) → Instant → (List SlowQuery × Option ℚ) × Monitor e :=
  m.statementSlowQueries fl server pgStatStatements

def Monitor.mysqlSlowQueries : Option (List StatRow) → Instant → (List SlowQuery × Option ℚ) × Monitor e :=
  m.statementSlowQueries fl server statementDigests

end SlowQueries

/-! ## What the query gives -/

section Rows
variable (d : Dialect) (rows : List StatRow) (id : StatementId)

/-- The rows of a statement that the agent is shown. -/
def Dialect.rowsOf : List StatRow := rows.filter fun r => d.shown r ∧ r.id = some id

/-- The statements of the statistics. -/
def Dialect.ids : List StatementId := (d.groups rows).map Prod.fst

variable {d rows id}

theorem mem_groups {group : StatementId × List StatRow} :
    group ∈ d.groups rows ↔ group.1 ∈ d.ids rows ∧ group.2 = d.rowsOf rows group.1 := by
  have hmembers : ((rows.filterMap fun r => if d.shown r then r.id.map fun id => (id, r) else none).filter fun e =>
      e.1 = group.1).map Prod.snd = d.rowsOf rows group.1 := by
    rw [Dialect.rowsOf, List.filter_filterMap, List.map_filterMap, ← List.filterMap_eq_filter]
    congr 1
    funext r
    by_cases hshown : d.shown r
    · cases hid : r.id with
      | none => simp [hshown, hid, Option.guard]
      | some id' =>
          by_cases h : id' = group.1
          · simp [hshown, hid, h, Option.guard]
          · simp [hshown, hid, h, Option.guard]
    · simp [hshown, Option.guard]
  rw [Dialect.ids, Dialect.groups, mem_groupBy, hmembers, mem_keys_groupBy]

variable {fl : Rounding} {server : Server} {threshold : ℚ} {cur : QueryStats}

/-- The row of a statement. -/
def Dialect.statsOf (d : Dialect) (fl : Rounding) (server : Server) (rows : List StatRow) (id : StatementId) : QueryStats :=
  d.scan fl server (id, d.rowsOf rows id)

/-- The limit is not reached by 25 statements. -/
theorem mem_select (hfew : (d.ids rows).length ≤ 25) : cur ∈ d.select rows fl server threshold ↔
    ∃ id ∈ d.ids rows, d.having threshold (id, d.rowsOf rows id) = true ∧ cur = d.statsOf fl server rows id := by
  have hlength : (server.order.visit ((d.groups rows).filter (d.having threshold))).length ≤ 25 := by
    rw [(server.order.perm _).length_eq]
    apply (List.length_filter_le _ _).trans
    rwa [Dialect.ids, List.length_map] at hfew
  rw [Dialect.select, List.take_of_length_le (by rwa [List.length_mergeSort]), List.mem_map]
  constructor
  · rintro ⟨group, hgroup, rfl⟩
    rw [List.mem_mergeSort, (server.order.perm _).mem_iff, List.mem_filter, mem_groups] at hgroup
    obtain ⟨⟨hid, hrows⟩, hhaving⟩ := hgroup
    have hgroup : group = (group.1, d.rowsOf rows group.1) := Prod.ext rfl hrows
    rw [hgroup] at hhaving
    exact ⟨group.1, hid, hhaving, congrArg (d.scan fl server) hgroup⟩
  · rintro ⟨id, hid, hhaving, rfl⟩
    refine ⟨(id, d.rowsOf rows id), ?_, rfl⟩
    rw [List.mem_mergeSort, (server.order.perm _).mem_iff, List.mem_filter, mem_groups]
    exact ⟨⟨hid, rfl⟩, hhaving⟩

theorem mem_usable (hfew : (d.ids rows).length ≤ 25) : cur ∈ usable (d.select rows fl server threshold) ↔
    ∃ id ∈ d.ids rows, d.having threshold (id, d.rowsOf rows id) = true ∧ cur = d.statsOf fl server rows id := by
  rw [usable, List.mem_filter, mem_select hfew, and_iff_left_of_imp]
  rintro ⟨id, -, -, rfl⟩
  exact decide_eq_true id.usable

theorem StatementId.bytes_injective {id id' : StatementId} (h : id.bytes = id'.bytes) : id = id' := by
  cases id
  cases id'
  congr

/-- What is kept of a statement. -/
theorem memoryOf_select (hfew : (d.ids rows).length ≤ 25) {prev : QueryStats} :
    memoryOf (d.select rows fl server threshold) id.bytes = some prev ↔
      id ∈ d.ids rows ∧ d.having threshold (id, d.rowsOf rows id) = true ∧ prev = d.statsOf fl server rows id := by
  have hmem : ∀ cur, cur ∈ (usable (d.select rows fl server threshold)).filter (fun cur => cur.id = id.bytes) ↔
      id ∈ d.ids rows ∧ d.having threshold (id, d.rowsOf rows id) = true ∧ cur = d.statsOf fl server rows id := by
    intro cur
    rw [List.mem_filter, mem_usable hfew, decide_eq_true_eq]
    constructor
    · rintro ⟨⟨id', hid, hhaving, rfl⟩, heq⟩
      obtain rfl : id' = id := StatementId.bytes_injective heq
      exact ⟨hid, hhaving, rfl⟩
    · rintro ⟨hid, hhaving, rfl⟩
      exact ⟨⟨id, hid, hhaving, rfl⟩, rfl⟩
  unfold memoryOf
  constructor
  · exact fun h => (hmem prev).mp (List.mem_of_getLast? h)
  · intro h
    obtain ⟨cur, hcur⟩ := Option.isSome_iff_exists.mp (List.getLast?_isSome.mpr (List.ne_nil_of_mem ((hmem prev).mpr h)))
    rw [hcur, ((hmem cur).mp (List.mem_of_getLast? hcur)).2.2, h.2.2]

end Rows

end IkelyaneMonitor.Agent.Db
