import Mathlib.Tactic.Linarith
import Mathlib.Tactic.Positivity
import IkelyaneMonitor.Agent.Databases

/-!
# Which statements are reported

* `Dialect.Grows`, `Setting` : statistics of at most 25 statements that are never reset;
* `SlowSince` : a statement ran since the previous reading, and was slow on average; `AlreadySlow` : it was slow over its
  whole life when the statistics were read before;
* `having_of_interval` : what was slow, and is slow since, still is slow over its whole life;
* `Reports` : what a poll reports is what was slow since the previous one;
* `statements_reported_iff` : that is so where all of it was slow before; `fast_past_unreported` : what has just become slow
  is not reported.

Floating-point numbers are exact here.
-/

namespace IkelyaneMonitor.Agent.Db
open Wire Replay

/-! ## Statistics that grow -/

section Statistics
variable (d : Dialect)

def Dialect.callsOf (rows : List StatRow) (id : StatementId) : Nat := totalCalls (d.rowsOf rows id)

def Dialect.msOf (rows : List StatRow) (id : StatementId) : ℚ := d.totalMs (d.rowsOf rows id)

/-- From one reading to the next no statement is new, and no counter goes back. -/
structure Dialect.Grows (before after : List StatRow) : Prop where
  present : ∀ id ∈ d.ids after, id ∈ d.ids before
  calls : ∀ id ∈ d.ids after, d.callsOf before id ≤ d.callsOf after id
  ms : ∀ id ∈ d.ids after, d.msOf before id ≤ d.msOf after id

structure Setting (tables : List (List StatRow)) : Prop where
  few : ∀ rows ∈ tables, (d.ids rows).length ≤ 25
  grows : tables.IsChain d.Grows

/-- The average duration of a statement between two readings. -/
def Dialect.meanSince (before after : List StatRow) (id : StatementId) : ℚ :=
  (d.msOf after id - d.msOf before id) / ((d.callsOf after id : ℚ) - d.callsOf before id)

variable (target : Target)

structure SlowSince (before after : List StatRow) (id : StatementId) : Prop where
  mem : id ∈ d.ids after
  ran : d.callsOf before id < d.callsOf after id
  slow : target.slowQueryThresholdMs ≤ d.meanSince before after id

/-- On average over its whole life. -/
structure AlreadySlow (before : List StatRow) (id : StatementId) : Prop where
  ran : 0 < d.callsOf before id
  slow : target.slowQueryThresholdMs ≤ d.msOf before id / d.callsOf before id

/-- A poll reports what was slow since the statistics were read before. -/
structure Reports (before after : List StatRow) (reported : List SlowQuery) : Prop where
  known : ∀ q ∈ reported, ∃ id ∈ d.ids after, q.fingerprint = id.bytes
  reported_iff : ∀ id : StatementId, (∃ q ∈ reported, q.fingerprint = id.bytes) ↔ SlowSince d target before after id
  figures : ∀ q ∈ reported, ∀ id : StatementId, q.fingerprint = id.bytes →
    q.calls = clampCalls (d.callsOf after id - d.callsOf before id) ∧ q.durationMs = d.meanSince before after id

end Statistics

section Reports
variable {d : Dialect} {target : Target} {before after : List StatRow} {id : StatementId} {server : Server}

theorem having_iff : d.having target.slowQueryThresholdMs (id, d.rowsOf before id) = true ↔
    AlreadySlow d target before id := by
  rw [Dialect.having, Bool.and_eq_true, decide_eq_true_eq, decide_eq_true_eq]
  exact ⟨fun h => ⟨h.1, h.2⟩, fun h => ⟨h.ran, h.slow⟩⟩

/-- The average over the whole life is between that of its two parts. -/
theorem having_of_interval (h : AlreadySlow d target before id) (hslow : SlowSince d target before after id) :
    AlreadySlow d target after id := by
  have hbefore : (0 : ℚ) < d.callsOf before id := by exact_mod_cast h.ran
  have hran : (d.callsOf before id : ℚ) < d.callsOf after id := by exact_mod_cast hslow.ran
  have hpast := (le_div_iff₀ hbefore).mp h.slow
  have hsince := (le_div_iff₀ (sub_pos.mpr hran)).mp hslow.slow
  refine ⟨h.ran.trans hslow.ran, (le_div_iff₀ (hbefore.trans hran)).mpr ?_⟩
  linarith

theorem intervalMs_statsOf : intervalMs .exact (d.statsOf .exact server before id) (d.statsOf .exact server after id) =
    d.meanSince before after id := by
  show (d.msOf after id - d.msOf before id) / (((d.callsOf after id : Int) - (d.callsOf before id : Int) : Int) : ℚ) = _
  rw [Dialect.meanSince]
  push_cast
  rfl

variable {e : Engine} {m : Monitor e} {now : Instant} {q : SlowQuery}

/-- A poll reports the statements that were slow in the previous reading, if they were slow since. -/
theorem mem_reported (hfew : (d.ids before).length ≤ 25) (hfew' : (d.ids after).length ≤ 25) (hgrows : d.Grows before after)
    (hm : m.prevQueries = memoryOf (d.select before .exact server m.target.slowQueryThresholdMs)) :
    q ∈ (m.slowQueryDeltas .exact (d.select after .exact server m.target.slowQueryThresholdMs) now).1.1 ↔
      ∃ id, SlowSince d m.target before after id ∧ AlreadySlow d m.target before id ∧
        q = intervalQuery .exact now (d.statsOf .exact server before id) (d.statsOf .exact server after id) := by
  have hloop : q ∈ (m.slowQueryDeltas .exact (d.select after .exact server m.target.slowQueryThresholdMs) now).1.1 ↔
      ∃ cur ∈ usable (d.select after .exact server m.target.slowQueryThresholdMs), ∃ r, m.delta .exact now cur = some r ∧
        r.2 = q := by
    show q ∈ List.map Prod.snd _ ↔ _
    simp only [List.mem_map, List.mem_filterMap]
    exact ⟨fun ⟨r, ⟨cur, hcur, hr⟩, hq⟩ => ⟨cur, hcur, r, hr, hq⟩, fun ⟨cur, hcur, r, hr, hq⟩ => ⟨r, ⟨cur, hcur, hr⟩, hq⟩⟩
  rw [hloop]
  constructor
  · rintro ⟨cur, hcur, r, hr, rfl⟩
    obtain ⟨id, hid, -, rfl⟩ := (mem_usable hfew').mp hcur
    obtain ⟨prev, hprev, hcalls, hslow, -, rfl⟩ := delta_eq_some.mp hr
    rw [hm] at hprev
    obtain ⟨-, hhaving, rfl⟩ := (memoryOf_select hfew).mp hprev
    rw [intervalMs_statsOf] at hslow
    exact ⟨id, ⟨hid, Int.ofNat_lt.mp hcalls, hslow⟩, having_iff.mp hhaving, rfl⟩
  · rintro ⟨id, hslow, halready, rfl⟩
    have hkept : m.prevQueries (d.statsOf .exact server after id).id = some (d.statsOf .exact server before id) := by
      rw [hm]
      exact (memoryOf_select hfew).mpr ⟨hgrows.present id hslow.mem, having_iff.mpr halready, rfl⟩
    have hnonneg : (0 : ℚ) ≤ d.meanSince before after id := by
      apply div_nonneg (sub_nonneg.mpr (hgrows.ms id hslow.mem))
      exact sub_nonneg.mpr (by exact_mod_cast hslow.ran.le)
    refine ⟨d.statsOf .exact server after id, ?_, _, delta_eq_some.mpr ⟨_, hkept, ?_, ?_, ?_, rfl⟩, rfl⟩
    · exact (mem_usable hfew').mpr ⟨id, hslow.mem, having_iff.mpr (having_of_interval halready hslow), rfl⟩
    · exact Int.ofNat_lt.mpr hslow.ran
    · rw [intervalMs_statsOf]
      exact hslow.slow
    · rw [intervalMs_statsOf]
      exact hnonneg

theorem reports_iff (hfew : (d.ids before).length ≤ 25) (hfew' : (d.ids after).length ≤ 25) (hgrows : d.Grows before after)
    (hm : m.prevQueries = memoryOf (d.select before .exact server m.target.slowQueryThresholdMs)) :
    Reports d m.target before after
        (m.slowQueryDeltas .exact (d.select after .exact server m.target.slowQueryThresholdMs) now).1.1 ↔
      ∀ id, SlowSince d m.target before after id → AlreadySlow d m.target before id := by
  constructor
  · intro h id hslow
    obtain ⟨q, hq, hid⟩ := (h.reported_iff id).mpr hslow
    obtain ⟨id', -, halready, rfl⟩ := (mem_reported hfew hfew' hgrows hm).mp hq
    obtain rfl : id' = id := StatementId.bytes_injective hid
    exact halready
  · intro h
    refine ⟨?_, ?_, ?_⟩
    · intro q hq
      obtain ⟨id, hslow, -, rfl⟩ := (mem_reported hfew hfew' hgrows hm).mp hq
      exact ⟨id, hslow.mem, rfl⟩
    · intro id
      constructor
      · rintro ⟨q, hq, hid⟩
        obtain ⟨id', hslow, -, rfl⟩ := (mem_reported hfew hfew' hgrows hm).mp hq
        obtain rfl : id' = id := StatementId.bytes_injective hid
        exact hslow
      · intro hslow
        exact ⟨_, (mem_reported hfew hfew' hgrows hm).mpr ⟨id, hslow, h id hslow, rfl⟩, rfl⟩
    · intro q hq id hid
      obtain ⟨id', -, -, rfl⟩ := (mem_reported hfew hfew' hgrows hm).mp hq
      obtain rfl : id' = id := StatementId.bytes_injective hid
      exact ⟨rfl, intervalMs_statsOf⟩

end Reports

/-! ## Runs -/

section Runs
variable {e : Engine}

/-- The statistics that were read, in turn. -/
def tables (polls : List (Poll e)) : List (List StatRow) := (polls.filterMap Poll.statistics).map Prod.snd

/-- What is reported by the poll that reads these statistics; the first that reads some has nothing to compare them with. -/
def ReportsAfter (target : Target) (polls : List (Poll e)) (rows : List StatRow) (reported : List SlowQuery) : Prop :=
  match lastStatistics polls with
  | none => reported = []
  | some before => Reports e.dialect target before.2 rows reported

variable {polls pre post : List (Poll e)} {poll : Poll e} {read : Int × List StatRow}

theorem Setting.at (pre post : List (Poll e)) (h : Setting e.dialect (tables polls)) (hsplit : polls = pre ++ poll :: post)
    (hread : poll.statistics = some read) : (e.dialect.ids read.2).length ≤ 25 ∧ ∀ before, lastStatistics pre = some before →
      (e.dialect.ids before.2).length ≤ 25 ∧ e.dialect.Grows before.2 read.2 := by
  have htables : tables polls = tables pre ++ read.2 :: tables post := by
    rw [hsplit, tables, List.filterMap_append, List.filterMap_cons_some hread, List.map_append, List.map_cons]
    rfl
  have hfew := h.few
  have hgrows := h.grows
  rw [htables] at hfew hgrows
  refine ⟨hfew _ (List.mem_append_right _ List.mem_cons_self), fun before hbefore => ?_⟩
  have hlast : (tables pre).getLast? = some before.2 := by
    rw [tables, List.getLast?_map]
    exact congrArg _ hbefore
  refine ⟨hfew _ (List.mem_append_left _ (List.mem_of_getLast? hlast)), ?_⟩
  exact (List.isChain_append.mp hgrows).2.2 before.2 hlast read.2 rfl

end Runs

/-- **What a poll reports of statements.** At most 25 statements, whose counters do not go back, are polled again and again,
and some polls may fail. A poll that reads the statistics reports what was slow since they were read before, how often it ran
and how long on average, if and only if all of it was slow on average over its whole life when they were read before. -/
theorem statements_reported_iff (p : Platform) {e : Engine} (target : Target) (endpoint : List UInt8) (polls : List (Poll e))
    (h : Setting e.dialect (tables polls)) (pre : List (Poll e)) (poll : Poll e) (post : List (Poll e))
    (hsplit : polls = pre ++ poll :: post) (read : Int × List StatRow) (hread : poll.statistics = some read) :
    ReportsAfter target pre read.2
        (((Monitor.start target endpoint).after .exact p pre).collect .exact p poll.outcome poll.now).1.slowQueries ↔
      ∀ before, lastStatistics pre = some before →
        ∀ id, SlowSince e.dialect target before.2 read.2 id → AlreadySlow e.dialect target before.2 id := by
  obtain ⟨hfew', hbefore⟩ := h.at pre post hsplit hread
  have hprev := prevQueries_after .exact p pre target endpoint
  have htarget : ((Monitor.start target endpoint).after .exact p pre).target = target := target_after
  generalize (Monitor.start target endpoint).after .exact p pre = m at hprev htarget ⊢
  subst htarget
  rw [(report_statistics hread).1, ReportsAfter]
  cases hlast : lastStatistics pre with
  | none =>
      rw [hlast] at hprev
      refine iff_of_true ?_ nofun
      show List.map Prod.snd _ = []
      rw [List.map_eq_nil_iff, List.filterMap_eq_nil_iff]
      intro cur _
      rw [Monitor.delta, hprev]
      rfl
  | some before =>
      rw [hlast] at hprev
      obtain ⟨hfew, hgrows⟩ := hbefore before hlast
      refine (reports_iff hfew hfew' hgrows hprev).trans ?_
      exact ⟨fun h before' heq => Option.some.inj heq ▸ h, fun h => h before rfl⟩

/-! ## One statement -/

def orders : StatementId := ⟨utf8 "8129".toList, by decide, by decide⟩

/-- The statistics of one statement: how often it ran, and for how many milliseconds. -/
def ordersRan (calls ms : Nat) : List StatRow :=
  [⟨some orders, some (utf8 "SELECT $1".toList), calls, ms, 0, 0⟩]

theorem ids_ordersRan (calls ms : Nat) : pgStatStatements.ids (ordersRan calls ms) = [orders] := rfl

theorem callsOf_ordersRan (calls ms : Nat) : pgStatStatements.callsOf (ordersRan calls ms) orders = calls := by
  show calls + 0 = calls
  omega

theorem msOf_ordersRan (calls ms : Nat) : pgStatStatements.msOf (ordersRan calls ms) orders = ms := by
  show ((ms : ℚ) + 0) / 1 = ms
  rw [add_zero, div_one]

/-- A poll of PostgreSQL. -/
def postgresPoll (minute : Nat) (statements : Option (List StatRow)) : Poll .postgresql where
  now := noon minute
  outcome := .answered (show PostgresAnswers from
    { version := utf8 "17.2".toList, maxConnections := some 100, isReplica := some false, activeConnections := some 3
      blksHit := 0, blksRead := 0, xactTotal := 0, deadlocks := 0, storageBytes := none, lagSeconds := none
      statements := statements })

def ordersDb : Target := ⟨utf8 "orders".toList, 100, by decide⟩

section TwoReadings
variable {calls calls' ms ms' : Nat}

theorem setting_ordersRan (hcalls : calls ≤ calls') (hms : ms ≤ ms') :
    Setting pgStatStatements (tables [postgresPoll 0 (some (ordersRan calls ms)),
      postgresPoll 1 (some (ordersRan calls' ms'))]) := by
  have htables : tables [postgresPoll 0 (some (ordersRan calls ms)), postgresPoll 1 (some (ordersRan calls' ms'))] =
      [ordersRan calls ms, ordersRan calls' ms'] := rfl
  have hids := ids_ordersRan
  rw [htables]
  refine ⟨?_, List.isChain_pair.mpr ⟨?_, ?_, ?_⟩⟩
  · intro rows hrows
    rcases List.mem_pair.mp hrows with rfl | rfl
    all_goals
      rw [hids]
      decide
  · intro id hid
    rwa [hids] at hid ⊢
  · intro id hid
    rw [hids, List.mem_singleton] at hid
    rwa [hid, callsOf_ordersRan, callsOf_ordersRan]
  · intro id hid
    rw [hids, List.mem_singleton] at hid
    rw [hid, msOf_ordersRan, msOf_ordersRan]
    exact_mod_cast hms

theorem slowSince_ordersRan (hcalls : calls < calls') (hms : ms ≤ ms') (hslow : 100 * (calls' - calls) ≤ ms' - ms) :
    SlowSince pgStatStatements ordersDb (ordersRan calls ms) (ordersRan calls' ms') orders := by
  refine ⟨List.mem_singleton_self _, ?_, ?_⟩
  · rwa [callsOf_ordersRan, callsOf_ordersRan]
  · have hran : (0 : ℚ) < (calls' : ℚ) - calls := sub_pos.mpr (by exact_mod_cast hcalls)
    rw [Dialect.meanSince, msOf_ordersRan, msOf_ordersRan, callsOf_ordersRan, callsOf_ordersRan, le_div_iff₀ hran,
      ← Nat.cast_sub hcalls.le, ← Nat.cast_sub hms]
    show ((100 : Int) : ℚ) * _ ≤ _
    exact_mod_cast hslow

theorem alreadySlow_ordersRan :
    AlreadySlow pgStatStatements ordersDb (ordersRan calls ms) orders ↔ 0 < calls ∧ 100 * calls ≤ ms := by
  have hslow : 0 < calls → ((ordersDb.slowQueryThresholdMs : ℚ) ≤ (ms : ℚ) / (calls : ℚ) ↔ 100 * calls ≤ ms) := by
    intro hpos
    rw [le_div_iff₀ (by exact_mod_cast hpos)]
    show ((100 : Int) : ℚ) * _ ≤ _ ↔ _
    norm_cast
  constructor
  · rintro ⟨hran, h⟩
    rw [callsOf_ordersRan] at hran
    rw [msOf_ordersRan, callsOf_ordersRan, hslow hran] at h
    exact ⟨hran, h⟩
  · rintro ⟨hran, h⟩
    refine ⟨?_, ?_⟩
    · rwa [callsOf_ordersRan]
    · rwa [msOf_ordersRan, callsOf_ordersRan, hslow hran]

/-- What the second of two polls reports. -/
def secondReport (calls ms calls' ms' : Nat) : List SlowQuery :=
  (((Monitor.start ordersDb []).after .exact plain [postgresPoll 0 (some (ordersRan calls ms))]).collect .exact plain
    (postgresPoll 1 (some (ordersRan calls' ms'))).outcome (postgresPoll 1 (some (ordersRan calls' ms'))).now).1.slowQueries

theorem statistics_postgresPoll (minute : Nat) (rows : List StatRow) :
    (postgresPoll minute (some rows)).statistics = some ((noon minute).nanos, rows) := rfl

theorem lastStatistics_ordersRan : lastStatistics [postgresPoll 0 (some (ordersRan calls ms))] =
    some ((noon 0).nanos, ordersRan calls ms) := rfl

end TwoReadings

/-- Ten executions of two seconds each, then two of three seconds: they are reported. -/
theorem statements_reported_slow :
    ReportsAfter ordersDb [postgresPoll 0 (some (ordersRan 10 20000))] (ordersRan 12 26000)
      (secondReport 10 20000 12 26000) := by
  have hset := setting_ordersRan (show 10 ≤ 12 by decide) (show 20000 ≤ 26000 by decide)
  refine (statements_reported_iff (e := .postgresql) plain ordersDb [] _ hset _
    (postgresPoll 1 (some (ordersRan 12 26000))) [] rfl
    _ (statistics_postgresPoll 1 _)).mpr ?_
  intro before hbefore id hslow
  obtain rfl := Option.some.inj (lastStatistics_ordersRan.symm.trans hbefore)
  have hid : id = orders := List.mem_singleton.mp hslow.mem
  rw [hid]
  exact alreadySlow_ordersRan.mpr (by decide)

/-- **A fast past.** A thousand executions of ten milliseconds, then two of 300: the average over the whole life is far below
the threshold of 100, so that the query shows no row, and nothing is reported. -/
theorem fast_past_unreported :
    Setting pgStatStatements (tables [postgresPoll 0 (some (ordersRan 1000 10000)),
      postgresPoll 1 (some (ordersRan 1002 10600))]) ∧
      SlowSince pgStatStatements ordersDb (ordersRan 1000 10000) (ordersRan 1002 10600) orders ∧
        secondReport 1000 10000 1002 10600 = [] ∧
          ¬ ReportsAfter ordersDb [postgresPoll 0 (some (ordersRan 1000 10000))] (ordersRan 1002 10600)
            (secondReport 1000 10000 1002 10600) := by
  have hset := setting_ordersRan (show 1000 ≤ 1002 by decide) (show 10000 ≤ 10600 by decide)
  have hslow := slowSince_ordersRan (show 1000 < 1002 by decide) (show 10000 ≤ 10600 by decide) (by decide)
  have hsilent : secondReport 1000 10000 1002 10600 = [] := by
    obtain ⟨hfew', hbefore⟩ := Setting.at [postgresPoll 0 (some (ordersRan 1000 10000))] [] hset rfl
      (statistics_postgresPoll 1 _)
    obtain ⟨hfew, hgrows⟩ := hbefore _ lastStatistics_ordersRan
    have hprev := prevQueries_after .exact plain [postgresPoll 0 (some (ordersRan 1000 10000))] ordersDb []
    rw [List.eq_nil_iff_forall_not_mem]
    intro q hq
    rw [secondReport, (report_statistics (statistics_postgresPoll 1 _)).1] at hq
    obtain ⟨id, hid, halready, -⟩ := (mem_reported hfew hfew' hgrows hprev).mp hq
    obtain rfl : id = orders := List.mem_singleton.mp hid.mem
    exact absurd (alreadySlow_ordersRan.mp halready) (by decide)
  refine ⟨hset, hslow, hsilent, fun h => ?_⟩
  obtain ⟨q, hq, -⟩ := (h.reported_iff orders).mpr hslow
  rw [hsilent] at hq
  cases hq

end IkelyaneMonitor.Agent.Db
