import IkelyaneMonitor.Agent.ProfilerOnce
import IkelyaneMonitor.Agent.SlowStatements

/-!
# The rate of slow executions

* `perMinute_exact` : a count by the minutes since the previous poll that succeeded;
* `counted` : how many executions a poll counts; `StatementSlow`, `CommandSlow` : what makes it count some
  (`slowCalls_ne_zero`, `sizes_slowCommands_ne_zero`);
* `CountedSince` : the reading that they are counted since; `counted_ne_zero` : there is one if any are counted;
* `RateLaw` : a rate is the count by the minutes since then; `rateLaw_iff`, `rate_counted`;
* `slow_rate_iff` : the law holds where the last poll that succeeded was that reading; `rate_doubled` : another poll.

Floating-point numbers are exact here.
-/

namespace IkelyaneMonitor.Agent.Db
open Wire Replay

/-! ## One count -/

section Rate
variable {e : Engine} {m : Monitor e} {now : Instant} {n : Int} {t t' : Int}

def minutesSince (t now : Int) : ℚ := ((now - t : Int) : ℚ) / (60 * 10 ^ 9)

theorem perMinute_exact (n : Int) : m.perMinute .exact n now =
    m.prevAt.bind fun t => if now.nanos ≤ t then none else some (n / minutesSince t now.nanos) := by
  unfold Monitor.perMinute
  congr 1
  funext t
  have hsign : floatSeconds .exact (now.nanos - t) ≤ 0 ↔ now.nanos ≤ t := by
    rw [floatSeconds_exact, div_le_iff₀ (by norm_num), zero_mul]
    norm_cast
    omega
  have hvalue : (n : ℚ) / floatSeconds .exact (now.nanos - t) * 60 = n / minutesSince t now.nanos := by
    rw [floatSeconds_exact, minutesSince, div_div_eq_mul_div, div_div_eq_mul_div, mul_comm 60, ← mul_assoc,
      div_mul_eq_mul_div]
  simp only [hsign]
  show (if _ then _ else some ((n : ℚ) / floatSeconds .exact (now.nanos - t) * 60)) = _
  rw [hvalue]

theorem div_minutesSince (hn : n ≠ 0) (now : Int) :
    (n : ℚ) / minutesSince t now = n / minutesSince t' now ↔ t = t' := by
  have hn' : (n : ℚ) ≠ 0 := by exact_mod_cast hn
  rw [div_eq_mul_inv, div_eq_mul_inv, mul_right_inj' hn', inv_inj, minutesSince, minutesSince, div_left_inj' (by norm_num),
    Int.cast_inj]
  omega

end Rate

/-! ## What a poll counts -/

section Counts
variable (p : Platform) {e : Engine}

/-- The slow executions that a poll counts, in what it reads. -/
def Monitor.counted (m : Monitor e) (poll : Poll e) : Int :=
  match poll.statistics, poll.slowlog with
  | some read, _ => m.slowCalls .exact (selectOf .exact p e m.target read.2) poll.now
  | none, some read => sizes (m.slowCommands .exact p.commands (read.2.map (SlowlogEntry.event .exact)))
  | none, none => (m.reads poll).length

/-- A statement is in the rows of both readings, and was slow between them. -/
def StatementSlow (e : Engine) (target : Target) (before after : List StatRow) : Prop :=
  ∃ cur ∈ usable (selectOf .exact p e target after), ∃ prev, memoryOf (selectOf .exact p e target before) cur.id = some prev ∧
    prev.calls < cur.calls ∧ target.slowQueryThresholdMs ≤ intervalMs .exact prev cur

/-- The entries of a command after those that were read before. -/
def sinceLog (before after : List SlowlogEntry) (command : List UInt8) : List SlowlogEvent :=
  (after.map (SlowlogEntry.event .exact)).filter fun event =>
    (maxID (before.map SlowlogEntry.id) < event.id ∧ event.command ≠ []) ∧ event.command = command

/-- The new entries of a command are slow on average. -/
def CommandSlow (target : Target) (before after : List SlowlogEntry) : Prop :=
  ∃ command, sinceLog before after command ≠ [] ∧
    target.slowQueryThresholdMs ≤ meanMs .exact ((sinceLog before after command).map SlowlogEvent.durationMs)

variable {p} {m : Monitor e} {now : Instant}

theorem slowCalls_ne_zero {before after : List StatRow}
    (hm : m.prevQueries = memoryOf (selectOf .exact p e m.target before)) :
    m.slowCalls .exact (selectOf .exact p e m.target after) now ≠ 0 ↔ StatementSlow p e m.target before after := by
  have hpositive : ∀ n ∈ ((usable (selectOf .exact p e m.target after)).filterMap (m.delta .exact now)).map Prod.fst,
    0 < n := by
    intro n hn
    obtain ⟨r, hr, rfl⟩ := List.mem_map.mp hn
    obtain ⟨cur, -, hcur⟩ := List.mem_filterMap.mp hr
    obtain ⟨prev, -, hcalls, -, -, rfl⟩ := delta_eq_some.mp hcur
    exact sub_pos.mpr hcalls
  unfold Monitor.slowCalls StatementSlow
  constructor
  · intro hne
    have hsome : ((usable (selectOf .exact p e m.target after)).filterMap (m.delta .exact now)).map Prod.fst ≠ [] := by
      intro hnil
      rw [hnil] at hne
      exact hne rfl
    obtain ⟨n, hn⟩ := List.exists_mem_of_ne_nil _ hsome
    obtain ⟨r, hr, -⟩ := List.mem_map.mp hn
    obtain ⟨cur, hmem, hcur⟩ := List.mem_filterMap.mp hr
    obtain ⟨prev, hprev, hcalls, hslow, -, -⟩ := delta_eq_some.mp hcur
    exact ⟨cur, hmem, prev, hm ▸ hprev, hcalls, hslow⟩
  · rintro ⟨cur, hmem, prev, hprev, hcalls, hslow⟩
    have hnonneg : (0 : ℚ) ≤ intervalMs .exact prev cur := by
      refine le_trans ?_ hslow
      exact_mod_cast m.target.positive.le
    have hcur : m.delta .exact now cur = some (cur.calls - prev.calls, intervalQuery .exact now prev cur) :=
      delta_eq_some.mpr ⟨prev, hm.symm ▸ hprev, hcalls, hslow, hnonneg, rfl⟩
    exact (List.sum_pos _ hpositive (List.ne_nil_of_mem (List.mem_map_of_mem (List.mem_filterMap.mpr ⟨cur, hmem, hcur⟩)))).ne'

theorem sizes_ne_zero {κ β : Type} {groups : List (κ × List β)} (h : ∀ group ∈ groups, group.2 ≠ []) :
    sizes groups ≠ 0 ↔ groups ≠ [] := by
  constructor
  · rintro hne rfl
    exact hne rfl
  · intro hne
    have hpositive : ∀ n ∈ groups.map fun group => (group.2.length : Int), 0 < n := by
      intro n hn
      obtain ⟨group, hgroup, rfl⟩ := List.mem_map.mp hn
      exact Int.ofNat_lt.mpr (List.length_pos_iff.mpr (h group hgroup))
    exact (List.sum_pos _ hpositive (by rwa [ne_eq, List.map_eq_nil_iff])).ne'

/-- A cursor that is unset, or of another log. -/
theorem slowCommands_unresumed {fl : Rounding} {order : AnyOrder (List UInt8 × List ℚ)} {events : List SlowlogEvent}
    (h : m.resumesAt (events.map SlowlogEvent.id) = none) : m.slowCommands fl order events = [] := by
  have hnone : groupBy SlowlogEvent.command SlowlogEvent.durationMs (m.aggregated events) = [] := by
    rw [Monitor.aggregated, h]
    rfl
  rw [Monitor.slowCommands, hnone, (order.perm []).eq_nil]
  rfl

theorem sizes_unresumed {events : List SlowlogEvent} (h : m.resumesAt (events.map SlowlogEvent.id) = none) :
    sizes (m.slowCommands .exact p.commands events) = 0 := by
  rw [slowCommands_unresumed h]
  rfl

theorem sizes_slowCommands_ne_zero {before after : List SlowlogEntry}
    (hm : m.slowlogLastID = some (maxID (before.map SlowlogEntry.id))) :
    sizes (m.slowCommands .exact p.commands (after.map (SlowlogEntry.event .exact))) ≠ 0 ↔
      CommandSlow m.target before after := by
  have hfresh : ∀ command,
      (m.aggregated (after.map (SlowlogEntry.event .exact))).filter (fun event => event.command = command) =
        sinceLog before after command := by
    intro command
    unfold Monitor.aggregated Monitor.resumesAt sinceLog
    rw [hm]
    by_cases hresumes : maxID (before.map SlowlogEntry.id) ≤
      maxID ((after.map (SlowlogEntry.event .exact)).map SlowlogEvent.id)
    · rw [Option.filter_some, if_pos (decide_eq_true hresumes), Option.elim_some, List.filter_filter]
      congr 1
      funext event
      simp only [Bool.and_comm, Bool.decide_and]
    · rw [Option.filter_some, if_neg (by simpa using hresumes), Option.elim_none, List.filter_nil, eq_comm,
        List.filter_eq_nil_iff]
      intro event hevent
      have hle := le_maxID (List.mem_map_of_mem (f := SlowlogEvent.id) hevent)
      simp only [decide_eq_true_eq]
      omega
  have hgroup : ∀ group, group ∈ m.slowCommands .exact p.commands (after.map (SlowlogEntry.event .exact)) ↔
      (sinceLog before after group.1 ≠ [] ∧ group.2 = (sinceLog before after group.1).map SlowlogEvent.durationMs) ∧
        (m.target.slowQueryThresholdMs : ℚ) ≤ meanMs .exact group.2 := by
    intro group
    rw [Monitor.slowCommands, List.mem_filter, (p.commands.perm _).mem_iff, mem_groupBy, hfresh, decide_eq_true_eq, ← hfresh,
      ne_eq, List.filter_eq_nil_iff]
    simp [Monitor.thresholdMs, Rounding.exact]
  rw [sizes_ne_zero fun group h => by rw [((hgroup group).mp h).1.2]; simpa using ((hgroup group).mp h).1.1]
  unfold CommandSlow
  constructor
  · intro hne
    obtain ⟨group, hmem⟩ := List.exists_mem_of_ne_nil _ hne
    obtain ⟨⟨hsome, hdurations⟩, hslow⟩ := (hgroup group).mp hmem
    exact ⟨group.1, hsome, hdurations ▸ hslow⟩
  · rintro ⟨command, hsome, hslow⟩
    exact List.ne_nil_of_mem ((hgroup (command, _)).mpr ⟨⟨hsome, rfl⟩, hslow⟩)

theorem sizes_groups (g : Grouping) (reads : List Read) :
    sizes (g.order.visit (groupBy g.id (fun read => read) reads)) = reads.length := by
  have hsum : ((groupBy g.id (fun read => read) reads).map fun group => group.2.length).sum = reads.length :=
    sum_length_groupBy reads
  rw [sizes, ((g.order.perm _).map _).sum_eq, ← hsum, Nat.cast_list_sum, List.map_map]
  rfl

end Counts

/-! ## Each engine has statistics of its own -/

section Engines
variable {e : Engine} {m : Monitor e} {poll : Poll e}

theorem engine_of_statistics {read : Int × List StatRow} (h : poll.statistics = some read) : e ≠ .redis ∧ e ≠ .mongodb := by
  obtain ⟨a, -, ha⟩ := Option.bind_eq_some_iff.mp h
  constructor
  · rintro rfl
    cases ha
  · rintro rfl
    cases ha

theorem engine_of_slowlog {read : Int × List SlowlogEntry} (h : poll.slowlog = some read) : e = .redis := by
  obtain ⟨a, -, ha⟩ := Option.bind_eq_some_iff.mp h
  cases e with
  | redis => rfl
  | postgresql | mysql | mariadb | mongodb => cases ha

theorem reads_eq_nil (h : e ≠ .mongodb) : m.reads poll = [] := by
  rw [Monitor.reads]
  cases poll.answers? with
  | none => rfl
  | some a =>
      cases e with
      | mongodb => exact absurd rfl h
      | postgresql | mysql | mariadb | redis => rfl

theorem reads_ne_nil : m.reads poll ≠ [] ↔ ∃ name, m.readBy name poll ≠ [] := by
  constructor
  · intro h
    obtain ⟨read, hread⟩ := List.exists_mem_of_ne_nil _ h
    exact ⟨read.1, List.ne_nil_of_mem (List.mem_map_of_mem (List.mem_filter.mpr ⟨hread, decide_eq_true rfl⟩))⟩
  · rintro ⟨name, hname⟩ hnil
    rw [Monitor.readBy, hnil] at hname
    exact hname rfl

end Engines

/-! ## Runs -/

section Runs
variable {e : Engine}

/-- When the profile of a database was last read. -/
def lastProfile (name : List UInt8) (polls : List (Poll e)) : Option Int :=
  (polls.filterMap fun poll => (poll.profile name).map fun _ => poll.now.nanos).getLast?

/-- The poll counts slow executions since a reading at `t`: of statements, of the slow log, or of a profile, whose entries are
all slow. -/
inductive CountedSince (p : Platform) (pre : List (Poll e)) (m : Monitor e) (poll : Poll e) (t : Int) : Prop where
  | statements {before after : List StatRow} {now : Int} : lastStatistics pre = some (t, before) →
      poll.statistics = some (now, after) → StatementSlow p e m.target before after → CountedSince p pre m poll t
  | commands {before after : List SlowlogEntry} {now : Int} : lastSlowlog pre = some (t, before) →
      poll.slowlog = some (now, after) → CommandSlow m.target before after → CountedSince p pre m poll t
  | entries {name : List UInt8} : lastProfile name pre = some t → m.readBy name poll ≠ [] → CountedSince p pre m poll t

/-- A rate that is reported is the count by the minutes since the readings that it is counted from. -/
def RateLaw (p : Platform) (pre : List (Poll e)) (m : Monitor e) (poll : Poll e) : Prop :=
  ∀ v, (m.collect .exact p poll.outcome poll.now).1.metrics.slowQueriesPerMin = some v →
    (m.counted p poll = 0 → v = 0) ∧ ∀ t, CountedSince p pre m poll t → v = m.counted p poll / minutesSince t poll.now.nanos

variable {p : Platform} {target : Target} {pre : List (Poll e)} {poll : Poll e} {m : Monitor e}

/-- What a monitor keeps, after polls. -/
structure Tracks (p : Platform) (target : Target) (pre : List (Poll e)) (m : Monitor e) : Prop where
  configured : m.target = target
  prevAt : m.prevAt = lastSuccess pre
  prevQueries : m.prevQueries = (lastStatistics pre).elim (fun _ => none) fun read =>
    memoryOf (selectOf .exact p e target read.2)
  slowlogLastID : m.slowlogLastID = (lastSlowlog pre).map fun read => maxID (read.2.map SlowlogEntry.id)
  profileSeen : ∀ name, (m.profileSeen name).isSome = (lastProfile name pre).isSome

theorem profileSeen_isSome (endpoint name : List UInt8) :
    (((Monitor.start target endpoint).after .exact p pre).profileSeen name).isSome = (lastProfile name pre).isSome := by
  induction pre using List.reverseRecOn with
  | nil => rfl
  | append_singleton pre poll ih =>
      rw [after_append, lastProfile, getLast?_filterMap_append, Option.isSome_or, ← lastProfile, ← ih]
      refine (congrArg Option.isSome profileSeen_collect).trans ?_
      generalize ((Monitor.start target endpoint).after .exact p pre).profileSeen name = cursor
      cases poll.profile name with
      | none => rfl
      | some found => cases cursor <;> rfl

theorem tracks_after (endpoint : List UInt8) : Tracks p target pre ((Monitor.start target endpoint).after .exact p pre) where
  configured := target_after
  prevAt := prevAt_after.trans (Option.or_none)
  prevQueries := prevQueries_after .exact p pre target endpoint
  slowlogLastID := slowlogLastID_after.trans (Option.or_none)
  profileSeen := profileSeen_isSome endpoint

theorem counted_statistics (h : Tracks p target pre m) {after : Int × List StatRow} (hafter : poll.statistics = some after) :
    m.counted p poll ≠ 0 ↔ ∃ before, lastStatistics pre = some before ∧ StatementSlow p e m.target before.2 after.2 := by
  have hcounted : m.counted p poll = m.slowCalls .exact (selectOf .exact p e m.target after.2) poll.now := by
    rw [Monitor.counted, hafter]
  have hkept := h.prevQueries
  rw [← h.configured] at hkept
  rw [hcounted]
  cases hbefore : lastStatistics pre with
  | none =>
      rw [hbefore] at hkept
      refine iff_of_false (fun hne => hne ?_) (by simp)
      have hsilent : ∀ cur, m.delta .exact poll.now cur = none := by
        intro cur
        rw [Monitor.delta, hkept]
        rfl
      rw [Monitor.slowCalls, List.filterMap_eq_nil_iff.mpr fun cur _ => hsilent cur]
      rfl
  | some before =>
      rw [hbefore] at hkept
      rw [slowCalls_ne_zero hkept]
      simp

theorem counted_slowlog (h : Tracks p target pre m) {after : Int × List SlowlogEntry} (hstatistics : poll.statistics = none)
    (hafter : poll.slowlog = some after) :
    m.counted p poll ≠ 0 ↔ ∃ before, lastSlowlog pre = some before ∧ CommandSlow m.target before.2 after.2 := by
  have hcounted : m.counted p poll = sizes (m.slowCommands .exact p.commands (after.2.map (SlowlogEntry.event .exact))) := by
    rw [Monitor.counted, hstatistics, hafter]
  have hkept := h.slowlogLastID
  rw [hcounted]
  cases hbefore : lastSlowlog pre with
  | none =>
      rw [hbefore] at hkept
      refine iff_of_false (fun hne => hne (sizes_unresumed ?_)) (by simp)
      rw [Monitor.resumesAt, hkept]
      rfl
  | some before =>
      rw [hbefore] at hkept
      rw [sizes_slowCommands_ne_zero hkept]
      simp

theorem counted_profiles (h : Tracks p target pre m) (hstatistics : poll.statistics = none) (hslowlog : poll.slowlog = none) :
    m.counted p poll ≠ 0 ↔ ∃ t name, lastProfile name pre = some t ∧ m.readBy name poll ≠ [] := by
  have hcounted : m.counted p poll = (m.reads poll).length := by
    rw [Monitor.counted, hstatistics, hslowlog]
  rw [hcounted, ne_eq, Nat.cast_eq_zero, List.length_eq_zero_iff, ← ne_eq, reads_ne_nil]
  constructor
  · rintro ⟨name, hread⟩
    have hseen : (m.profileSeen name).isSome = true := by
      cases hcursor : m.profileSeen name with
      | some last => rfl
      | none =>
          rw [readBy_eq, hcursor] at hread
          cases hfound : poll.profile name with
          | none =>
              rw [hfound] at hread
              exact absurd rfl hread
          | some found =>
              rw [hfound] at hread
              exact absurd rfl hread
    rw [h.profileSeen] at hseen
    obtain ⟨t, ht⟩ := Option.isSome_iff_exists.mp hseen
    exact ⟨t, name, ht, hread⟩
  · rintro ⟨t, name, -, hread⟩
    exact ⟨name, hread⟩

/-- What is counted is counted since a reading. -/
theorem counted_ne_zero (h : Tracks p target pre m) : m.counted p poll ≠ 0 ↔ ∃ t, CountedSince p pre m poll t := by
  cases hstatistics : poll.statistics with
  | some after =>
      obtain ⟨hredis, hmongodb⟩ := engine_of_statistics hstatistics
      rw [counted_statistics h hstatistics]
      constructor
      · rintro ⟨before, hbefore, hslow⟩
        exact ⟨before.1, .statements hbefore hstatistics hslow⟩
      · rintro ⟨t, hsince⟩
        cases hsince with
        | statements hbefore hafter hslow =>
            obtain rfl := Option.some.inj (hstatistics.symm.trans hafter)
            exact ⟨_, hbefore, hslow⟩
        | commands _ hafter _ => exact absurd (engine_of_slowlog hafter) hredis
        | entries _ hread => exact absurd (reads_eq_nil hmongodb) (reads_ne_nil.mpr ⟨_, hread⟩)
  | none =>
      cases hslowlog : poll.slowlog with
      | some after =>
          obtain rfl := engine_of_slowlog hslowlog
          rw [counted_slowlog h hstatistics hslowlog]
          constructor
          · rintro ⟨before, hbefore, hslow⟩
            exact ⟨before.1, .commands hbefore hslowlog hslow⟩
          · rintro ⟨t, hsince⟩
            cases hsince with
            | statements _ hafter _ => exact absurd (hstatistics.symm.trans hafter) nofun
            | commands hbefore hafter hslow =>
                obtain rfl := Option.some.inj (hslowlog.symm.trans hafter)
                exact ⟨_, hbefore, hslow⟩
            | entries _ hread => exact absurd (reads_eq_nil (by decide)) (reads_ne_nil.mpr ⟨_, hread⟩)
      | none =>
          rw [counted_profiles h hstatistics hslowlog]
          constructor
          · rintro ⟨t, name, hbefore, hread⟩
            exact ⟨t, .entries hbefore hread⟩
          · rintro ⟨t, hsince⟩
            cases hsince with
            | statements _ hafter _ => exact absurd (hstatistics.symm.trans hafter) nofun
            | commands _ hafter _ => exact absurd (hslowlog.symm.trans hafter) nofun
            | entries hbefore hread => exact ⟨t, _, hbefore, hread⟩

/-- A rate is the count by the clock of the monitor, or nothing is counted. -/
theorem rate_counted (p : Platform) (m : Monitor e) (poll : Poll e) :
    (m.collect .exact p poll.outcome poll.now).1.metrics.slowQueriesPerMin =
      m.perMinute .exact (m.counted p poll) poll.now ∨
    (m.collect .exact p poll.outcome poll.now).1.metrics.slowQueriesPerMin = none ∧ m.counted p poll = 0 := by
  cases hstatistics : poll.statistics with
  | some after =>
      left
      rw [(report_statistics hstatistics).2, Monitor.counted, hstatistics]
      rfl
  | none =>
      cases hslowlog : poll.slowlog with
      | some after =>
          have hcounted : m.counted p poll =
            sizes (m.slowCommands .exact p.commands (after.2.map (SlowlogEntry.event .exact))) := by
            rw [Monitor.counted, hstatistics, hslowlog]
          have hreport : (m.collect .exact p poll.outcome poll.now).1.metrics.slowQueriesPerMin =
              (m.slowlogDeltas .exact p.commands (after.2.map (SlowlogEntry.event .exact)) poll.now).1.2 :=
            (report_slowlog hslowlog).2
          rw [Monitor.slowlogDeltas] at hreport
          split at hreport
          · rename_i hnone
            exact .inr ⟨hreport, hcounted.trans (sizes_unresumed (Option.isNone_iff_eq_none.mp hnone))⟩
          · left
            rw [hreport, hcounted]
      | none =>
          have hcounted : m.counted p poll = (m.reads poll).length := by
            rw [Monitor.counted, hstatistics, hslowlog]
          by_cases hengine : e = .mongodb
          · subst hengine
            cases ha : poll.answers? with
            | none =>
                refine .inr ⟨report_unanswered ha, ?_⟩
                rw [hcounted, Monitor.reads, ha]
                rfl
            | some a =>
                left
                rw [(report_collect ha).2, hcounted, ← sizes_groups p.grouping, Monitor.reads, ha]
                rfl
          · refine .inr ⟨report_unread hengine hstatistics hslowlog, ?_⟩
            rw [hcounted, reads_eq_nil hengine]
            rfl

theorem rateLaw_iff (h : Tracks p target pre m) : RateLaw p pre m poll ↔
    ∀ t, CountedSince p pre m poll t → ∀ t', lastSuccess pre = some t' → t' < poll.now.nanos → t = t' := by
  have hcounted : m.counted p poll ≠ 0 ↔ ∃ t, CountedSince p pre m poll t := counted_ne_zero h
  unfold RateLaw
  rcases rate_counted p m poll with hrate | ⟨hrate, hzero⟩
  · rw [hrate, perMinute_exact, h.prevAt]
    cases lastSuccess pre with
    | none => exact iff_of_true (fun _ hv => nomatch hv) fun _ _ _ ht' => nomatch ht'
    | some t' =>
        rw [Option.bind_some]
        by_cases hlater : poll.now.nanos ≤ t'
        · rw [if_pos hlater]
          refine iff_of_true (fun _ hv => nomatch hv) fun t _ t'' ht'' hless => ?_
          obtain rfl := Option.some.inj ht''
          omega
        rw [if_neg hlater]
        constructor
        · intro h t ht t'' ht'' _
          obtain rfl := Option.some.inj ht''
          exact ((div_minutesSince (hcounted.mpr ⟨t, ht⟩) _).mp ((h _ rfl).2 t ht)).symm
        · intro h v hv
          obtain rfl := Option.some.inj hv
          refine ⟨fun hzero => ?_, fun t ht => ?_⟩
          · rw [hzero, Int.cast_zero, zero_div]
          · rw [h t ht t' rfl (by omega)]
  · rw [hrate]
    exact iff_of_true (fun _ hv => nomatch hv) fun t ht => absurd hzero (hcounted.mpr ⟨t, ht⟩)

end Runs

/-- **The rate of slow executions.** Polls of an instance, any of which may fail, or be refused the statistics. A rate that is
reported is the number of slow executions counted by the minutes since the reading that they are counted from, if and only if
that was at the time of the last poll that succeeded. -/
theorem slow_rate_iff (p : Platform) {e : Engine} (target : Target) (endpoint : List UInt8) (pre : List (Poll e))
    (poll : Poll e) :
    RateLaw p pre ((Monitor.start target endpoint).after .exact p pre) poll ↔
      ∀ t, CountedSince p pre ((Monitor.start target endpoint).after .exact p pre) poll t →
        ∀ t', lastSuccess pre = some t' → t' < poll.now.nanos → t = t' :=
  rateLaw_iff (tracks_after endpoint)

/-! ## A reading that fails -/

/-- Two polls; the second reads the statistics, or is refused them. -/
def twoPolls (statements : Option (List StatRow)) : List (Poll .postgresql) :=
  [postgresPoll 0 (some (ordersRan 10 20000)), postgresPoll 1 statements]

/-- Two more executions, of three seconds each. -/
def thirdPoll : Poll .postgresql := postgresPoll 2 (some (ordersRan 12 26000))

def beforeThird (statements : Option (List StatRow)) : Monitor .postgresql :=
  (Monitor.start ordersDb []).after .exact plain (twoPolls statements)

/-- All statistics are read: two executions within a minute. -/
theorem slow_rate_read : RateLaw plain (twoPolls (some (ordersRan 10 20000)))
    (beforeThird (some (ordersRan 10 20000))) thirdPoll := by
  refine (slow_rate_iff plain ordersDb [] (twoPolls (some (ordersRan 10 20000))) thirdPoll).mpr ?_
  intro t hsince t' ht' _
  cases hsince with
  | statements hbefore _ _ =>
      obtain ⟨rfl, -⟩ := Prod.mk.inj (Option.some.inj hbefore)
      exact Option.some.inj ht'
  | commands hbefore _ _ => cases hbefore
  | entries hbefore _ => cases hbefore

/-- **A doubled rate.** The second poll is refused the statistics: the third counts the executions of two minutes, and divides
them by one. -/
theorem rate_doubled : (beforeThird none).counted plain thirdPoll = 2 ∧
    ((beforeThird none).collect .exact plain thirdPoll.outcome thirdPoll.now).1.metrics.slowQueriesPerMin = some 2 ∧
      CountedSince plain (twoPolls none) (beforeThird none) thirdPoll (noon 0).nanos ∧
        ¬ RateLaw plain (twoPolls none) (beforeThird none) thirdPoll := by
  have hcounted : (beforeThird none).counted plain thirdPoll = 2 := by decide +kernel
  have hrate : ((beforeThird none).collect .exact plain thirdPoll.outcome thirdPoll.now).1.metrics.slowQueriesPerMin =
    some 2 := by
    decide +kernel
  have hsince : CountedSince plain (twoPolls none) (beforeThird none) thirdPoll (noon 0).nanos := by
    have htracks : Tracks plain ordersDb (twoPolls none) (beforeThird none) := tracks_after []
    have hne : (beforeThird none).counted plain thirdPoll ≠ 0 := by rw [hcounted]; decide
    obtain ⟨before, hbefore, hslow⟩ := (counted_statistics htracks (statistics_postgresPoll 2 _)).mp hne
    obtain rfl : ((noon 0).nanos, ordersRan 10 20000) = before := Option.some.inj hbefore
    exact .statements hbefore (statistics_postgresPoll 2 _) hslow
  refine ⟨hcounted, hrate, hsince, fun h => ?_⟩
  have hvalue : (2 : ℚ) = ((2 : Int) : ℚ) / minutesSince (noon 0).nanos (noon 2).nanos := hcounted ▸ (h 2 hrate).2 _ hsince
  norm_num [minutesSince, noon] at hvalue

end IkelyaneMonitor.Agent.Db
