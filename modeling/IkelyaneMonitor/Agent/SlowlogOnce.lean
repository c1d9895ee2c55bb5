import IkelyaneMonitor.Agent.Databases

/-!
# Every entry of the slow log once

* `RedisLog` : the log of a server, with everything that was ever logged; `fetch` : the most recent entries;
* `Step`, `World`, `run` : a server that logs, is reset and restarts, and the agent that polls it, or fails to;
* `includes` : the entries that a poll aggregates (`aggregated_events`);
* `Inv` : what was included, and is still in the log, is not after the cursor; `inv_step`, `inv_run`;
* `logged_run` : what is logged without a reset or a restart, or a poll that reads the log;
* `slowlog_once` : no entry is included by two polls, none of the agent's own by any, and all others are that are logged
  between two polls, unless there are too many.
-/

namespace IkelyaneMonitor.Agent.Db
open Wire Replay

/-! ## The server -/

/-- An entry, and how many were logged before it. -/
structure Logged where
  serial : Nat
  entry : SlowlogEntry
  deriving DecidableEq

structure RedisLog where
  /-- The most recent one comes first. -/
  entries : List Logged := []
  nextId : Int := 0
  /-- All that was ever logged. -/
  history : List Logged := []

/-- A slow command. -/
structure SlowCommand where
  microseconds : Nat
  args : List (List UInt8)
  clientName : List UInt8

inductive Step where
  /-- The next id may leave some out. -/
  | logs (gap : Nat) (command : SlowCommand)
  | reset
  | restart
  /-- A poll that does not succeed. -/
  | fails (now : Instant) (known : Option Known)
  /-- A poll that succeeds, and may read the log or not. -/
  | polls (now : Instant) (a : RedisAnswers) (readable : Bool)

def RedisLog.fetch (log : RedisLog) : List Logged := log.entries.take redisSlowlogFetch

/-- The entry that is logged next. -/
def RedisLog.next (log : RedisLog) (gap : Nat) (command : SlowCommand) : Logged where
  serial := log.history.length
  entry := ⟨log.nextId + gap, command.microseconds, command.args, command.clientName⟩

/-- The log keeps `limit` entries. -/
def RedisLog.push (limit : Nat) (log : RedisLog) (gap : Nat) (command : SlowCommand) : RedisLog where
  entries := (log.next gap command :: log.entries).take limit
  nextId := log.nextId + gap + 1
  history := log.next gap command :: log.history

structure World where
  log : RedisLog
  monitor : Monitor .redis
  /-- What each of the polls has included that read the log. -/
  included : List (List Logged)

section Included
variable (m : Monitor .redis) (fetched : List Logged)

def ids : List Int := fetched.map fun l => l.entry.id

/-- The entries that are aggregated. -/
def includes : List Logged :=
  (m.resumesAt (ids fetched)).elim [] fun last => fetched.filter fun l => last < l.entry.id ∧ l.entry.command ≠ []

/-- They are those of the events that the agent groups by command. -/
theorem aggregated_events (fl : Rounding) : m.aggregated ((fetched.map Logged.entry).map (SlowlogEntry.event fl)) =
    ((includes m fetched).map Logged.entry).map (SlowlogEntry.event fl) := by
  have hids : ((fetched.map Logged.entry).map (SlowlogEntry.event fl)).map SlowlogEvent.id = ids fetched := by
    rw [List.map_map, List.map_map]
    rfl
  unfold Monitor.aggregated includes
  rw [hids]
  cases m.resumesAt (ids fetched) with
  | none => rfl
  | some last =>
      rw [Option.elim_some, Option.elim_some, List.map_map, List.map_map, List.filter_map]
      rfl

variable {m fetched} {l : Logged}

theorem mem_includes : l ∈ includes m fetched ↔ ∃ last, m.slowlogLastID = some last ∧ last ≤ maxID (ids fetched) ∧
    l ∈ fetched ∧ last < l.entry.id ∧ l.entry.command ≠ [] := by
  unfold includes Monitor.resumesAt
  cases m.slowlogLastID with
  | none => simp
  | some last =>
      by_cases h : last ≤ maxID (ids fetched)
      · simp [Option.filter_some, h]
      · simp [Option.filter_some, h]

theorem includes_sublist : (includes m fetched).Sublist fetched := by
  unfold includes
  cases m.resumesAt (ids fetched) with
  | none => exact List.nil_sublist _
  | some last => exact List.filter_sublist

end Included

/-! ## Runs -/

section Runs
variable (fl : Rounding) (p : Platform) (limit : Nat)

/-- What the poll of a step finds. -/
def outcomeOf (log : RedisLog) : Step → Option (Poll .redis)
  | .logs _ _ | .reset | .restart => none
  | .fails now known => some ⟨now, known.elim .unreachable .failed⟩
  | .polls now a readable =>
    some ⟨now, .answered ({ a with slowlog := if readable then some (log.fetch.map Logged.entry) else none } : RedisAnswers)⟩

def Step.reads : Step → Bool
  | .polls _ _ readable => readable
  | _ => false

/-- A reset leaves the ids, a restart does not. -/
def RedisLog.step (log : RedisLog) : Step → RedisLog
  | .logs gap command => log.push limit gap command
  | .reset => { log with entries := [] }
  | .restart => { log with entries := [], nextId := 0 }
  | .fails _ _ | .polls _ _ _ => log

def World.step (w : World) (s : Step) : World where
  log := w.log.step limit s
  monitor := (outcomeOf w.log s).elim w.monitor fun poll => (w.monitor.collect fl p poll.outcome poll.now).2
  included := if s.reads then w.included ++ [includes w.monitor w.log.fetch] else w.included

def World.run (w : World) (steps : List Step) : World := steps.foldl (World.step fl p limit) w

def World.start (target : Target) (endpoint : List UInt8) : World := ⟨{}, Monitor.start target endpoint, []⟩

variable {fl p limit} {w : World} {s : Step} {steps : List Step}

/-- The cursor follows the polls that read the log. -/
theorem cursor_step : (w.step fl p limit s).monitor.slowlogLastID =
    if s.reads then some (maxID (ids w.log.fetch)) else w.monitor.slowlogLastID := by
  cases s with
  | logs gap command => rfl
  | reset => rfl
  | restart => rfl
  | fails now known => exact slowlogLastID_collect.trans (by cases known <;> rfl)
  | polls now a readable =>
      refine slowlogLastID_collect.trans ?_
      cases readable with
      | false => rfl
      | true =>
          show some (maxID ((w.log.fetch.map Logged.entry).map SlowlogEntry.id)) = _
          rw [List.map_map]
          rfl

/-- The entries have decreasing ids, and what was included of them is not after the cursor. -/
structure Inv (limit : Nat) (w : World) : Prop where
  short : w.log.entries.length ≤ limit
  decreasing : w.log.entries.Pairwise fun a b => b.entry.id < a.entry.id
  below : ∀ l ∈ w.log.entries, l.entry.id < w.log.nextId
  nextId : 0 ≤ w.log.nextId
  logged : w.log.entries ⊆ w.log.history
  serial : ∀ l ∈ w.log.history, l.serial < w.log.history.length
  past : ∀ inc ∈ w.included, inc ⊆ w.log.history
  seen : ∀ inc ∈ w.included, ∀ l ∈ inc, l ∈ w.log.entries → ∃ last, w.monitor.slowlogLastID = some last ∧ l.entry.id ≤ last
  once : w.included.Pairwise fun inc inc' => ∀ l ∈ inc, l ∉ inc'
  nodup : ∀ inc ∈ w.included, inc.Nodup
  foreign : ∀ inc ∈ w.included, ∀ l ∈ inc, l.entry.clientName ≠ agentClientName

/-- The newest entry is among those that are fetched. -/
theorem le_fetch (h : Inv limit w) {l : Logged} (hl : l ∈ w.log.entries) : l.entry.id ≤ maxID (ids w.log.fetch) := by
  have hdecreasing := h.decreasing
  unfold RedisLog.fetch
  cases hentries : w.log.entries with
  | nil =>
      rw [hentries] at hl
      cases hl
  | cons newest older =>
      rw [hentries] at hl hdecreasing
      have hnewest : newest.entry.id ≤ maxID (ids ((newest :: older).take redisSlowlogFetch)) :=
        le_maxID (List.mem_map_of_mem (f := fun l : Logged => l.entry.id) List.mem_cons_self)
      rcases List.mem_cons.mp hl with rfl | hl
      · exact hnewest
      · exact ((List.pairwise_cons.mp hdecreasing).1 l hl).le.trans hnewest

theorem fetch_subset (log : RedisLog) : log.fetch ⊆ log.entries := List.take_subset _ _

theorem inv_push (h : Inv limit w) (gap : Nat) (command : SlowCommand) :
    Inv limit (w.step fl p limit (.logs gap command)) := by
  have hentry : ∀ l ∈ (w.log.push limit gap command).entries, l = w.log.next gap command ∨ l ∈ w.log.entries :=
    fun l hl => List.mem_cons.mp (List.mem_of_mem_take hl)
  have hnew : w.log.next gap command ∉ w.log.history := fun hmem => absurd (h.serial _ hmem) (lt_irrefl _)
  have hnextId := h.nextId
  refine ⟨?_, ?_, ?_, ?_, ?_, ?_, ?_, ?_, h.once, h.nodup, h.foreign⟩
  · exact (List.length_take_le _ _)
  · refine List.Pairwise.sublist (List.take_sublist _ _) (List.pairwise_cons.mpr ⟨fun l hl => ?_, h.decreasing⟩)
    have hbelow := h.below l hl
    show l.entry.id < w.log.nextId + gap
    omega
  · intro l hl
    show l.entry.id < w.log.nextId + gap + 1
    rcases hentry l hl with rfl | hl
    · show w.log.nextId + gap < w.log.nextId + gap + 1
      omega
    · have hbelow := h.below l hl
      omega
  · show 0 ≤ w.log.nextId + gap + 1
    omega
  · intro l hl
    rcases hentry l hl with rfl | hl
    · exact List.mem_cons_self
    · exact List.mem_cons_of_mem _ (h.logged hl)
  · intro l hl
    show l.serial < w.log.history.length + 1
    rcases List.mem_cons.mp hl with rfl | hl
    · exact Nat.lt_succ_self _
    · exact (h.serial l hl).trans (Nat.lt_succ_self _)
  · exact fun inc hinc l hl => List.mem_cons_of_mem _ (h.past inc hinc hl)
  · intro inc hinc l hl hentries
    rcases hentry l hentries with rfl | hentries
    · exact absurd (h.past inc hinc hl) hnew
    · exact h.seen inc hinc l hl hentries

/-- A log without entries. -/
theorem inv_cleared (h : Inv limit w) {nextId : Int} (hnextId : 0 ≤ nextId) :
    Inv limit { w with log := { w.log with entries := [], nextId := nextId } } where
  short := Nat.zero_le _
  decreasing := List.Pairwise.nil
  below := nofun
  nextId := hnextId
  logged := List.nil_subset _
  serial := h.serial
  past := h.past
  seen := fun _ _ _ _ hl => nomatch hl
  once := h.once
  nodup := h.nodup
  foreign := h.foreign

theorem inv_reads (h : Inv limit w) {now : Instant} {a : RedisAnswers} :
    Inv limit (w.step fl p limit (.polls now a true)) := by
  have hcursor : (w.step fl p limit (.polls now a true)).monitor.slowlogLastID = some (maxID (ids w.log.fetch)) := cursor_step
  have hincluded : ∀ inc, inc ∈ (w.step fl p limit (.polls now a true)).included →
      inc ∈ w.included ∨ inc = includes w.monitor w.log.fetch := by
    intro inc hinc
    exact (List.mem_append.mp hinc).imp_right List.mem_singleton.mp
  refine ⟨h.short, h.decreasing, h.below, h.nextId, h.logged, h.serial, ?_, ?_, ?_, ?_, ?_⟩
  · intro inc hinc
    rcases hincluded inc hinc with hinc | rfl
    · exact h.past inc hinc
    · exact fun l hl => h.logged (fetch_subset _ (includes_sublist.subset hl))
  · exact fun inc hinc l hl hentries => ⟨_, hcursor, le_fetch h hentries⟩
  · show (w.included ++ [includes w.monitor w.log.fetch]).Pairwise _
    refine List.pairwise_append.mpr ⟨h.once, List.pairwise_singleton _ _, ?_⟩
    intro inc hinc inc' hinc' l hl hl'
    obtain rfl := List.mem_singleton.mp hinc'
    obtain ⟨last, hlast, -, hfetched, hafter, -⟩ := mem_includes.mp hl'
    obtain ⟨last', hlast', hle⟩ := h.seen inc hinc l hl (fetch_subset _ hfetched)
    obtain rfl := Option.some.inj (hlast.symm.trans hlast')
    omega
  · intro inc hinc
    rcases hincluded inc hinc with hinc | rfl
    · exact h.nodup inc hinc
    · have hentries : w.log.entries.Nodup := h.decreasing.imp fun hlt heq => absurd (heq ▸ hlt) (lt_irrefl _)
      exact (hentries.sublist (List.take_sublist _ _)).sublist includes_sublist
  · intro inc hinc l hl
    rcases hincluded inc hinc with hinc | rfl
    · exact h.foreign inc hinc l hl
    · intro hagent
      obtain ⟨-, -, -, -, -, hcommand⟩ := mem_includes.mp hl
      exact hcommand (if_pos hagent)

/-- A poll that does not read the log. -/
theorem inv_monitor (h : Inv limit w) {m : Monitor .redis} (hm : m.slowlogLastID = w.monitor.slowlogLastID) :
    Inv limit { w with monitor := m } :=
  { h with seen := fun inc hinc l hl hentries => hm ▸ h.seen inc hinc l hl hentries }

theorem inv_step (h : Inv limit w) : Inv limit (w.step fl p limit s) := by
  cases s with
  | logs gap command => exact inv_push h gap command
  | reset => exact inv_cleared h h.nextId
  | restart => exact inv_cleared h le_rfl
  | fails now known =>
      have hcursor : (w.step fl p limit (.fails now known)).monitor.slowlogLastID = w.monitor.slowlogLastID := cursor_step
      exact inv_monitor h hcursor
  | polls now a readable =>
      cases readable with
      | false =>
          have hcursor : (w.step fl p limit (.polls now a false)).monitor.slowlogLastID = w.monitor.slowlogLastID :=
            cursor_step
          exact inv_monitor h hcursor
      | true => exact inv_reads h

theorem inv_start (target : Target) (endpoint : List UInt8) : Inv limit (World.start target endpoint) where
  short := Nat.zero_le _
  decreasing := List.Pairwise.nil
  below := nofun
  nextId := le_rfl
  logged := List.Subset.refl _
  serial := nofun
  past := nofun
  seen := nofun
  once := List.Pairwise.nil
  nodup := nofun
  foreign := nofun

theorem inv_run (h : Inv limit w) : Inv limit (w.run fl p limit steps) := by
  induction steps generalizing w with
  | nil => exact h
  | cons s steps ih => exact ih (inv_step h)

/-! ## What is logged between two polls -/

/-- Neither a reset or a restart nor a poll that reads the log. -/
def Step.Quiet (s : Step) : Prop := s.reads = false ∧ s ≠ .reset ∧ s ≠ .restart

def Step.isLogs : Step → Bool
  | .logs _ _ => true
  | _ => false

/-- From `w` to `w'` these entries were logged, the newest first. -/
structure Grown (limit : Nat) (w w' : World) (new : List Logged) : Prop where
  history : w'.log.history = new ++ w.log.history
  entries : w'.log.entries = (new ++ w.log.entries).take limit
  after : ∀ l ∈ new, w.log.nextId ≤ l.entry.id
  nextId : w.log.nextId ≤ w'.log.nextId
  cursor : w'.monitor.slowlogLastID = w.monitor.slowlogLastID

theorem logged_run (fl : Rounding) (p : Platform) (h : Inv limit w) (hquiet : ∀ s ∈ steps, s.Quiet) :
    ∃ new, Grown limit w (w.run fl p limit steps) new ∧ new.length = steps.countP Step.isLogs := by
  induction steps using List.reverseRecOn with
  | nil => exact ⟨[], ⟨rfl, (List.take_of_length_le h.short).symm, nofun, le_rfl, rfl⟩, rfl⟩
  | append_singleton steps s ih =>
      obtain ⟨new, hgrown, hlength⟩ := ih fun s hs => hquiet s (List.mem_append_left _ hs)
      obtain ⟨hreads, hreset, hrestart⟩ := hquiet s (List.mem_append_right _ List.mem_cons_self)
      have hrun : w.run fl p limit (steps ++ [s]) = (w.run fl p limit steps).step fl p limit s := by
        rw [World.run, List.foldl_append]
        rfl
      have hcursor : ((w.run fl p limit steps).step fl p limit s).monitor.slowlogLastID = w.monitor.slowlogLastID := by
        rw [cursor_step, hreads]
        exact hgrown.cursor
      rw [hrun, List.countP_append, List.countP_singleton]
      generalize w.run fl p limit steps = w' at hgrown hcursor ⊢
      cases s with
      | logs gap command =>
          refine ⟨w'.log.next gap command :: new, ⟨?_, ?_, ?_, ?_, hcursor⟩, ?_⟩
          · exact congrArg (List.cons _) hgrown.history
          · show (w'.log.next gap command :: w'.log.entries).take limit = _
            rw [hgrown.entries]
            cases limit with
            | zero => rfl
            | succ n => simp [List.take_take]
          · intro l hl
            rcases List.mem_cons.mp hl with rfl | hl
            · have hnextId := hgrown.nextId
              show w.log.nextId ≤ w'.log.nextId + gap
              omega
            · exact hgrown.after l hl
          · have hnextId := hgrown.nextId
            show w.log.nextId ≤ w'.log.nextId + gap + 1
            omega
          · rw [List.length_cons, hlength]
            rfl
      | reset => exact absurd rfl hreset
      | restart => exact absurd rfl hrestart
      | fails now known => exact ⟨new, ⟨hgrown.history, hgrown.entries, hgrown.after, hgrown.nextId, hcursor⟩, hlength⟩
      | polls now a readable => exact ⟨new, ⟨hgrown.history, hgrown.entries, hgrown.after, hgrown.nextId, hcursor⟩, hlength⟩

/-- What was logged since the cursor is included, if all of it is fetched. -/
theorem included_of_grown {w' : World} {new : List Logged} (h : Inv limit w) (hgrown : Grown limit w w' new)
    (hcursor : w.monitor.slowlogLastID = some (maxID (ids w.log.fetch))) (hfew : new.length ≤ min redisSlowlogFetch limit)
    {l : Logged} (hl : l ∈ new) (hcommand : l.entry.command ≠ []) : l ∈ includes w'.monitor w'.log.fetch := by
  have hfetched : l ∈ w'.log.fetch := by
    rw [RedisLog.fetch, hgrown.entries, List.take_take, List.take_append, List.take_of_length_le hfew]
    exact List.mem_append_left _ hl
  have hbefore : maxID (ids w.log.fetch) < l.entry.id := by
    have hafter := hgrown.after l hl
    have hnextId := h.nextId
    have hle : maxID (ids w.log.fetch) ≤ w.log.nextId - 1 := by
      refine maxID_le_iff.mpr ⟨by omega, fun id hid => ?_⟩
      obtain ⟨l', hl', rfl⟩ := List.mem_map.mp hid
      have hbelow := h.below l' (fetch_subset _ hl')
      omega
    omega
  refine mem_includes.mpr ⟨_, hgrown.cursor.trans hcursor, ?_, hfetched, hbefore, hcommand⟩
  exact hbefore.le.trans (le_maxID (List.mem_map_of_mem (f := fun l : Logged => l.entry.id) hfetched))

/-- A command that names itself in capital letters, digits and `_-.|`. -/
def Named (entry : SlowlogEntry) : Prop := ∃ name args, entry.args = name :: args ∧ isKeyword (toUpper name) = true

theorem command_ne {entry : SlowlogEntry} (hforeign : entry.clientName ≠ agentClientName) (hnamed : Named entry) :
    entry.command ≠ [] := by
  obtain ⟨name, args, hargs, hkeyword⟩ := hnamed
  rw [SlowlogEntry.command, if_neg hforeign, hargs]
  exact redisCommandName_ne.mpr hkeyword

end Runs

/-- **Every entry once.** In every run of a server that logs, is reset and restarts, and of an agent that polls it or fails
to, no entry is included by two polls, or twice by one, and none of the agent's own is included. What others log by name
between two polls that read the log, without a reset or a restart, is included by the second of them, as long as it does not
exceed what is fetched or what the log keeps. -/
theorem slowlog_once (fl : Rounding) (p : Platform) (limit : Nat) (target : Target) (endpoint : List UInt8)
    (pre : List Step) :
    let w := (World.start target endpoint).run fl p limit pre
    (w.included.Pairwise fun inc inc' => ∀ l ∈ inc, l ∉ inc') ∧
      (∀ inc ∈ w.included, inc.Nodup ∧ ∀ l ∈ inc, l.entry.clientName ≠ agentClientName) ∧
        ∀ now a quiet now' a', (∀ s ∈ quiet, Step.Quiet s) → quiet.countP Step.isLogs ≤ min redisSlowlogFetch limit →
          let w₁ := w.step fl p limit (.polls now a true)
          let w₂ := w₁.run fl p limit quiet
          ∃ inc, (w₂.step fl p limit (.polls now' a' true)).included = w₂.included ++ [inc] ∧
            ∀ l ∈ w₂.log.history, l ∉ w₁.log.history → l.entry.clientName ≠ agentClientName → Named l.entry → l ∈ inc := by
  intro w
  have hinv : Inv limit w := inv_run (inv_start target endpoint)
  refine ⟨hinv.once, fun inc hinc => ⟨hinv.nodup inc hinc, hinv.foreign inc hinc⟩, ?_⟩
  intro now a quiet now' a' hquiet hfew w₁ w₂
  have hinv₁ : Inv limit w₁ := inv_step hinv
  have hcursor : w₁.monitor.slowlogLastID = some (maxID (ids w₁.log.fetch)) := cursor_step
  obtain ⟨new, hgrown, hlength⟩ := logged_run fl p hinv₁ hquiet
  refine ⟨includes w₂.monitor w₂.log.fetch, rfl, fun l hl hold hforeign hnamed => ?_⟩
  have hnew : l ∈ new := by
    rw [hgrown.history] at hl
    exact (List.mem_append.mp hl).resolve_right hold
  exact included_of_grown hinv₁ hgrown hcursor (hlength ▸ hfew) hnew (command_ne hforeign hnamed)

/-! ## One command -/

def keysCommand (clientName : String) : SlowCommand :=
  ⟨30000, [utf8 "keys".toList, utf8 "user:*".toList], utf8 clientName.toList⟩

/-- `INFO`, as far as it is needed. -/
def redisFields : RedisAnswers where
  version := utf8 "7.4.1".toList
  valkeyVersion := []
  role := "master"
  maxclients := none
  connectedClients := none
  usedMemory := none
  maxmemory := none
  keyspaceHits := none
  keyspaceMisses := none
  totalCommandsProcessed := none
  slowlog := none

def cacheDb : Target := ⟨utf8 "cache".toList, 10, by decide⟩

/-- A poll that reads the log, at a minute. -/
def pollAt (minute : Nat) : Step := .polls (noon minute) redisFields true

/-- The application's command is logged and polled, then once more after the log was emptied, and the server restarts. -/
def resetAndRestart : List Step :=
  [pollAt 0, .logs 0 (keysCommand "web"), pollAt 1, .reset, .logs 0 (keysCommand "web"), pollAt 2, .restart]

/-- The same command once more, and one of the agent's. -/
def restarted : List Step := [.logs 0 (keysCommand "web"), .logs 0 (keysCommand "ikelyane-agent")]

/-- The command as it was logged at some point, under some id. -/
def keysLogged (serial : Nat) (id : Int) : Logged :=
  ⟨serial, ⟨id, 30000, [utf8 "keys".toList, utf8 "user:*".toList], utf8 "web".toList⟩⟩

def polledAfter : World := ((World.start cacheDb []).run .exact plain 128 resetAndRestart).step .exact plain 128 (pollAt 3)

/-- Two entries have the first id, one before the restart and one after it: each is included by one poll. -/
theorem slowlog_once_restart : ∃ inc,
    ((polledAfter.run .exact plain 128 restarted).step .exact plain 128 (pollAt 4)).included =
        [[], [keysLogged 0 0], [keysLogged 1 1], [], inc] ∧
      keysLogged 2 0 ∈ inc ∧ keysLogged 0 0 ∉ inc := by
  have hquiet : ∀ s ∈ restarted, s.Quiet := by
    intro s hs
    rcases List.mem_pair.mp hs with rfl | rfl
    · exact ⟨rfl, nofun, nofun⟩
    · exact ⟨rfl, nofun, nofun⟩
  obtain ⟨inc, hinc, hall⟩ := (slowlog_once .exact plain 128 cacheDb [] resetAndRestart).2.2 (noon 3) redisFields restarted
    (noon 4) redisFields hquiet (by decide)
  have hbefore : (polledAfter.run .exact plain 128 restarted).included =
      [[], [keysLogged 0 0], [keysLogged 1 1], []] := by decide +kernel
  have hincluded : ((polledAfter.run .exact plain 128 restarted).step .exact plain 128 (pollAt 4)).included =
      [[], [keysLogged 0 0], [keysLogged 1 1], [], inc] := hinc.trans (congrArg (· ++ [inc]) hbefore)
  have honce := (slowlog_once .exact plain 128 cacheDb [] (resetAndRestart ++ [pollAt 3] ++ restarted ++ [pollAt 4])).1
  refine ⟨inc, hincluded, hall (keysLogged 2 0) (by decide +kernel) (by decide +kernel) (by decide +kernel) ?_, ?_⟩
  · exact ⟨_, _, rfl, by decide +kernel⟩
  · have hpairwise : [[], [keysLogged 0 0], [keysLogged 1 1], [], inc].Pairwise fun inc inc' => ∀ l ∈ inc, l ∉ inc' := by
      rw [← hincluded]
      exact honce
    simp only [List.pairwise_cons] at hpairwise
    exact hpairwise.2.1 inc (by simp) _ (List.mem_singleton.mpr rfl)

end IkelyaneMonitor.Agent.Db
