import IkelyaneMonitor.Agent.SlowQueries

/-!
# The slow log of Redis (`agent/internal/dbmetrics/redis.go`)

* `redisCommandName` : the command of an entry, without its arguments;
* `slowlogDeltas` : the events after the cursor, `aggregated` by command;
* `redisSlowlog` : from the entries that were read to the events.
-/

namespace IkelyaneMonitor.Agent.Db
open Wire Replay

/-! ## Names of commands -/

/-- `strings.ToUpper` where the result is ASCII, with the two characters outside it that have their upper case there: dotless
i and long s. Other bytes stay, and are in no keyword. -/
def toUpper : List UInt8 → List UInt8
  | [] => []
  | 0xC4 :: 0xB1 :: rest => 0x49 :: toUpper rest
  | 0xC5 :: 0xBF :: rest => 0x53 :: toUpper rest
  | b :: rest => (if 0x61 ≤ b ∧ b ≤ 0x7A then b - 0x20 else b) :: toUpper rest

/-- Capital letters, digits and `_-.|`. -/
def isKeywordByte (b : UInt8) : Bool :=
  (0x41 ≤ b && b ≤ 0x5A) || (0x30 ≤ b && b ≤ 0x39) || b == 0x5F || b == 0x2D || b == 0x2E || b == 0x7C

def isKeyword (s : List UInt8) : Bool := s ≠ [] && s.length ≤ 32 && s.all isKeywordByte

def redisContainerCommands : List (List UInt8) :=
  ["ACL", "CLIENT", "CLUSTER", "COMMAND", "CONFIG", "DEBUG", "FUNCTION", "LATENCY", "MEMORY", "MODULE", "OBJECT", "PUBSUB",
    "SCRIPT", "SLOWLOG", "XGROUP", "XINFO"].map fun name => utf8 name.toList

/-- With the subcommand of a container command. -/
def withSubcommand (name : List UInt8) : (args : List (List UInt8)) → List UInt8
  | sub :: _ => if name ∈ redisContainerCommands ∧ isKeyword (toUpper sub) then name ++ 0x20 :: toUpper sub else name
  | [] => name

def redisCommandName : (args : List (List UInt8)) → List UInt8
  | [] => []
  | name :: args => if ¬ isKeyword (toUpper name) then [] else withSubcommand (toUpper name) args

example : redisCommandName (["config", "get", "maxmemory"].map fun arg => utf8 arg.toList) =
    utf8 "CONFIG GET".toList := by decide
example : redisCommandName (["not a command!", "x"].map fun arg => utf8 arg.toList) = [] := by decide

theorem redisCommandName_ne {name : List UInt8} {args : List (List UInt8)} :
    redisCommandName (name :: args) ≠ [] ↔ isKeyword (toUpper name) = true := by
  rw [redisCommandName]
  split
  · rename_i hkey
    exact iff_of_false (fun hne => hne rfl) hkey
  · rename_i hkey
    rw [not_not] at hkey
    refine iff_of_true ?_ hkey
    have hne : toUpper name ≠ [] := by
      intro hnil
      rw [hnil] at hkey
      cases hkey
    unfold withSubcommand
    split
    · split
      · exact List.append_ne_nil_of_left_ne_nil hne _
      · exact hne
    · exact hne

/-! ## The events of a poll -/

def agentClientName : List UInt8 := utf8 "ikelyane-agent".toList

def redisSlowlogFetch : Nat := 128

/-- What `SLOWLOG GET` says of an entry. -/
structure SlowlogEntry where
  id : Int
  microseconds : Nat
  args : List (List UInt8)
  clientName : List UInt8
  deriving DecidableEq

structure SlowlogEvent where
  id : Int
  durationMs : ℚ
  command : List UInt8
  deriving DecidableEq

section Slowlog
variable (fl : Rounding) (order : AnyOrder (List UInt8 × List ℚ)) {engine : Engine} (m : Monitor engine)

/-- The agent's own commands have no name, but move the cursor. -/
def SlowlogEntry.command (e : SlowlogEntry) : List UInt8 :=
  if e.clientName = agentClientName then [] else redisCommandName e.args

def SlowlogEntry.event (e : SlowlogEntry) : SlowlogEvent where
  id := e.id
  durationMs := fl.round (fl.round e.microseconds / 1000)
  command := e.command

def maxID (ids : List Int) : Int := ids.foldl max (-1)

/-- The cursor is of the same log: neither unset nor ahead of every id. -/
def Monitor.resumesAt (ids : List Int) : Option Int := m.slowlogLastID.filter fun last => last ≤ maxID ids

/-- The events that the loop aggregates. -/
def Monitor.aggregated (events : List SlowlogEvent) : List SlowlogEvent :=
  (m.resumesAt (events.map SlowlogEvent.id)).elim [] fun last => events.filter fun e => last < e.id ∧ e.command ≠ []

/-- `a.totalMs / float64(a.calls)`. -/
def meanMs (durations : List ℚ) : ℚ :=
  fl.round (durations.foldl (fun totalMs d => fl.round (totalMs + d)) 0 / fl.round durations.length)

def commandQuery (now : Instant) (group : List UInt8 × List ℚ) : SlowQuery where
  capturedAt := now.format
  fingerprint := utf8 "redis:".toList ++ group.1
  queryText := group.1 ++ utf8 " …".toList
  durationMs := meanMs fl group.2
  calls := clampCalls group.2.length

/-- `sort.Slice(out, …)`: the slowest first. -/
def slowestFirst (out : List SlowQuery) : List SlowQuery := out.mergeSort fun a b => b.durationMs ≤ a.durationMs

/-- The commands that are slow on average, with the durations of their events. -/
def Monitor.slowCommands (events : List SlowlogEvent) : List (List UInt8 × List ℚ) :=
  (order.visit (groupBy SlowlogEvent.command SlowlogEvent.durationMs (m.aggregated events))).filter fun group =>
    m.thresholdMs fl ≤ meanMs fl group.2

/-- The number of members of the groups. -/
def sizes {κ β : Type} (groups : List (κ × List β)) : Int := (groups.map fun group => (group.2.length : Int)).sum

def Monitor.slowlogDeltas (events : List SlowlogEvent) (now : Instant) : (List SlowQuery × Option ℚ) × Monitor engine :=
  let seeded := { m with slowlogLastID := some (maxID (events.map SlowlogEvent.id)) }
  if (m.resumesAt (events.map SlowlogEvent.id)).isNone then (([], none), seeded)
  else
    ((slowestFirst ((m.slowCommands fl order events).map (commandQuery fl now)),
      m.perMinute fl (sizes (m.slowCommands fl order events)) now), seeded)

/-- `none` when the log may not be read. -/
def Monitor.redisSlowlog (entries : Option (List SlowlogEntry)) (now : Instant) :
    (List SlowQuery × Option ℚ) × Monitor engine :=
  match entries with
  | none => (([], none), m)
  | some entries => m.slowlogDeltas fl order (entries.map (SlowlogEntry.event fl)) now

end Slowlog

/-! ## The cursor -/

theorem maxID_le_iff {ids : List Int} {n : Int} : maxID ids ≤ n ↔ -1 ≤ n ∧ ∀ id ∈ ids, id ≤ n := by
  have hstart : ∀ start, ids.foldl max start ≤ n ↔ start ≤ n ∧ ∀ id ∈ ids, id ≤ n := by
    induction ids with
    | nil => simp
    | cons id ids ih =>
        intro start
        rw [List.foldl_cons, ih, max_le_iff, List.forall_mem_cons, and_assoc]
  exact hstart (-1)

theorem le_maxID {ids : List Int} {id : Int} (h : id ∈ ids) : id ≤ maxID ids := (maxID_le_iff.mp le_rfl).2 id h

end IkelyaneMonitor.Agent.Db
