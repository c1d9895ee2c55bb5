import IkelyaneMonitor.Agent.Slowlog
import IkelyaneMonitor.Replay.Pages

/-!
# The profiler of MongoDB (`agent/internal/dbmetrics/mongodb.go`)

* `Bson` : a command as the driver decodes it; `redactShape` : its structure, without the values;
* `Profile` : the profiler's collection of a database; `readProfile` : one database, from its cursor;
* `readProfiles` : the databases of a poll; `mongoSlowOps` : what they say, by shape.

The other Go types that stand for a document or an array are left out: the decoder makes none of them inside a command.
-/

namespace IkelyaneMonitor.Agent.Db
open Wire Replay

/-! ## The shape of a command -/

inductive Bson where
  | document (fields : List (List UInt8 × Bson))
  | array (items : List Bson)
  | scalar (value : List UInt8)

/-- Fields of the session and of the transport. -/
def mongoIgnoredFields : List (List UInt8) :=
  ["lsid", "$clusterTime", "$db", "$readPreference", "txnNumber", "autocommit", "startTransaction", "comment", "maxTimeMS",
    "writeConcern", "readConcern", "apiVersion", "apiStrict", "apiDeprecationErrors", "shardVersion", "databaseVersion",
    "$audit", "$client", "mayBypassWriteBlocking", "cursor"].map fun field => utf8 field.toList

def maxShapeDepth : Nat := 12

/-- Letters, digits and `_$.-`. -/
def isFieldByte (b : UInt8) : Bool :=
  b == 0x5F || b == 0x24 || b == 0x2E || b == 0x2D || (0x61 ≤ b && b ≤ 0x7A) || (0x41 ≤ b && b ≤ 0x5A) ||
    (0x30 ≤ b && b ≤ 0x39)

def isFieldName (s : List UInt8) : Bool := s ≠ [] && s.length ≤ 64 && s.all isFieldByte

/-- `strconv.Quote` of what has nothing to escape. -/
def quote (s : List UInt8) : List UInt8 := 0x22 :: s ++ [0x22]

def hidden : List UInt8 := quote (utf8 "?".toList)

def cutOff : List UInt8 := quote (utf8 "…".toList)

def writeKey (key : List UInt8) : List UInt8 := if isFieldName key then quote key else hidden

def comma : List UInt8 := [0x2C]

mutual

def writeShape (depth : Nat) (top : Bool) : Bson → List UInt8
  | .document fields =>
    if maxShapeDepth < depth then cutOff else 0x7B :: comma.intercalate (writeFields depth top fields) ++ [0x7D]
  | .array [] => if maxShapeDepth < depth then cutOff else [0x5B, 0x5D]
  | .array (first :: rest) =>
    if maxShapeDepth < depth then cutOff
    else 0x5B :: writeShape (depth + 1) false first ++ (if rest = [] then [] else comma ++ cutOff) ++ [0x5D]
  | .scalar _ => if maxShapeDepth < depth then cutOff else hidden

def writeFields (depth : Nat) (top : Bool) : List (List UInt8 × Bson) → List (List UInt8)
  | [] => []
  | (key, value) :: fields =>
    if top ∧ key ∈ mongoIgnoredFields then writeFields depth top fields
    else (writeKey key ++ 0x3A :: writeShape (depth + 1) false value) :: writeFields depth top fields

end

def redactShape (command : List (List UInt8 × Bson)) : List UInt8 := writeShape 0 true (.document command)

example :
    redactShape [(utf8 "insert".toList, .scalar []), (utf8 "lsid".toList, .document []),
      (utf8 "documents".toList, .array [.document [(utf8 "a b".toList, .scalar [])], .scalar []])] =
      utf8 "\x7b\"insert\":\"?\",\"documents\":[\x7b\"?\":\"?\"\x7d,\"…\"]\x7d".toList := by decide

/-! ## The profiler of a database -/

def mongoProfileMaxDatabases : Nat := 50

def mongoProfileMaxEntries : Nat := 200

structure ProfileEntry where
  op : List UInt8
  ns : List UInt8
  command : List (List UInt8 × Bson)
  millis : ℚ
  docsExamined : Int
  nReturned : Int
  /-- Milliseconds. -/
  ts : Int

/-- A document of `system.profile`, with its place in the collection and the one field that is only asked about. -/
structure ProfileDoc where
  recordId : Nat
  entry : ProfileEntry
  appName : Option (List UInt8)

/-- The collection when it is read, and how documents follow each other that sort alike. -/
structure Profile where
  stored : List ProfileDoc
  distinct : (stored.map ProfileDoc.recordId).Nodup
  order : AnyOrder ProfileDoc

def ProfileDoc.ts (doc : ProfileDoc) : Int := doc.entry.ts

/-- The time of no document: the first of January of the year 1. -/
def zeroTs : Int := -62135596800000

/-- `FindOne` from the end. -/
def Profile.newest (p : Profile) : Int := ((p.stored.map ProfileDoc.ts).max?).getD zeroTs

/-- The conditions on `millis` and on `appName`. -/
def ProfileDoc.slow (thresholdMs : Int) (doc : ProfileDoc) : Bool :=
  thresholdMs ≤ doc.entry.millis && doc.appName ≠ some agentClientName

/-- `Find` with its filter, in the order of `ts` and with its limit. -/
def Profile.find (p : Profile) (thresholdMs last : Int) : List ProfileDoc :=
  ((p.order.visit (p.stored.filter fun doc => last < doc.ts ∧ doc.slow thresholdMs)).mergeSort fun a b => a.ts ≤ b.ts).take
    mongoProfileMaxEntries

/-- One database: its cursor afterwards, and what was read. A database that may not be read is passed over; the first time
there is only a cursor. -/
def readProfile (thresholdMs : Int) (cursor : Option Int) : Option Profile → Option Int × List ProfileDoc
  | none => (cursor, [])
  | some p =>
    match cursor with
    | none => (some p.newest, [])
    | some last =>
      (some (advance ProfileDoc.ts last (p.find thresholdMs last)), p.find thresholdMs last)

/-! ## The databases of a poll -/

/-- The databases of an instance. -/
structure Listing where
  totalSize : Int
  names : List (List UInt8)
  distinct : names.Nodup

/-- `sort.Strings`, and the guard of the loop. -/
def polledDatabases (databases : List (List UInt8)) : List (List UInt8) :=
  ((databases.mergeSort fun a b => a ≤ b).filter fun name =>
    name ≠ utf8 "local".toList ∧ name ≠ utf8 "config".toList).take mongoProfileMaxDatabases

/-- The database and a document of it. -/
abbrev Read : Type := List UInt8 × ProfileDoc

/-- The loop: the cursors, and what was read of each database. -/
def readProfiles (thresholdMs : Int) (profiles : List UInt8 → Option Profile) (databases : List (List UInt8))
    (seen : List UInt8 → Option Int) : (List UInt8 → Option Int) × List Read :=
  databases.foldl (fun acc name =>
    let r := readProfile thresholdMs (acc.1 name) (profiles name)
    (fun n => if n = name then r.1 else acc.1 n, acc.2 ++ r.2.map fun doc => (name, doc))) (seen, [])

def queryText (e : ProfileEntry) : List UInt8 :=
  truncateUTF8 (e.ns ++ 0x20 :: e.op ++ 0x20 :: redactShape e.command) maxQueryTextBytes

/-- What Go leaves open and its library computes: the hash, and the order of a map. -/
structure Grouping where
  sha256 : List UInt8 → List UInt8
  order : AnyOrder (List UInt8 × List Read)

section SlowOps
variable (fl : Rounding) (g : Grouping) {engine : Engine} (m : Monitor engine)

/-- The fingerprint of a shape. -/
def Grouping.id (read : Read) : List UInt8 :=
  utf8 ("mongo:".toList ++ hexEncode ((g.sha256 (queryText read.2.entry)).take 16))

/-- A group is under the database and the text of the first of its entries. -/
def groupQuery (now : Instant) (group : List UInt8 × List Read) : SlowQuery where
  capturedAt := now.format
  fingerprint := group.1
  queryText := (group.2.head?.map fun read => queryText read.2.entry).getD []
  databaseName := truncateUTF8 ((group.2.head?.map Prod.fst).getD []) 128
  durationMs := meanMs fl (group.2.map fun read => read.2.entry.millis)
  calls := clampCalls group.2.length
  rowsExamined := some ((group.2.map fun (read : Read) => max read.2.entry.docsExamined 0).sum.toNat)
  rowsReturned := some ((group.2.map fun (read : Read) => max read.2.entry.nReturned 0).sum.toNat)

def Monitor.mongoSlowOps (profiles : List UInt8 → Option Profile) (databases : List (List UInt8)) (now : Instant) :
    (List SlowQuery × Option ℚ) × Monitor engine :=
  let r := readProfiles m.target.slowQueryThresholdMs profiles (polledDatabases databases) m.profileSeen
  let groups := g.order.visit (groupBy g.id (fun read => read) r.2)
  (((slowestFirst (groups.map (groupQuery fl now))).take 25,
    m.perMinute fl (sizes groups) now), { m with profileSeen := r.1 })

end SlowOps

end IkelyaneMonitor.Agent.Db
