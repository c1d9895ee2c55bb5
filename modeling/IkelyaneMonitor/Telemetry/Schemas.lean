import Mathlib.Algebra.Order.Ring.Rat
import Mathlib.Data.Rat.Cast.Order
import IkelyaneMonitor.Agent.Sample
import IkelyaneMonitor.Text
import IkelyaneMonitor.Wire.Schema
import IkelyaneMonitor.Wire.Time

/-!
# Schemas of the samples (`lib/telemetry/schemas.ts`)

* the primitives : `timestamp`, `percent`, `ratio`, `nonNegative`, `bytes`, `shortText`, `longText`, `counter`;
* `systemMetricsSchema` : the field `system`; `snmpDeviceSchema`, `databaseMetricSchema` : an entry of `snmpDevices`, of
  `databases`;
* one lemma per primitive on what it takes;
* `Blank` : a text of white space; the fields of the agent that a schema takes.

A number is what its text says. The reader's rounding to 53 bits is in order and keeps the bounds, which are whole numbers of
at most 53 bits, so it does not move a number over one of them. Which texts are addresses is a parameter.
-/

namespace IkelyaneMonitor.Telemetry
open Wire

/-! ## Primitives -/

/-- `Number.MAX_SAFE_INTEGER`. -/
def maxSafeInteger : Nat := 2 ^ 53 - 1

/-- `z.number().int().min(low).max(high)`. -/
def whole (low high : Int) : Schema ℚ := .number fun q => q.isInt && decide (low ≤ q) && decide (q ≤ high)

/-- `z.number().min(low).max(high)`. -/
def within (low high : ℚ) : Schema ℚ := .number fun q => decide (low ≤ q) && decide (q ≤ high)

/-- `z.string().trim().min(low).max(high)`, in UTF-16 units. -/
def trimmed (low high : Nat) : Schema ℚ :=
  .string fun text => decide (low ≤ units (trimWith Text.isSpace text)) && decide (units (trimWith Text.isSpace text) ≤ high)

/-- `z.string().max(high)`. -/
def text (high : Nat) : Schema ℚ := .string fun text => decide (units text ≤ high)

/-- `z.enum`. -/
def oneOf (values : List String) : Schema ℚ := .string fun text => values.any fun value => value.toList == text

def timestamp : Schema ℚ := .string isDatetime
def percent : Schema ℚ := within 0 100
def ratio : Schema ℚ := within 0 1
def nonNegative : Schema ℚ := .number fun q => decide (0 ≤ q)
def bytes : Schema ℚ := whole 0 maxSafeInteger
def shortText : Schema ℚ := trimmed 1 255
def longText : Schema ℚ := text 2000
def counter : Schema ℚ := whole 0 maxSafeInteger

/-! ## Hosts -/

def osFamilies : List String := ["windows", "linux", "macos", "unix", "other"]

def cpuSchema : Schema ℚ :=
  .object
    [("usagePercent", percent),
      ("loadAverage1m", .optional nonNegative)]

def memorySchema : Schema ℚ :=
  .object
    [("usedPercent", .optional percent),
      ("usedBytes", .optional bytes),
      ("swapUsedPercent", .optional percent)]

def diskSchema : Schema ℚ :=
  .object
    [("mount", trimmed 1 255),
      ("device", .optional (trimmed 1 128)),
      ("usedPercent", .optional percent),
      ("usedBytes", .optional bytes),
      ("readIops", .optional nonNegative),
      ("writeIops", .optional nonNegative),
      ("readBps", .optional nonNegative),
      ("writeBps", .optional nonNegative)]

def networkSchema : Schema ℚ :=
  .object
    [("name", trimmed 1 128),
      ("inBps", nonNegative),
      ("outBps", nonNegative)]

def temperatureSchema : Schema ℚ :=
  .object
    [("sensor", trimmed 1 128),
      ("celsius", within (-100) 300)]

section Hosts
variable (isIp : List Char → Bool)

def hostInventorySchema : Schema ℚ :=
  .object
    [("osFamily", oneOf osFamilies),
      ("osName", .optional shortText),
      ("osVersion", .optional shortText),
      ("kernelVersion", .optional shortText),
      ("arch", .optional (trimmed 1 32)),
      ("cpuModel", .optional shortText),
      ("cpuCores", .optional (whole 1 4096)),
      ("cpuThreads", .optional (whole 1 8192)),
      ("cpuFrequencyMhz", .optional (whole 1 20000)),
      ("memoryTotalBytes", .optional bytes),
      ("diskTotalBytes", .optional bytes),
      ("ipAddresses", .optional (.array 32 (.string isIp))),
      ("macAddress", .optional (trimmed 0 64)),
      ("virtualization", .optional (trimmed 0 64)),
      ("cloudProvider", .optional (trimmed 0 64)),
      ("cloudRegion", .optional (trimmed 0 64)),
      ("agentVersion", .optional (trimmed 0 64))]

def systemMetricsSchema : Schema ℚ :=
  .object
    [("collectedAt", timestamp),
      ("inventory", .optional (hostInventorySchema isIp)),
      ("cpu", .optional cpuSchema),
      ("memory", .optional memorySchema),
      ("disks", .optional (.array 64 diskSchema)),
      ("network", .optional (.array 64 networkSchema)),
      ("processCount", .optional (whole 0 10000000)),
      ("uptimeSeconds", .optional nonNegative),
      ("temperatures", .optional (.array 64 temperatureSchema)),
      ("powerWatts", .optional (within 0 1000000))]

end Hosts

/-! ## Network devices -/

def deviceTypes : List String := ["router", "switch", "firewall", "ap", "ups", "bmc", "other"]
def operStatuses : List String := ["up", "down", "testing", "unknown"]
def snmpVersions : List String := ["v1", "v2c", "v3"]

def snmpInterfaceSchema : Schema ℚ :=
  .object
    [("ifIndex", whole 0 2147483647),
      ("name", shortText),
      ("alias", .optional (trimmed 0 255)),
      ("description", .optional (trimmed 0 255)),
      ("macAddress", .optional (trimmed 0 64)),
      ("speedMbps", .optional (whole 0 100000000)),
      ("mtu", .optional (whole 0 65535)),
      ("adminStatus", .optional (oneOf operStatuses)),
      ("operStatus", oneOf operStatuses),
      ("inBps", nonNegative),
      ("outBps", nonNegative),
      ("utilizationPercent", .optional percent),
      ("packetLossPercent", .optional percent),
      ("inErrors", .optional counter),
      ("outErrors", .optional counter),
      ("crcErrors", .optional counter),
      ("inDiscards", .optional counter),
      ("outDiscards", .optional counter),
      ("errorsPerSec", .optional nonNegative),
      ("crcErrorsPerSec", .optional nonNegative),
      ("lastChangeAt", .optional timestamp)]

section Snmp
variable (isIp : List Char → Bool)

/-- The field `device`. -/
def snmpDeviceInfoSchema : Schema ℚ :=
  .object
    [("ipAddress", .string isIp),
      ("name", .optional shortText),
      ("type", .optional (oneOf deviceTypes)),
      ("vendor", .optional shortText),
      ("model", .optional shortText),
      ("firmwareVersion", .optional shortText),
      ("serialNumber", .optional shortText),
      ("sysName", .optional shortText),
      ("sysDescr", .optional longText),
      ("sysLocation", .optional shortText),
      ("sysContact", .optional shortText),
      ("uptimeSeconds", .optional nonNegative),
      ("snmpVersion", .optional (oneOf snmpVersions)),
      ("reachable", .boolean),
      ("latencyMs", .optional nonNegative),
      ("temperatureCelsius", .optional (within (-100) 300)),
      ("powerWatts", .optional (within 0 1000000))]

/-- `default([])` stands in for a field that is left out, not for `null`. -/
def snmpDeviceSchema : Schema ℚ :=
  .object
    [("collectedAt", timestamp),
      ("device", snmpDeviceInfoSchema isIp),
      ("interfaces", .optional (.array 1024 snmpInterfaceSchema))]

end Snmp

/-! ## Databases -/

def databaseEngines : List String := ["postgresql", "mysql", "mariadb", "mongodb", "redis", "mssql"]

/-- An address for display: anything with an `@` could hold credentials. -/
def endpoint : Schema ℚ :=
  .string fun text =>
    decide (units (trimWith Text.isSpace text) ≤ 255) && !(trimWith Text.isSpace text).contains '@'

/-- The field `instance`. -/
def databaseInstanceSchema : Schema ℚ :=
  .object
    [("name", trimmed 1 128),
      ("engine", oneOf databaseEngines),
      ("version", .optional (trimmed 0 64)),
      ("endpoint", .optional endpoint),
      ("isReplica", .optional .boolean),
      ("storageQuotaBytes", .optional bytes),
      ("maxConnections", .optional (whole 0 10000000)),
      ("slowQueryThresholdMs", .optional (whole 1 3600000))]

section Primitives

theorem accepts_whole {low high n : Int} : (whole low high).accepts (some (.num (n : ℚ))) = true ↔ low ≤ n ∧ n ≤ high := by
  rw [whole, Schema.accepts_num]
  simp [Rat.isInt]

theorem accepts_within {low high q : ℚ} : (within low high).accepts (some (.num q)) = true ↔ low ≤ q ∧ q ≤ high := by
  rw [within, Schema.accepts_num]
  simp

theorem accepts_nonNegative {q : ℚ} : nonNegative.accepts (some (.num q)) = true ↔ 0 ≤ q := by
  rw [nonNegative, Schema.accepts_num]
  simp

theorem accepts_trimmed {low high : Nat} {l : List Char} : (trimmed low high).accepts (some (.str l)) = true ↔
    low ≤ units (trimWith Text.isSpace l) ∧ units (trimWith Text.isSpace l) ≤ high := by
  rw [trimmed, Schema.accepts_str]
  simp

theorem accepts_text {high : Nat} {l : List Char} : (text high).accepts (some (.str l)) = true ↔ units l ≤ high := by
  rw [text, Schema.accepts_str]
  simp

theorem accepts_oneOf {values : List String} {value : String} (h : value ∈ values) :
    (oneOf values).accepts (some (.str value.toList)) = true := by
  rw [oneOf, Schema.accepts_str, List.any_eq_true]
  exact ⟨value, h, beq_self_eq_true value.toList⟩

theorem accepts_timestamp (t : Civil) : timestamp.accepts (some (.str t.rfc3339)) = true := by
  rw [timestamp, Schema.accepts_str]
  exact isDatetime_rfc3339 t

theorem accepts_format (now : Agent.Instant) : timestamp.accepts (some (.str (decode now.format))) = true := by
  rw [Agent.Instant.format, decode_utf8]
  exact accepts_timestamp now.wall

end Primitives

/-! ## Fields of the agent -/

/-- Nothing is left of the text when it is trimmed. -/
def Blank (bytes : List UInt8) : Prop := ∀ c ∈ decode bytes, Text.isSpace c = true

instance (bytes : List UInt8) : Decidable (Blank bytes) :=
  List.decidableBAll (fun c => Text.isSpace c = true) (decode bytes)

section Fields
variable {bytes : List UInt8} {inner : Schema ℚ}

/-- A text has no more UTF-16 units than bytes, and no more when it is trimmed. -/
theorem accepts_trimmed_of_le {high : Nat} (h : bytes.length ≤ high) :
    (trimmed 0 high).accepts (some (.str (decode bytes))) = true := by
  have htrim := units_trimWith_le Text.isSpace (decode bytes)
  have hunits := units_decode_le bytes
  exact accepts_trimmed.mpr ⟨Nat.zero_le _, by omega⟩

theorem accepts_trimmed_iff {high : Nat} (h : bytes.length ≤ high) :
    (trimmed 1 high).accepts (some (.str (decode bytes))) = true ↔ ¬ Blank bytes := by
  have htrim := units_trimWith_le Text.isSpace (decode bytes)
  have hunits := units_decode_le bytes
  rw [accepts_trimmed, units_pos, Ne, trimWith_eq_nil]
  exact and_iff_left (by omega)

theorem accepts_text_of_le {high : Nat} (h : bytes.length ≤ high) :
    (text high).accepts (some (.str (decode bytes))) = true := by
  have hunits := units_decode_le bytes
  exact accepts_text.mpr (by omega)

/-- A field that is left out when the text is empty. -/
theorem accepts_textField : (Schema.optional inner).accepts ((Agent.textField bytes).map (Json.map decode)) = true ↔
    (bytes ≠ [] → inner.accepts (some (.str (decode bytes))) = true) := by
  rw [Schema.accepts_optional_iff, Agent.textField]
  by_cases h : bytes = []
  · simp [h]
  · simp [h, Json.map]

theorem accepts_numField {field : Option ℚ} :
    (Schema.optional inner).accepts ((Agent.numField field).map (Json.map decode)) = true ↔
      ∀ q ∈ field, inner.accepts (some (.num q)) = true := by
  rw [Schema.accepts_optional_iff, Agent.numField]
  cases field with
  | none => simp
  | some q => simp [Json.map]

theorem accepts_natField {field : Option Nat} :
    (Schema.optional inner).accepts ((Agent.natField field).map (Json.map decode)) = true ↔
      ∀ n ∈ field, inner.accepts (some (.num (n : ℚ))) = true := by
  rw [Schema.accepts_optional_iff, Agent.natField]
  cases field with
  | none => simp
  | some n => simp [Json.map]

end Fields

end IkelyaneMonitor.Telemetry
