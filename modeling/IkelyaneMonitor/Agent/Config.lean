import Mathlib.Data.List.Basic
import IkelyaneMonitor.Text
import IkelyaneMonitor.Wire.Text

/-!
# The agent's configuration (`agent/internal/config/config.go`)

* `Config`, with the databases to monitor and the host's own policy for remediation scripts, `Remediation`;
* `load` : the settings of a file or of the environment, with their defaults, when `validate` finds nothing wrong;
* `remediation_of_load`, `databases_of_load` : what a configuration that was loaded says.

A file that cannot be read or parsed gives no configuration and is left out; the JSON of the databases in the environment
is read by a parameter. Intervals are nanoseconds, as `time.Duration` counts them.
-/

namespace IkelyaneMonitor.Agent
open Wire

structure Remediation where
  mode : String
  allowedSha256 : List String
  workDir : String
  deriving DecidableEq, Repr

structure Database where
  name : String
  engine : String
  dsn : String
  slowQueryThresholdMs : Int
  deriving DecidableEq, Repr

structure Config where
  serverUrl : String
  keyId : String
  secret : String
  interval : Int
  bufferDir : String
  databases : List Database
  remediation : Remediation
  deriving DecidableEq, Repr

inductive LoadError where
  | interval (raw : String)
  | databasesJson
  | missing (what : List String)
  | shortInterval (interval : Int)
  | noAllowedSha256
  | mode (got : String)
  | sha256 (got : String)
  | incomplete (db : Database)
  | engine (name engine : String)
  | twice (name : String)
  deriving DecidableEq, Repr

/-- `time.Duration(seconds) * time.Second`, in 64 bits. -/
def seconds (n : Int) : Int := (n * 10 ^ 9).bmod (2 ^ 64)

def defaultIntervalSeconds : Int := 60
def defaultBufferDir : String := "/var/lib/ikelyane-agent/buffer"
def defaultRemediationDir : String := "/var/lib/ikelyane-agent/remediation"
def defaultSlowQueryThresholdMs : Int := 1000

/-- `strings.TrimSpace`. -/
def trimSpace (text : String) : String := String.ofList (trimWith Text.isSpaceGo text.toList)

/-- The lower case of `unicode.ToLower` where it is in ASCII; outside it are also the dotted capital I and the Kelvin sign.
What has its lower case outside ASCII stays: it is no hexadecimal digit either way. -/
def lowerChar (c : Char) : Char :=
  match c.toNat with
  | 0x130 => 'i'
  | 0x212A => 'k'
  | _ => c.toLower

/-- `strings.ToLower`. -/
def toLower (text : String) : String := String.ofList (text.toList.map lowerChar)

/-- What a file says, with its own form of the interval. -/
structure FileConfig where
  serverUrl : String
  keyId : String
  secret : String
  intervalSeconds : Int
  bufferDir : String
  databases : List Database
  remediation : Remediation

inductive Source where
  | file (fields : FileConfig)
  | environment (getenv : String → String)

section Load
variable (unmarshalDatabases : String → Option (List Database))

def readFile (fields : FileConfig) : Config where
  serverUrl := fields.serverUrl
  keyId := fields.keyId
  secret := fields.secret
  interval := if 0 < fields.intervalSeconds then seconds fields.intervalSeconds else 0
  bufferDir := fields.bufferDir
  databases := fields.databases
  remediation := fields.remediation

/-- The entries between the commas that are not blank. -/
def splitList (raw : String) : List String :=
  if raw = "" then []
  else ((raw.toList.splitOn ',').map fun entry => trimSpace (String.ofList entry)).filter fun entry => entry ≠ ""

def readEnvironment (getenv : String → String) : Except LoadError Config := do
  let interval ←
    if getenv "IKELYANE_INTERVAL_SECONDS" = "" then pure 0
    else
      match parseInt64 (getenv "IKELYANE_INTERVAL_SECONDS").toList with
      | none => throw (.interval (getenv "IKELYANE_INTERVAL_SECONDS"))
      | some n => pure (seconds n)
  let databases ←
    if getenv "IKELYANE_DATABASES_JSON" = "" then pure []
    else
      match unmarshalDatabases (getenv "IKELYANE_DATABASES_JSON") with
      | none => throw .databasesJson
      | some databases => pure databases
  return {
    serverUrl := getenv "IKELYANE_SERVER_URL"
    keyId := getenv "IKELYANE_KEY_ID"
    secret := getenv "IKELYANE_SECRET"
    interval := interval
    bufferDir := getenv "IKELYANE_BUFFER_DIR"
    databases := databases
    remediation := {
      mode := getenv "IKELYANE_REMEDIATION_MODE"
      allowedSha256 := splitList (getenv "IKELYANE_REMEDIATION_ALLOWED_SHA256")
      workDir := getenv "IKELYANE_REMEDIATION_WORK_DIR" } }

def Remediation.withDefaults (r : Remediation) : Remediation where
  mode := if r.mode = "" then "disabled" else r.mode
  allowedSha256 := r.allowedSha256.map fun sha => toLower (trimSpace sha)
  workDir := if r.workDir = "" then defaultRemediationDir else r.workDir

def Database.withDefaults (db : Database) : Database :=
  if db.slowQueryThresholdMs ≤ 0 then { db with slowQueryThresholdMs := defaultSlowQueryThresholdMs } else db

def Config.withDefaults (cfg : Config) : Config :=
  { cfg with
    interval := if cfg.interval ≤ 0 then seconds defaultIntervalSeconds else cfg.interval
    bufferDir := if cfg.bufferDir = "" then defaultBufferDir else cfg.bufferDir
    databases := cfg.databases.map Database.withDefaults
    remediation := cfg.remediation.withDefaults }

def Config.missing (cfg : Config) : List String :=
  (if cfg.serverUrl = "" then ["server URL (IKELYANE_SERVER_URL)"] else []) ++
    (if cfg.keyId = "" then ["key id (IKELYANE_KEY_ID)"] else []) ++
    if cfg.secret = "" then ["secret (IKELYANE_SECRET)"] else []

/-- 64 lower-case hexadecimal digits; `len` counts bytes. -/
def isSha256 (sha : String) : Bool := sha.utf8ByteSize == 64 && sha.toList.all isLowerHex

def Remediation.validate (r : Remediation) : Option LoadError :=
  if r.mode ≠ "disabled" ∧ r.mode ≠ "any" ∧ r.mode ≠ "allowlist" then some (.mode r.mode)
  else if r.mode = "allowlist" ∧ r.allowedSha256 = [] then some .noAllowedSha256
  else (r.allowedSha256.find? fun sha => !isSha256 sha).map .sha256

def supportedDatabaseEngines : List String := ["postgresql", "mysql", "mariadb", "mongodb", "redis"]

/-- The databases in turn, with the names seen before. -/
def validateDatabases : (seenNames : List String) → List Database → Option LoadError
  | _, [] => none
  | seenNames, db :: databases =>
    if db.name = "" ∨ db.engine = "" ∨ db.dsn = "" then some (.incomplete db)
    else if db.engine ∉ supportedDatabaseEngines then some (.engine db.name db.engine)
    else if db.name ∈ seenNames then some (.twice db.name)
    else validateDatabases (db.name :: seenNames) databases

def Config.validate (cfg : Config) : Option LoadError :=
  if cfg.missing ≠ [] then some (.missing cfg.missing)
  else if cfg.interval < seconds 10 then some (.shortInterval cfg.interval)
  else cfg.remediation.validate.or (validateDatabases [] cfg.databases)

def Source.read : Source → Except LoadError Config
  | .file fields => .ok (readFile fields)
  | .environment getenv => readEnvironment unmarshalDatabases getenv

def load (source : Source) : Except LoadError Config :=
  match source.read unmarshalDatabases with
  | .error e => .error e
  | .ok cfg =>
    match cfg.withDefaults.validate with
    | some e => .error e
    | none => .ok cfg.withDefaults

end Load

/-! ## What a loaded configuration says -/

theorem validate_of_load {unmarshalDatabases : String → Option (List Database)} {source : Source} {cfg : Config}
    (h : load unmarshalDatabases source = .ok cfg) :
    (∃ read : Config, cfg = read.withDefaults) ∧ cfg.remediation.validate = none ∧ validateDatabases [] cfg.databases =
      none := by
  unfold load at h
  split at h
  · cases h
  rename_i read _
  split at h
  · cases h
  rename_i hvalid
  cases h
  refine ⟨⟨read, rfl⟩, ?_⟩
  unfold Config.validate at hvalid
  split at hvalid
  · cases hvalid
  split at hvalid
  · cases hvalid
  exact Option.or_eq_none_iff.mp hvalid

theorem of_validate {r : Remediation} (h : r.validate = none) :
    (r.mode = "disabled" ∨ r.mode = "any" ∨ r.mode = "allowlist") ∧ (r.mode = "allowlist" → r.allowedSha256 ≠ []) ∧
      ∀ sha ∈ r.allowedSha256, isSha256 sha = true := by
  unfold Remediation.validate at h
  split at h
  · cases h
  rename_i hmode
  split at h
  · cases h
  rename_i hempty
  rw [Option.map_eq_none_iff, List.find?_eq_none] at h
  refine ⟨?_, fun hm he => hempty ⟨hm, he⟩, ?_⟩
  · by_contra hnot
    rw [not_or, not_or] at hnot
    exact hmode hnot
  · intro sha hsha
    simpa using h sha hsha

/-- A policy that was loaded has one of the three modes, and its list holds hashes in lower case. -/
theorem remediation_of_load {unmarshalDatabases : String → Option (List Database)} {source : Source} {cfg : Config}
    (h : load unmarshalDatabases source = .ok cfg) :
    (cfg.remediation.mode = "disabled" ∨ cfg.remediation.mode = "any" ∨ cfg.remediation.mode = "allowlist") ∧
      (cfg.remediation.mode = "allowlist" → cfg.remediation.allowedSha256 ≠ []) ∧
      ∀ sha ∈ cfg.remediation.allowedSha256, isSha256 sha = true :=
  of_validate (validate_of_load h).2.1

theorem of_validateDatabases {seen : List String} {databases : List Database} (h : validateDatabases seen databases = none) :
    ∀ db ∈ databases, db.name ≠ "" ∧ db.engine ∈ supportedDatabaseEngines := by
  induction databases generalizing seen with
  | nil => exact fun _ => (nomatch ·)
  | cons db databases ih =>
      rw [validateDatabases] at h
      split at h
      · cases h
      rename_i hcomplete
      split at h
      · cases h
      rename_i hengine
      split at h
      · cases h
      rw [not_or] at hcomplete
      intro db' hdb'
      rcases List.mem_cons.mp hdb' with rfl | hdb'
      · exact ⟨hcomplete.1, not_not.mp hengine⟩
      · exact ih h db' hdb'

/-- Each database has a name, an engine the agent knows and a threshold. -/
theorem databases_of_load {unmarshalDatabases : String → Option (List Database)} {source : Source} {cfg : Config}
    (h : load unmarshalDatabases source = .ok cfg) {db : Database} (hdb : db ∈ cfg.databases) :
    db.name ≠ "" ∧ db.engine ∈ supportedDatabaseEngines ∧ 0 < db.slowQueryThresholdMs := by
  obtain ⟨⟨read, hread⟩, -, hvalid⟩ := validate_of_load h
  have hchecked := of_validateDatabases hvalid db hdb
  refine ⟨hchecked.1, hchecked.2, ?_⟩
  rw [hread] at hdb
  obtain ⟨raw, -, rfl⟩ := List.mem_map.mp hdb
  unfold Database.withDefaults
  split
  · exact (by decide : (0 : Int) < defaultSlowQueryThresholdMs)
  · rename_i hpos
    exact Int.not_le.mp hpos

end IkelyaneMonitor.Agent
