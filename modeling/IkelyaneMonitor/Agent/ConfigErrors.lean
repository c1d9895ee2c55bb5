import IkelyaneMonitor.Agent.Config

/-!
# What the errors of the configuration say (`agent/internal/config/config.go`, `agent/cmd/ikelyane-agent/main.go`)

* `LoadError.text` : the text that is logged; `loadText` : `Load` with its errors as texts;
* `SameBut` : two configurations that differ in the secret and in the connection strings of their databases alone;
* `validateDatabases_same` : the checks find the same thing wrong with both, but an incomplete entry comes with all it holds;
* `Reveals` : the first entry that is wrong has a connection string, and no name or no engine;
* `load_same_iff` : nothing tells the two apart, exactly where no such entry is shown.

What `fmt` makes of a value that is no string, and the errors of `strconv`, of `encoding/json` and of the file system, are
parameters: none of them is given a secret or a connection string, and the error for a JSON text is the same for two texts
that differ in those alone.
-/

namespace IkelyaneMonitor.Agent
open Wire

/-! ## The texts -/

structure Texts where
  /-- `%q` -/
  quote : String → String
  /-- `Duration.String` -/
  duration : Int → String
  atoi : (raw : String) → String
  json : (raw : String) → String

/-- `%+v` of a database. -/
def Database.text (db : Database) : String :=
  "\x7bName:" ++ db.name ++ " Engine:" ++ db.engine ++ " DSN:" ++ db.dsn ++ " SlowQueryThresholdMs:" ++
    db.slowQueryThresholdMs.repr ++ "\x7d"

def LoadError.text (t : Texts) (databasesJson : String) : LoadError → String
  | .interval raw => "IKELYANE_INTERVAL_SECONDS must be a whole number of seconds: " ++ t.atoi raw
  | .databasesJson =>
    "IKELYANE_DATABASES_JSON must be a JSON array of \x7bname, engine, dsn\x7d: " ++ t.json databasesJson
  | .missing what => "missing required configuration: [" ++ " ".intercalate what ++ "] — see README.md"
  | .shortInterval ns => "interval must be at least 10s, got " ++ t.duration ns
  | .noAllowedSha256 => "remediation mode " ++ t.quote "allowlist" ++ " needs at least one entry in allowedSha256"
  | .mode got =>
    "remediation mode must be " ++ t.quote "disabled" ++ ", " ++ t.quote "allowlist" ++ " or " ++ t.quote "any" ++ ", got " ++
      t.quote got
  | .sha256 got => "remediation allowedSha256 entries must be 64 hex characters, got " ++ t.quote got
  | .incomplete db => "each entry in databases needs name, engine and dsn — got " ++ db.text
  | .engine name got =>
    "database " ++ t.quote name ++ ": unsupported engine " ++ t.quote got ++
      " (this agent supports postgresql, mysql, mariadb, mongodb, redis)"
  | .twice name => "database " ++ t.quote name ++ " is configured twice — names must be unique"

/-- What `Load` is given: a file that cannot be read or parsed, with the error, or settings. -/
inductive Given where
  | unreadable (error : String)
  | malformed (error : String)
  | source (s : Source)

/-- The text of the databases in the environment. -/
def Source.databasesJson : Source → String
  | .file _ => ""
  | .environment getenv => getenv "IKELYANE_DATABASES_JSON"

section Load
variable (unmarshalDatabases : String → Option (List Database)) (t : Texts)

def loadText : Given → Except String Config
  | .unreadable error => .error ("reading config file: " ++ error)
  | .malformed error => .error ("parsing config file: " ++ error)
  | .source s => (load unmarshalDatabases s).mapError (LoadError.text t s.databasesJson)

end Load

/-! ## Configurations that differ in their credentials -/

/-- Credentials that are both there, or both not. -/
def SameSecret (secret other : String) : Prop := secret = "" ↔ other = ""

def SameDatabase (db other : Database) : Prop := db = { other with dsn := db.dsn } ∧ SameSecret db.dsn other.dsn

def SameDatabases : List Database → List Database → Prop := List.Forall₂ SameDatabase

structure SameFile (fields others : FileConfig) : Prop where
  rest : fields = { others with secret := fields.secret, databases := fields.databases }
  secret : SameSecret fields.secret others.secret
  databases : SameDatabases fields.databases others.databases

structure SameConfig (cfg other : Config) : Prop where
  rest : cfg = { other with secret := cfg.secret, databases := cfg.databases }
  secret : SameSecret cfg.secret other.secret
  databases : SameDatabases cfg.databases other.databases

section Same
variable (unmarshalDatabases : String → Option (List Database)) (t : Texts)

/-- Texts of databases that differ in their connection strings: there is no text, or the same is wrong with both, or both can
be read. -/
def SameJson (raw other : String) : Prop :=
  SameSecret raw other ∧
    (unmarshalDatabases raw = none ∧ unmarshalDatabases other = none ∧ t.json raw = t.json other ∨
      ∃ databases others, unmarshalDatabases raw = some databases ∧ unmarshalDatabases other = some others ∧
        SameDatabases databases others)

structure SameEnvironment (getenv other : String → String) : Prop where
  rest : ∀ name, name ≠ "IKELYANE_SECRET" → name ≠ "IKELYANE_DATABASES_JSON" → getenv name = other name
  secret : SameSecret (getenv "IKELYANE_SECRET") (other "IKELYANE_SECRET")
  databases : SameJson unmarshalDatabases t (getenv "IKELYANE_DATABASES_JSON") (other "IKELYANE_DATABASES_JSON")

inductive SameBut : Given → Given → Prop
  | unreadable (error : String) : SameBut (.unreadable error) (.unreadable error)
  | malformed (error : String) : SameBut (.malformed error) (.malformed error)
  | file {fields others : FileConfig} : SameFile fields others → SameBut (.source (.file fields)) (.source (.file others))
  | environment {getenv other : String → String} : SameEnvironment unmarshalDatabases t getenv other →
      SameBut (.source (.environment getenv)) (.source (.environment other))

end Same

/-- The two end alike: the same text, or no error. -/
def SameOutcome : Except String Config → Except String Config → Prop
  | .ok _, .ok _ => True
  | .error text, .error other => text = other
  | _, _ => False

theorem SameDatabases.withDefaults {databases others : List Database} (h : SameDatabases databases others) :
    SameDatabases (databases.map Database.withDefaults) (others.map Database.withDefaults) := by
  rw [SameDatabases, List.forall₂_map_left_iff, List.forall₂_map_right_iff]
  apply h.imp
  intro db other hsame
  have hrest := hsame.1
  have hthreshold : db.slowQueryThresholdMs = other.slowQueryThresholdMs := by
    have h := congrArg Database.slowQueryThresholdMs hrest
    exact h
  unfold Database.withDefaults
  rw [hthreshold]
  split
  · exact ⟨by rw [hrest], hsame.2⟩
  · exact hsame

theorem SameConfig.withDefaults {cfg other : Config} (h : SameConfig cfg other) :
    SameConfig cfg.withDefaults other.withDefaults := by
  refine ⟨?_, h.secret, h.databases.withDefaults⟩
  have hrest := h.rest
  unfold Config.withDefaults
  rw [hrest]

theorem sameConfig_of_file {fields others : FileConfig} (h : SameFile fields others) :
    SameConfig (readFile fields) (readFile others) := by
  refine ⟨?_, h.secret, h.databases⟩
  unfold readFile
  rw [h.rest]

/-- The outcomes of reading two configurations, before they are validated. -/
inductive SameRead (t : Texts) (json other : String) : Except LoadError Config → Except LoadError Config → Prop
  | ok {cfg cfg' : Config} : SameConfig cfg cfg' → SameRead t json other (.ok cfg) (.ok cfg')
  | error {e e' : LoadError} : e.text t json = e'.text t other → SameRead t json other (.error e) (.error e')

/-- The interval of the environment, in nanoseconds; none of its own is 0. -/
def readInterval (getenv : String → String) : Except LoadError Int :=
  if getenv "IKELYANE_INTERVAL_SECONDS" = "" then .ok 0
  else
    match parseInt64 (getenv "IKELYANE_INTERVAL_SECONDS").toList with
    | none => .error (.interval (getenv "IKELYANE_INTERVAL_SECONDS"))
    | some n => .ok (seconds n)

def readDatabases (unmarshalDatabases : String → Option (List Database)) (raw : String) : Except LoadError (List Database) :=
  if raw = "" then .ok []
  else
    match unmarshalDatabases raw with
    | none => .error .databasesJson
    | some databases => .ok databases

/-- The settings of the environment, given what was read of the interval and of the databases. -/
def environmentConfig (getenv : String → String) (interval : Int) (databases : List Database) : Config where
  serverUrl := getenv "IKELYANE_SERVER_URL"
  keyId := getenv "IKELYANE_KEY_ID"
  secret := getenv "IKELYANE_SECRET"
  interval := interval
  bufferDir := getenv "IKELYANE_BUFFER_DIR"
  databases := databases
  remediation := {
    mode := getenv "IKELYANE_REMEDIATION_MODE"
    allowedSha256 := splitList (getenv "IKELYANE_REMEDIATION_ALLOWED_SHA256")
    workDir := getenv "IKELYANE_REMEDIATION_WORK_DIR" }

section Read
variable {unmarshalDatabases : String → Option (List Database)} {t : Texts}

theorem readEnvironment_eq (getenv : String → String) :
    readEnvironment unmarshalDatabases getenv =
      (readInterval getenv).bind fun interval =>
        (readDatabases unmarshalDatabases (getenv "IKELYANE_DATABASES_JSON")).map (environmentConfig getenv interval) := by
  unfold readEnvironment readInterval readDatabases
  by_cases hraw : getenv "IKELYANE_INTERVAL_SECONDS" = ""
  · simp only [if_pos hraw]
    by_cases hjson : getenv "IKELYANE_DATABASES_JSON" = ""
    · simp only [if_pos hjson]
      rfl
    · simp only [if_neg hjson]
      cases unmarshalDatabases (getenv "IKELYANE_DATABASES_JSON") <;> rfl
  · simp only [if_neg hraw]
    cases parseInt64 (getenv "IKELYANE_INTERVAL_SECONDS").toList with
    | none => rfl
    | some n =>
        by_cases hjson : getenv "IKELYANE_DATABASES_JSON" = ""
        · simp only [if_pos hjson]
          rfl
        · simp only [if_neg hjson]
          cases unmarshalDatabases (getenv "IKELYANE_DATABASES_JSON") <;> rfl

theorem sameConfig_of_environment {getenv other : String → String} (h : SameEnvironment unmarshalDatabases t getenv other)
    (interval : Int) {databases others : List Database} (hdb : SameDatabases databases others) :
    SameConfig (environmentConfig getenv interval databases) (environmentConfig other interval others) := by
  refine ⟨?_, h.secret, hdb⟩
  unfold environmentConfig
  rw [h.rest "IKELYANE_SERVER_URL" (by decide) (by decide), h.rest "IKELYANE_KEY_ID" (by decide) (by decide),
    h.rest "IKELYANE_BUFFER_DIR" (by decide) (by decide), h.rest "IKELYANE_REMEDIATION_MODE" (by decide) (by decide),
    h.rest "IKELYANE_REMEDIATION_ALLOWED_SHA256" (by decide) (by decide),
    h.rest "IKELYANE_REMEDIATION_WORK_DIR" (by decide) (by decide)]

/-- Two texts of databases are read alike. -/
theorem sameRead_map {raw other : String} {f g : List Database → Config} (h : SameJson unmarshalDatabases t raw other)
    (hfg : ∀ databases others, SameDatabases databases others → SameConfig (f databases) (g others)) :
    SameRead t raw other ((readDatabases unmarshalDatabases raw).map f) ((readDatabases unmarshalDatabases other).map g) := by
  obtain ⟨hempty, hjson⟩ := h
  unfold readDatabases
  by_cases hraw : raw = ""
  · rw [if_pos hraw, if_pos (hempty.mp hraw)]
    exact .ok (hfg [] [] .nil)
  · rw [if_neg hraw, if_neg fun hother => hraw (hempty.mpr hother)]
    apply hjson.elim
    · rintro ⟨hr, ho, htext⟩
      rw [hr, ho]
      apply SameRead.error
      show _ ++ t.json raw = _ ++ t.json other
      rw [htext]
    · rintro ⟨databases, others, hr, ho, hdb⟩
      rw [hr, ho]
      exact .ok (hfg databases others hdb)

theorem sameRead_environment {getenv other : String → String} (h : SameEnvironment unmarshalDatabases t getenv other) :
    SameRead t (getenv "IKELYANE_DATABASES_JSON") (other "IKELYANE_DATABASES_JSON")
      (readEnvironment unmarshalDatabases getenv) (readEnvironment unmarshalDatabases other) := by
  have hinterval : readInterval getenv = readInterval other := by
    unfold readInterval
    rw [h.rest "IKELYANE_INTERVAL_SECONDS" (by decide) (by decide)]
  rw [readEnvironment_eq, readEnvironment_eq, hinterval]
  cases hread : readInterval other with
  | error e =>
      apply SameRead.error
      unfold readInterval at hread
      split at hread
      · cases hread
      split at hread
      · obtain rfl := Except.error.inj hread
        rfl
      · cases hread
  | ok interval => exact sameRead_map h.databases fun _ _ hdb => sameConfig_of_environment h interval hdb

end Read

/-! ## The checks -/

/-- What the checks find wrong with two lists of databases. -/
inductive SameError : Option LoadError → Option LoadError → Prop
  | none : SameError none none
  | same (e : LoadError) : e ≠ .databasesJson → SameError (some e) (some e)
  | incomplete {db other : Database} : SameDatabase db other → SameError (some (.incomplete db)) (some (.incomplete other))

theorem SameDatabase.fields {db other : Database} (h : SameDatabase db other) :
    db.name = other.name ∧ db.engine = other.engine ∧ db.slowQueryThresholdMs = other.slowQueryThresholdMs := by
  have hname := congrArg Database.name h.1
  have hengine := congrArg Database.engine h.1
  have hthreshold := congrArg Database.slowQueryThresholdMs h.1
  exact ⟨hname, hengine, hthreshold⟩

theorem validateDatabases_same {databases others : List Database} (h : SameDatabases databases others) (seen : List String) :
    SameError (validateDatabases seen databases) (validateDatabases seen others) := by
  induction h generalizing seen with
  | nil => exact .none
  | cons hsame _ ih =>
      obtain ⟨hname, hengine, -⟩ := hsame.fields
      have hsecret := hsame.2
      unfold SameSecret at hsecret
      rw [validateDatabases, validateDatabases]
      simp only [hname, hengine, hsecret]
      split
      · exact .incomplete hsame
      split
      · exact .same _ (by simp)
      split
      · exact .same _ (by simp)
      · exact ih _

/-- The entry that is shown: the first one that is wrong, when it is not complete. -/
theorem validateDatabases_incomplete_iff {seen : List String} {databases : List Database} {db : Database} :
    validateDatabases seen databases = some (.incomplete db) ↔
      (db.name = "" ∨ db.engine = "" ∨ db.dsn = "") ∧
        ∃ i, databases[i]? = some db ∧ validateDatabases seen (databases.take i) = none := by
  induction databases generalizing seen with
  | nil => simp [validateDatabases]
  | cons first databases ih =>
      rw [validateDatabases]
      constructor
      · intro h
        split at h
        · rename_i hincomplete
          obtain rfl := LoadError.incomplete.inj (Option.some.inj h)
          exact ⟨hincomplete, 0, rfl, rfl⟩
        split at h
        · cases h
        split at h
        · cases h
        rename_i hcomplete hengine hseen
        obtain ⟨hdb, i, hget, htake⟩ := ih.mp h
        refine ⟨hdb, i + 1, hget, ?_⟩
        rw [List.take_succ_cons, validateDatabases, if_neg hcomplete, if_neg hengine, if_neg hseen, htake]
      · rintro ⟨hdb, i, hget, htake⟩
        cases i with
        | zero =>
            obtain rfl := Option.some.inj hget
            rw [if_pos hdb]
        | succ i =>
            rw [List.take_succ_cons, validateDatabases] at htake
            split at htake
            · cases htake
            split at htake
            · cases htake
            split at htake
            · cases htake
            rename_i hcomplete hengine hseen
            rw [if_neg hcomplete, if_neg hengine, if_neg hseen]
            exact ih.mpr ⟨hdb, i, hget, htake⟩

theorem Database.text_inj {db other : Database} (h : SameDatabase db other) : db.text = other.text ↔ db.dsn = other.dsn := by
  obtain ⟨hname, hengine, hthreshold⟩ := h.fields
  unfold Database.text
  rw [hname, hengine, hthreshold]
  constructor
  · intro htext
    have hlist := congrArg String.toList htext
    simp only [String.toList_append, List.append_cancel_left_eq, List.append_cancel_right_eq] at hlist
    exact String.toList_inj.mp hlist
  · intro hdsn
    rw [hdsn]

theorem SameConfig.missing_eq {cfg other : Config} (h : SameConfig cfg other) : cfg.missing = other.missing := by
  have hsecret := h.secret
  unfold SameSecret at hsecret
  have hurl : cfg.serverUrl = other.serverUrl := by
    have hfield := congrArg Config.serverUrl h.rest
    exact hfield
  have hkey : cfg.keyId = other.keyId := by
    have hfield := congrArg Config.keyId h.rest
    exact hfield
  unfold Config.missing
  simp only [hurl, hkey, hsecret]

theorem SameConfig.interval_eq {cfg other : Config} (h : SameConfig cfg other) : cfg.interval = other.interval := by
  have hfield := congrArg Config.interval h.rest
  exact hfield

theorem SameConfig.remediation_eq {cfg other : Config} (h : SameConfig cfg other) : cfg.remediation = other.remediation := by
  have hfield := congrArg Config.remediation h.rest
  exact hfield

theorem validate_remediation {r : Remediation} {e : LoadError} (h : r.validate = some e) : e ≠ .databasesJson := by
  unfold Remediation.validate at h
  split at h
  · obtain rfl := Option.some.inj h
    simp
  split at h
  · obtain rfl := Option.some.inj h
    simp
  · obtain ⟨sha, -, rfl⟩ := Option.map_eq_some_iff.mp h
    simp

theorem validate_same {cfg other : Config} (h : SameConfig cfg other) : SameError cfg.validate other.validate := by
  unfold Config.validate
  rw [h.missing_eq, h.interval_eq, h.remediation_eq]
  split
  · exact .same _ (by simp)
  split
  · exact .same _ (by simp)
  cases hr : other.remediation.validate with
  | some e => exact .same e (validate_remediation hr)
  | none => exact validateDatabases_same h.databases []

/-- The checks that come before the databases. -/
def Config.passes (cfg : Config) : Prop :=
  cfg.missing = [] ∧ seconds 10 ≤ cfg.interval ∧ cfg.remediation.validate = none

theorem validate_incomplete_iff {cfg : Config} {db : Database} :
    cfg.validate = some (.incomplete db) ↔ cfg.passes ∧ validateDatabases [] cfg.databases = some (.incomplete db) := by
  unfold Config.validate Config.passes
  constructor
  · intro h
    split at h
    · cases h
    rename_i hmissing
    split at h
    · cases h
    rename_i hinterval
    cases hr : cfg.remediation.validate with
    | some e =>
        rw [hr] at h
        obtain rfl := Option.some.inj h
        unfold Remediation.validate at hr
        split at hr
        · cases hr
        split at hr
        · cases hr
        · obtain ⟨sha, -, hsha⟩ := Option.map_eq_some_iff.mp hr
          cases hsha
    | none =>
        rw [hr] at h
        exact ⟨⟨not_not.mp hmissing, Int.not_lt.mp hinterval, rfl⟩, h⟩
  · rintro ⟨⟨hmissing, hinterval, hr⟩, h⟩
    rw [if_neg (not_not.mpr hmissing), if_neg (Int.not_lt.mpr hinterval), hr]
    exact h

/-- The entry that is shown of one list is shown of the other. -/
theorem shown_of_same {databases others : List Database} (h : SameDatabases databases others) {db : Database} {i : Nat}
    (hget : databases[i]? = some db) (htake : validateDatabases [] (databases.take i) = none)
    (hincomplete : db.name = "" ∨ db.engine = "" ∨ db.dsn = "") :
    ∃ other, others[i]? = some other ∧ SameDatabase db other ∧ validateDatabases [] others = some (.incomplete other) := by
  obtain ⟨hi, rfl⟩ := List.getElem?_eq_some_iff.mp hget
  have hi' : i < others.length := h.length_eq ▸ hi
  have hsame : SameDatabase databases[i] others[i] := List.Forall₂.get h hi hi'
  have hothers : validateDatabases [] (others.take i) = none := by
    have htaken := validateDatabases_same (List.forall₂_take i h) []
    rw [htake] at htaken
    generalize validateDatabases [] (others.take i) = found at htaken ⊢
    cases htaken
    rfl
  obtain ⟨hname, hengine, -⟩ := hsame.fields
  refine ⟨others[i], List.getElem?_eq_getElem hi', hsame, ?_⟩
  apply validateDatabases_incomplete_iff.mpr
  refine ⟨?_, i, List.getElem?_eq_getElem hi', hothers⟩
  rw [← hname, ← hengine]
  exact hincomplete.imp_right fun h => h.imp_right hsame.2.mp

/-! ## The law -/

section Law
variable (unmarshalDatabases : String → Option (List Database)) (t : Texts)

/-- The settings that are validated, if it comes to that. -/
def Given.settings : Given → Option Config
  | .source s => (s.read unmarshalDatabases).toOption.map Config.withDefaults
  | _ => none

/-- All else is in order, the entries before are, and this one has no name or no engine, and has connection strings that tell
the two apart. -/
def Reveals (given other : Given) : Prop :=
  ∃ cfg cfg', given.settings unmarshalDatabases = some cfg ∧ other.settings unmarshalDatabases = some cfg' ∧ cfg.passes ∧
    ∃ (i : Nat) (db db' : Database), cfg.databases[i]? = some db ∧ cfg'.databases[i]? = some db' ∧
      validateDatabases [] (cfg.databases.take i) = none ∧ (db.name = "" ∨ db.engine = "") ∧ db.dsn ≠ db'.dsn

variable {unmarshalDatabases t}

theorem LoadError.text_eq {e : LoadError} (h : e ≠ .databasesJson) (json other : String) :
    e.text t json = e.text t other := by
  cases e with
  | databasesJson => exact absurd rfl h
  | _ => rfl

theorem text_incomplete (db : Database) (json : String) :
    (LoadError.incomplete db).text t json = "each entry in databases needs name, engine and dsn — got " ++ db.text := rfl

/-- Validated, the two are told apart by an entry that is shown, and by nothing else. -/
theorem validate_same_iff {cfg cfg' : Config} (h : SameConfig cfg cfg') (json other : String) :
    (cfg.validate.map (LoadError.text t json) = cfg'.validate.map (LoadError.text t other)) ↔
      ¬ (cfg.passes ∧ ∃ (i : Nat) (db db' : Database), cfg.databases[i]? = some db ∧ cfg'.databases[i]? = some db' ∧
        validateDatabases [] (cfg.databases.take i) = none ∧ (db.name = "" ∨ db.engine = "") ∧ db.dsn ≠ db'.dsn) := by
  have hpasses : cfg'.passes ↔ cfg.passes := by
    unfold Config.passes
    rw [h.missing_eq, h.interval_eq, h.remediation_eq]
  have hshown : ∀ {i : Nat} {db db' : Database}, cfg.passes → cfg.databases[i]? = some db → cfg'.databases[i]? = some db' →
      validateDatabases [] (cfg.databases.take i) = none → (db.name = "" ∨ db.engine = "" ∨ db.dsn = "") →
      cfg.validate = some (.incomplete db) ∧ cfg'.validate = some (.incomplete db') := by
    intro i db db' hpass hget hget' htake hincomplete
    obtain ⟨found, hfound, -, hvalidate⟩ := shown_of_same h.databases hget htake hincomplete
    obtain rfl := Option.some.inj (hget'.symm.trans hfound)
    exact ⟨validate_incomplete_iff.mpr ⟨hpass, validateDatabases_incomplete_iff.mpr ⟨hincomplete, i, hget, htake⟩⟩,
      validate_incomplete_iff.mpr ⟨hpasses.mpr hpass, hvalidate⟩⟩
  have hsame := validate_same h
  generalize hfound : cfg.validate = found at hsame hshown
  generalize hfound' : cfg'.validate = found' at hsame hshown
  cases hsame with
  | none =>
      refine iff_of_true rfl ?_
      rintro ⟨hpass, i, db, db', hget, hget', htake, hincomplete, -⟩
      cases (hshown hpass hget hget' htake (hincomplete.imp_right .inl)).1
  | same e he =>
      refine iff_of_true (congrArg some (LoadError.text_eq he json other)) ?_
      rintro ⟨hpass, i, db, db', hget, hget', htake, hincomplete, hdsn⟩
      obtain ⟨hdb, hdb'⟩ := hshown hpass hget hget' htake (hincomplete.imp_right .inl)
      rw [Option.some.inj hdb] at hdb'
      exact hdsn (congrArg Database.dsn (LoadError.incomplete.inj (Option.some.inj hdb')))
  | incomplete hdb =>
      rename_i db db'
      have htext : ((some (LoadError.incomplete db)).map (LoadError.text t json) =
          (some (LoadError.incomplete db')).map (LoadError.text t other)) ↔ db.dsn = db'.dsn := by
        rw [← Database.text_inj hdb, Option.map_some, Option.map_some, Option.some_inj, text_incomplete, text_incomplete,
          String.append_right_inj]
      rw [htext, ← not_iff_not, not_not]
      obtain ⟨hpass, hvalidate⟩ := validate_incomplete_iff.mp hfound
      obtain ⟨hincomplete, i, hget, htake⟩ := validateDatabases_incomplete_iff.mp hvalidate
      constructor
      · intro hdsn
        obtain ⟨found, hget', hsame, -⟩ := shown_of_same h.databases hget htake hincomplete
        obtain rfl := LoadError.incomplete.inj (Option.some.inj (hshown hpass hget hget' htake hincomplete).2)
        refine ⟨hpass, i, db, db', hget, hget', htake, ?_, hdsn⟩
        apply hincomplete.imp_right
        intro h
        apply h.resolve_right
        intro hempty
        exact hdsn (hempty.trans (hdb.2.mp hempty).symm)
      · rintro ⟨-, j, shown, shown', hget, hget', htake, hincomplete, hdsn⟩
        obtain ⟨hfirst, hsecond⟩ := hshown hpass hget hget' htake (hincomplete.imp_right .inl)
        rw [LoadError.incomplete.inj (Option.some.inj hfirst), LoadError.incomplete.inj (Option.some.inj hsecond)]
        exact hdsn

/-- What is wrong with a configuration, or the configuration. -/
def checked (found : Option String) (cfg : Config) : Except String Config :=
  match found with
  | some text => .error text
  | none => .ok cfg

theorem sameOutcome_checked {found found' : Option String} {cfg cfg' : Config} :
    SameOutcome (checked found cfg) (checked found' cfg') ↔ found = found' := by
  cases found <;> cases found' <;> simp [checked, SameOutcome]

theorem loadText_source (s : Source) :
    loadText unmarshalDatabases t (.source s) =
      match s.read unmarshalDatabases with
      | .error e => .error (e.text t s.databasesJson)
      | .ok cfg => checked (cfg.withDefaults.validate.map (LoadError.text t s.databasesJson)) cfg.withDefaults := by
  show (load unmarshalDatabases s).mapError (LoadError.text t s.databasesJson) = _
  unfold load
  cases s.read unmarshalDatabases with
  | error e => rfl
  | ok cfg =>
      simp only
      cases cfg.withDefaults.validate <;> rfl

/-- The same of two sources that read alike. -/
theorem source_same_iff {s s' : Source}
    (h : SameRead t s.databasesJson s'.databasesJson (s.read unmarshalDatabases) (s'.read unmarshalDatabases)) :
    SameOutcome (loadText unmarshalDatabases t (.source s)) (loadText unmarshalDatabases t (.source s')) ↔
      ¬ Reveals unmarshalDatabases (.source s) (.source s') := by
  have hsettings : ∀ s : Source, (Given.source s).settings unmarshalDatabases =
      (s.read unmarshalDatabases).toOption.map Config.withDefaults := fun _ => rfl
  rw [loadText_source, loadText_source]
  unfold Reveals
  rw [hsettings, hsettings]
  generalize s.read unmarshalDatabases = read at h ⊢
  generalize s'.read unmarshalDatabases = read' at h ⊢
  cases h with
  | error htext =>
      refine iff_of_true htext ?_
      rintro ⟨cfg, -, hcfg, -⟩
      cases hcfg
  | ok hsame =>
      rename_i cfg cfg'
      have hlaw := validate_same_iff (t := t) hsame.withDefaults s.databasesJson s'.databasesJson
      simp only
      rw [sameOutcome_checked, hlaw, not_iff_not]
      constructor
      · rintro ⟨hpass, hentry⟩
        exact ⟨_, _, rfl, rfl, hpass, hentry⟩
      · rintro ⟨read, read', hread, hread', hpass, hentry⟩
        obtain rfl := Option.some.inj hread
        obtain rfl := Option.some.inj hread'
        exact ⟨hpass, hentry⟩

theorem load_same_iff {given other : Given} (h : SameBut unmarshalDatabases t given other) :
    SameOutcome (loadText unmarshalDatabases t given) (loadText unmarshalDatabases t other) ↔
      ¬ Reveals unmarshalDatabases given other := by
  have hnone : ∀ cfg, (none : Option Config) ≠ some cfg := fun _ => nofun
  cases h with
  | unreadable error =>
      refine iff_of_true rfl ?_
      rintro ⟨cfg, -, hcfg, -⟩
      exact hnone cfg hcfg
  | malformed error =>
      refine iff_of_true rfl ?_
      rintro ⟨cfg, -, hcfg, -⟩
      exact hnone cfg hcfg
  | file hfile => exact source_same_iff (.ok (sameConfig_of_file hfile))
  | environment henv => exact source_same_iff (sameRead_environment henv)

end Law

/-- A file that is right but for the name of its one database. -/
def unnamed (dsn : String) : FileConfig where
  serverUrl := "https://monitor.example.com"
  keyId := "k1"
  secret := "s"
  intervalSeconds := 60
  bufferDir := ""
  databases := [{ name := "", engine := "postgresql", dsn := dsn, slowQueryThresholdMs := 0 }]
  remediation := { mode := "", allowedSha256 := [], workDir := "" }

def plainTexts : Texts := { quote := id, duration := fun _ => "60s", atoi := id, json := id }

theorem unnamed_same_iff :
    SameOutcome (loadText (fun _ => none) plainTexts (.source (.file (unnamed "postgres://app:one@db/app"))))
        (loadText (fun _ => none) plainTexts (.source (.file (unnamed "postgres://app:two@db/app")))) ↔
      ¬ Reveals (fun _ => none) (.source (.file (unnamed "postgres://app:one@db/app")))
        (.source (.file (unnamed "postgres://app:two@db/app"))) :=
  load_same_iff (.file ⟨rfl, by simp [SameSecret, unnamed], .cons ⟨rfl, by simp [SameSecret]⟩ .nil⟩)

/-- The password is in the text that is logged. -/
theorem unnamed_told_apart :
    loadText (fun _ => none) plainTexts (.source (.file (unnamed "postgres://app:one@db/app"))) =
      .error ("each entry in databases needs name, engine and dsn — got " ++
        "{Name: Engine:postgresql DSN:postgres://app:one@db/app SlowQueryThresholdMs:1000}") ∧
    SameBut (fun _ => none) plainTexts (.source (.file (unnamed "postgres://app:one@db/app")))
        (.source (.file (unnamed "postgres://app:two@db/app"))) ∧
      ¬ SameOutcome (loadText (fun _ => none) plainTexts (.source (.file (unnamed "postgres://app:one@db/app"))))
        (loadText (fun _ => none) plainTexts (.source (.file (unnamed "postgres://app:two@db/app")))) := by
  have hone : loadText (fun _ => none) plainTexts (.source (.file (unnamed "postgres://app:one@db/app"))) =
      .error ("each entry in databases needs name, engine and dsn — got " ++
        "{Name: Engine:postgresql DSN:postgres://app:one@db/app SlowQueryThresholdMs:1000}") := by rfl
  have htwo : loadText (fun _ => none) plainTexts (.source (.file (unnamed "postgres://app:two@db/app"))) =
      .error ("each entry in databases needs name, engine and dsn — got " ++
        "{Name: Engine:postgresql DSN:postgres://app:two@db/app SlowQueryThresholdMs:1000}") := by rfl
  refine ⟨hone, .file ⟨rfl, by simp [SameSecret, unnamed], .cons ⟨rfl, by simp [SameSecret]⟩ .nil⟩, ?_⟩
  rw [hone, htwo]
  intro htext
  have hentry := (String.append_right_inj _).mp htext
  revert hentry
  decide

end IkelyaneMonitor.Agent
