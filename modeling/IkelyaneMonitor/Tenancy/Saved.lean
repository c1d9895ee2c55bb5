import IkelyaneMonitor.Tenancy.Forms
import IkelyaneMonitor.Tenancy.Poller

/-!
# What is saved

* `NetworkDevice.form` and its likes : a row as its form shows it; `Row.Passed` : a row passes the checks of the form that
  saves it, and those of the function;
* `passed_release`, `asks_passed` : whatever deletes the row beside it, and whatever a request asks for, that stays so;
* `saved_rows_pass` : in any state that requests lead to whose inputs come from their forms, every row passes them.

Only requests are bound by this: a report may give a device a longer name, and `scripts/provision-host.ts` checks none.
-/

namespace IkelyaneMonitor.Tenancy
open Interleave Relational
open Remediation (argsJson isArgName readArgs readArgs_of_argsJson validate)
open Servers (isHostname)
open Telemetry (MetricType)

/-- With the address it was stored by and the credentials in the clear. -/
def NetworkDevice.form (device : NetworkDevice) (address : String) (config : PollerDeviceConfig) : DeviceInput where
  name := device.name
  ipAddress := address
  type := device.type
  tags := device.tags
  pollerHostId := device.pollerHostId
  pollIntervalSec := device.pollIntervalSec
  snmpVersion := device.snmpVersion
  snmpPort := device.snmpPort
  snmpTimeoutMs := device.snmpTimeoutMs
  snmpRetries := device.snmpRetries
  snmpCommunity := config.snmpCommunity
  snmpV3Username := device.snmpV3Username
  snmpV3SecurityLevel := device.snmpV3SecurityLevel
  snmpV3AuthProtocol := device.snmpV3AuthProtocol
  snmpV3AuthKey := config.snmpV3.authKey
  snmpV3PrivProtocol := device.snmpV3PrivProtocol
  snmpV3PrivKey := config.snmpV3.privKey
  snmpV3ContextName := device.snmpV3ContextName

def DatabaseInstance.form (database : DatabaseInstance) : DatabaseSettingsInput where
  tags := database.tags
  slowQueryThresholdMs := database.slowQueryThresholdMs

/-- With the URL it was stored by. -/
def EndpointCheck.form (endpoint : EndpointCheck) (url : String) : EndpointInput where
  name := endpoint.name
  url := url
  method := endpoint.method
  expectedStatus := endpoint.expectedStatus
  expectedBodyContains := endpoint.expectedBodyContains
  intervalSec := endpoint.intervalSec
  timeoutMs := endpoint.timeoutMs
  tags := endpoint.tags
  followRedirects := endpoint.followRedirects
  verifySsl := endpoint.verifySsl
  slaTargetPercent := endpoint.slaTargetPercent

def AlertRule.form (rule : AlertRule) : AlertRuleInput where
  name := rule.name
  description := rule.description
  sourceKind := rule.sourceKind
  sourceId := rule.sourceId
  metric := rule.metric
  instanceFilter := rule.instanceFilter
  operator := rule.operator
  threshold := rule.threshold
  anomalyDetection := rule.anomalyDetection
  anomalySensitivity := rule.anomalySensitivity
  durationSec := rule.durationSec
  severity := rule.severity
  channels := rule.channels
  notifyEmails := rule.notifyEmails
  slackWebhookUrl := rule.slackWebhookUrl
  teamsWebhookUrl := rule.teamsWebhookUrl
  webhookUrl := rule.webhookUrl
  cooldownSec := rule.cooldownSec
  remediationActionId := rule.remediationActionId
  autoRemediate := rule.autoRemediate

def RemediationAction.form (action : RemediationAction) : RemediationActionInput where
  name := action.name
  description := action.description
  runtime := action.runtime
  scriptBody := action.scriptBody
  args := readArgs action.args
  timeoutSec := action.timeoutSec
  targetHostId := action.targetHostId
  allowedOsFamilies := action.allowedOsFamilies
  requiresApproval := action.requiresApproval
  cooldownSec := action.cooldownSec
  maxRunsPerHour := action.maxRunsPerHour

section Saved
variable {URL : Type} (platform : Platform URL) (zod : Zod) (allowPrivateTargets : Bool)

structure NetworkDevice.Passed (device : NetworkDevice) (address : String) (config : PollerDeviceConfig) : Prop where
  isIP : (platform.web.isIP address).isSome = true
  inet : platform.inet address = some device.ipAddress
  reads : pollerDeviceConfig platform device = some config
  form : (device.form address config).Formed

/-- The checks of the row's form. -/
def Row.Passed : Row → Prop
  | .host r => isHostname r.hostname = true ∧ ∀ name ∈ r.displayName, Sized 1 120 name
  | .device r => ∃ address config, r.Passed platform address config
  | .database r => r.form.Formed
  | .endpoint r => ∃ url, truthy (normalizeUrl platform url) = some r.url ∧ (r.form url).Formed
  | .node r => r.refId.isNone = r.kind.isLogical ∧ Sized 1 120 r.label
  | .dependency r => r.parentNodeId ≠ r.childNodeId ∧ ∀ label ∈ r.label, Sized 1 120 label
  | .rule r => r.form.Formed zod ∧ conditionError r.form = none ∧ webhookError platform r.form allowPrivateTargets = none
  | .action r => r.form.Formed ∧ validate r.form.toRemediationActionInput = none ∧
      r.args = some (argsJson r.form.args)

def ChangePasses : Change Row Key → Prop
  | .put r => r.Passed platform zod allowPrivateTargets
  | .edit _ f => ∀ r : Row, r.Passed platform zod allowPrivateTargets → (f r).Passed platform zod allowPrivateTargets
  | .drop _ => True

variable {platform zod allowPrivateTargets}

theorem passed_settings (r : Row) :
    r.settings.Passed platform zod allowPrivateTargets ↔ r.Passed platform zod allowPrivateTargets := by
  cases r <;> exact Iff.rfl

theorem passed_release {k : Key} {r r' : Row} (h : r.release k = some r') (hr : r.Passed platform zod allowPrivateTargets) :
    r'.Passed platform zod allowPrivateTargets := by
  cases r <;> cases h
  case device r =>
    obtain ⟨address, config, hr⟩ := hr
    exact ⟨address, config, hr.isIP, hr.inet, hr.reads, { hr.form with }⟩
  case rule r => exact ⟨{ hr.1 with }, hr.2⟩
  case action r => exact ⟨{ hr.1 with }, hr.2⟩
  all_goals exact hr

theorem passes_put {τ : Type} {m : Model τ} {x : τ} (h : (m.row x).Passed platform zod allowPrivateTargets) :
    ChangePasses platform zod allowPrivateTargets (m.put x) := (passed_settings _).mpr h

theorem passes_edit {τ : Type} {m : Model τ} {id : Nat} {f : τ → τ}
    (h : ∀ x, (m.row x).Passed platform zod allowPrivateTargets → (m.row (f x)).Passed platform zod allowPrivateTargets) :
    ChangePasses platform zod allowPrivateTargets (m.edit id f) := by
  intro r hr
  dsimp only
  cases hread : m.read r with
  | none => exact hr
  | some x =>
      rw [m.read_iff.mp hread] at hr
      exact (passed_settings _).mpr (h x hr)

/-- What is stored of an action's arguments is what was checked. -/
theorem readArgs_of_validate {input : Remediation.RemediationActionInput} (h : validate input = none) :
    readArgs (some (argsJson input.args)) = input.args := by
  rw [readArgs_of_argsJson, List.filter_eq_self]
  intro arg harg
  unfold validate at h
  split at h
  · cases h
  split at h
  · cases h
  · rename_i hargs
    rw [not_or, List.any_eq_true] at hargs
    by_contra hname
    exact hargs.2 ⟨arg, harg, by simp [hname]⟩

theorem utf16Length_slice (limit : Nat) (l : List Char) :
    Text.utf16Length (String.ofList (Text.utf16Slice limit l)) ≤ limit := by
  rw [Text.utf16Length, String.toList_ofList]
  induction l generalizing limit with
  | nil => simp [Text.utf16Slice]
  | cons c cs ih =>
      simp only [Text.utf16Slice]
      generalize hunits : (if c.toNat < 0x10000 then 1 else 2) = units
      by_cases hle : units ≤ limit
      · have hrest := ih (limit - units)
        simp only [if_pos hle, List.map_cons, List.sum_cons, hunits]
        omega
      · rw [if_neg hle]
        by_cases hone : limit = 1 <;> simp [hone]

theorem host_passes {orgId : Nat} {hostname keyId secretEnc : String} {displayName : Option String} {draws : Draws}
    (h : isHostname hostname = true) :
    Row.Passed platform zod allowPrivateTargets (.host (registered orgId hostname displayName keyId secretEnc draws)) := by
  refine ⟨h, fun name hname => ?_⟩
  obtain ⟨hname, hne⟩ := mem_truthy hname
  obtain ⟨text, -, rfl⟩ := Option.map_eq_some_iff.mp hname
  exact ⟨utf16Length_pos hne, utf16Length_slice _ _⟩

/-- A secret that is left blank keeps what passed before. -/
theorem sized_orElse {a b : Option String} (ha : ∀ text ∈ a, Sized 1 255 text) (hb : ∀ text ∈ b, Sized 1 255 text) :
    ∀ text ∈ (a <|> b), Sized 1 255 text := by
  cases a with
  | none => exact hb
  | some text => exact ha

theorem sized_filter {a : Option String} (ha : ∀ text ∈ a, Sized 1 255 text) : ∀ text ∈ truthy a, Sized 1 255 text :=
  fun text h => ha text (mem_truthy h).1

theorem device_passes {input : DeviceInput} {ivs : DeviceIvs} {ip : String} {orgId : Nat} {draws : Draws}
    (hform : input.Formed) (hip : addressOf platform input = some ip) :
    Row.Passed platform zod allowPrivateTargets (.device (input.row platform ivs ip orgId draws)) := by
  obtain ⟨his, hinet⟩ := Option.ite_none_right_eq_some.mp hip
  obtain ⟨config, hconfig, hentered⟩ := Option.map_eq_some_iff.mp (entered_row platform input ivs ip orgId draws)
  obtain rfl : config = (input.entered draws.id ip orgId).config := congrArg Entered.config hentered
  exact ⟨input.ipAddress, _, his, hinet, hconfig, { hform with
    snmpCommunity := sized_filter hform.snmpCommunity
    snmpV3AuthKey := sized_filter hform.snmpV3AuthKey
    snmpV3PrivKey := sized_filter hform.snmpV3PrivKey }⟩

theorem edited_device_passes {input : DeviceInput} {ivs : DeviceIvs} {ip : String} {device : NetworkDevice}
    (hform : input.Formed) (hip : addressOf platform input = some ip)
    (h : Row.Passed platform zod allowPrivateTargets (.device device)) :
    Row.Passed platform zod allowPrivateTargets (.device (input.edit platform ivs ip device)) := by
  obtain ⟨his, hinet⟩ := Option.ite_none_right_eq_some.mp hip
  obtain ⟨_, old, -, -, hold, hpassed⟩ := h
  have hentered : device.entered? platform = some ⟨device.orgId, device.pollerHostId, device.enabled, old⟩ := by
    rw [NetworkDevice.entered?, hold]
    rfl
  obtain ⟨config, hconfig, hnew⟩ := Option.map_eq_some_iff.mp (entered_edit platform input ivs ip hentered)
  obtain rfl := congrArg Entered.config hnew
  exact ⟨input.ipAddress, _, his, hinet, hconfig, { hform with
    snmpCommunity := sized_orElse (sized_filter hform.snmpCommunity) hpassed.snmpCommunity
    snmpV3Username := sized_orElse hform.snmpV3Username hpassed.snmpV3Username
    snmpV3AuthKey := sized_orElse (sized_filter hform.snmpV3AuthKey) hpassed.snmpV3AuthKey
    snmpV3PrivKey := sized_orElse (sized_filter hform.snmpV3PrivKey) hpassed.snmpV3PrivKey
    snmpV3ContextName := sized_orElse hform.snmpV3ContextName hpassed.snmpV3ContextName }⟩

theorem endpoint_passes {input : EndpointInput} {url : String} (hform : input.Formed)
    (hurl : truthy (normalizeUrl platform input.url) = some url) {endpoint : EndpointCheck}
    (hstored : endpoint.form input.url = { input with expectedBodyContains := truthy input.expectedBodyContains })
    (hendpoint : endpoint.url = url) : Row.Passed platform zod allowPrivateTargets (.endpoint endpoint) := by
  refine ⟨input.url, hendpoint ▸ hurl, ?_⟩
  rw [hstored]
  exact { hform with expectedBodyContains := fun text h => hform.expectedBodyContains text (mem_truthy h).1 }

theorem rule_passes {input : AlertRuleInput} (hform : input.Formed zod)
    (h : (conditionError input <|> webhookError platform input allowPrivateTargets).isNone = true) {rule : AlertRule}
    (hstored : rule.form = input) : Row.Passed platform zod allowPrivateTargets (.rule rule) := by
  refine ⟨hstored ▸ hform, ?_⟩
  rw [hstored]
  cases hcondition : conditionError input with
  | none => exact ⟨rfl, by simpa [hcondition] using h⟩
  | some invalid => simp [hcondition] at h

/-- The form of an action that was stored is the one that was checked. -/
theorem action_passes {input : RemediationActionInput} (hform : input.Formed)
    (h : (validate input.toRemediationActionInput).isNone = true) {action : RemediationAction}
    (hstored : action.form = { input with args := readArgs action.args }) (hargs : action.args = some (argsJson input.args)) :
    Row.Passed platform zod allowPrivateTargets (.action action) := by
  have hvalid := Option.isNone_iff_eq_none.mp h
  have hread : readArgs action.args = input.args := by rw [hargs, readArgs_of_validate hvalid]
  have hsame : action.form = input := by rw [hstored, hread]
  show action.form.Formed ∧ validate action.form.toRemediationActionInput = none ∧
    action.args = some (argsJson action.form.args)
  rw [hsame]
  exact ⟨hform, hvalid, hargs⟩

theorem formed_of_submitted_dependency {input : CreateDependencyInput}
    (h : (∃ form, dependencySchema form = some input) ∨ ∃ parent child, input = connected parent child) :
    ∀ label ∈ truthy input.label, Sized 1 120 label := by
  rcases h with ⟨form, h⟩ | ⟨parent, child, rfl⟩
  · simp only [dependencySchema, Option.bind_eq_bind, Option.bind_eq_some_iff] at h
    obtain ⟨label, hlabel, h⟩ := h
    obtain rfl := Option.some.inj h
    exact sized_of_truthy hlabel
  · exact nofun

theorem formed_of_nodeSchema {form : NodeForm} {x y : ℚ} {input : CreateNodeInput} (h : nodeSchema form x y = some input) :
    Sized 1 120 input.label := by
  simp only [nodeSchema, Option.bind_eq_bind, Option.bind_eq_some_iff] at h
  obtain ⟨label, hlabel, h⟩ := h
  obtain rfl := Option.some.inj h
  exact sized_of_trimmed hlabel

theorem asks_passed {request : Request} {a : Asked} (hsubmitted : request.Submitted zod)
    (h : request.asks platform allowPrivateTargets = some a) : ChangePasses platform zod allowPrivateTargets a.change := by
  cases request <;> first | cases h | obtain ⟨-, c, hc, rfl⟩ := ask_eq_some h
  case registerHost =>
    obtain ⟨hname, hc⟩ := Option.ite_none_right_eq_some.mp hc
    obtain rfl := Option.some.inj hc
    exact passes_put (host_passes hname)
  case registerDevice actor draws ivs input =>
    obtain ⟨form, hform⟩ := hsubmitted
    obtain ⟨ip, hip, rfl⟩ := Option.map_eq_some_iff.mp hc
    exact passes_put (device_passes (formed_of_deviceSchema hform) hip)
  case updateDevice actor draws ivs id input =>
    obtain ⟨form, hform⟩ := hsubmitted
    obtain ⟨ip, hip, rfl⟩ := Option.map_eq_some_iff.mp hc
    exact passes_edit fun _ hdevice => edited_device_passes (formed_of_deviceSchema hform) hip hdevice
  case updateDatabaseSettings actor draws id input =>
    obtain ⟨form, hform⟩ := hsubmitted
    obtain rfl := Option.some.inj hc
    exact passes_edit fun _ _ => formed_of_databaseSchema hform
  case createEndpoint actor draws input =>
    obtain ⟨form, hform⟩ := hsubmitted
    obtain ⟨url, hurl, rfl⟩ := Option.map_eq_some_iff.mp hc
    exact passes_put (endpoint_passes (formed_of_endpointSchema hform) hurl rfl rfl)
  case updateEndpoint actor draws id input =>
    obtain ⟨form, hform⟩ := hsubmitted
    obtain ⟨url, hurl, rfl⟩ := Option.map_eq_some_iff.mp hc
    exact passes_edit fun _ _ => endpoint_passes (formed_of_endpointSchema hform) hurl rfl rfl
  case createNode actor draws input =>
    obtain ⟨form, x, y, hform⟩ := hsubmitted
    split at hc
    · rename_i hlogical
      obtain rfl := Option.some.inj hc
      exact passes_put ⟨hlogical.symm, formed_of_nodeSchema hform⟩
    · rename_i hlogical
      obtain ⟨refId, -, rfl⟩ := Option.map_eq_some_iff.mp hc
      exact passes_put ⟨by simpa [topologyNode, CreateNodeInput.row] using hlogical, formed_of_nodeSchema hform⟩
  case createDependency actor draws input =>
    obtain ⟨hends, hc⟩ := Option.ite_none_left_eq_some.mp hc
    obtain rfl := Option.some.inj hc
    exact passes_put ⟨hends, formed_of_submitted_dependency hsubmitted⟩
  case createAlertRule actor draws input =>
    obtain ⟨form, hform⟩ := hsubmitted
    obtain ⟨hpassed, hc⟩ := Option.ite_none_right_eq_some.mp hc
    obtain rfl := Option.some.inj hc
    exact passes_put (rule_passes (formed_of_ruleSchema hform) hpassed rfl)
  case updateAlertRule actor draws id input =>
    obtain ⟨form, hform⟩ := hsubmitted
    obtain ⟨hpassed, hc⟩ := Option.ite_none_right_eq_some.mp hc
    obtain rfl := Option.some.inj hc
    exact passes_edit fun _ _ => rule_passes (formed_of_ruleSchema hform) hpassed rfl
  case createRemediationAction actor draws input =>
    obtain ⟨form, hform⟩ := hsubmitted
    obtain ⟨hpassed, hc⟩ := Option.ite_none_right_eq_some.mp hc
    obtain rfl := Option.some.inj hc
    exact passes_put (action_passes (formed_of_actionSchema hform) hpassed rfl rfl)
  case updateRemediationAction actor draws id input =>
    obtain ⟨form, hform⟩ := hsubmitted
    obtain ⟨hpassed, hc⟩ := Option.ite_none_right_eq_some.mp hc
    obtain rfl := Option.some.inj hc
    exact passes_edit fun _ _ => action_passes (formed_of_actionSchema hform) hpassed rfl rfl
  case setDeviceEnabled =>
    obtain rfl := Option.some.inj hc
    refine passes_edit fun _ hdevice => ?_
    obtain ⟨address, config, hdevice⟩ := hdevice
    exact ⟨address, config, hdevice.isIP, hdevice.inet, hdevice.reads, { hdevice.form with }⟩
  case rotateHostSecret | setHostEnabled | setDatabaseEnabled | setEndpointEnabled | setAlertRuleEnabled
      | setRemediationActionEnabled =>
    obtain rfl := Option.some.inj hc
    exact passes_edit fun _ hx => hx
  all_goals
    obtain rfl := Option.some.inj hc
    trivial

theorem foldl_passed {requests : Nat → Request} {order : List Nat} (hsubmitted : ∀ i, (requests i).Submitted zod)
    (hasks : ∀ i ∈ order, ∃ a, (requests i).asks platform allowPrivateTargets = some a) {m : Key → Option Row}
    (hm : ∀ k r, m k = some r → r.Passed platform zod allowPrivateTargets) :
    ∀ k r, order.foldl (fun m i => ((requests i).effect platform allowPrivateTargets).apply schema m) m k = some r →
      r.Passed platform zod allowPrivateTargets := by
  induction order generalizing m with
  | nil => exact hm
  | cons i order ih =>
      obtain ⟨a, ha⟩ := hasks i List.mem_cons_self
      refine ih (fun j hj => hasks j (List.mem_cons_of_mem _ hj)) fun k r hr => ?_
      have hpass := asks_passed (hsubmitted i) ha
      simp only [Effect.apply, Request.effect, effectOf, ha, Option.map_some, Option.elim_some] at hr
      rcases Schema.apply_eq_some hr with hr | ⟨hc, -⟩ | ⟨f, q, hc, hq, rfl⟩ | ⟨k', q, hc, hq, hqr⟩
      · exact hm k r hr
      · rwa [hc] at hpass
      · rw [hc] at hpass
        exact hpass q (hm k q hq)
      · obtain ⟨-, ⟨rfl, -⟩ | ⟨-, hrelease⟩⟩ := Schema.without_eq_some hqr
        · exact hm k _ hq
        · exact passed_release (k := k') hrelease (hm k q hq)

end Saved

section Runs
variable {URL : Type} {platform : Platform URL} {zod : Zod} {metricText : MetricType → String} {allowPrivateTargets : Bool}
  {requests : Nat → Request} {faults : Nat → Option Nat} {s : Db} {c : System}

/-- Every row of every state passes the checks of its form, if those to begin with do. -/
theorem saved_rows_pass {org : Nat → Nat} (horg : ∀ i, (requests i).orgId = org i)
    (hsubmitted : ∀ i, (requests i).Submitted zod) (hs : schema.Sound s.rows s.drawn)
    (hpassed : ∀ r ∈ s.rows, r.Passed platform zod allowPrivateTargets)
    (h : Reach schema.sem anyStep (start platform metricText allowPrivateTargets requests faults s) c) :
    ∀ r ∈ c.store.rows, r.Passed platform zod allowPrivateTargets := by
  obtain ⟨order, horder⟩ := exists_order hs h
  intro r hr
  have hset : schema.settings Row.settings c.store.rows r.key = some r.settings :=
    Schema.settings_of_mem (sound_of_start horg hs h).nodup hr
  rw [horder.settings] at hset
  refine (passed_settings r).mp (foldl_passed hsubmitted (fun i hi => asked_of_mem horder hi) (fun k q hq => ?_) _ _ hset)
  obtain ⟨p, hp, rfl⟩ := Option.map_eq_some_iff.mp hq
  exact (passed_settings p).mpr (hpassed p ((Schema.rowAt_eq_some hs.nodup).mp hp).1)

/-- A router, with a community. -/
def routerForm : DeviceForm where
  name := " edge "
  ipAddress := "192.0.2.1"
  type := .router
  tags := none
  pollerHostId := none
  pollIntervalSec := 60
  snmpVersion := .v2c
  snmpPort := 161
  snmpTimeoutMs := 1000
  snmpRetries := 1
  snmpCommunity := some "public"
  snmpV3Username := none
  snmpV3SecurityLevel := none
  snmpV3AuthProtocol := none
  snmpV3AuthKey := none
  snmpV3PrivProtocol := none
  snmpV3PrivKey := none
  snmpV3ContextName := none

def routerInput : DeviceInput :=
  ⟨"edge", "192.0.2.1", .router, [], none, 60, .v2c, 161, 1000, 1, some "public", none, none, none, none, none, none,
    none⟩

def apiForm : EndpointForm :=
  ⟨"api", "http://192.0.2.2/health", .GET, 200, some "ok", 30, 5000, none, none, none, 99⟩

def apiInput : EndpointInput :=
  ⟨"api", "http://192.0.2.2/health", .GET, 200, some "ok", 30, 5000, [], true, true, 99⟩

def sampleIvs : DeviceIvs := ⟨Servers.sampleIv, Servers.sampleIv, Servers.sampleIv⟩

/-- A router is registered, and edited with its community left blank, a check is created, and a database is set up. -/
def saving : Nat → Request
  | 0 => .registerDevice (ofOrganization 1 .admin) ⟨10, 20, 0⟩ sampleIvs routerInput
  | 1 => .updateDevice (ofOrganization 1 .admin) ⟨0, 21, 1⟩ sampleIvs 10
    { routerInput with snmpPort := 1161, snmpCommunity := none }
  | 2 => .createEndpoint (ofOrganization 1 .admin) ⟨11, 22, 2⟩ apiInput
  | 3 => .updateDatabaseSettings (ofOrganization 1 .admin) ⟨0, 23, 3⟩ 5 ⟨[], 250⟩
  | _ => .listTopology (ofOrganization 1 .viewer) true

/-- An organization with a database. -/
def withDatabase : Db where
  rows := [.database ⟨5, 1, none, "main", .postgresql, none, none, false, [], true, none, none, none, none, none, none,
    none, 100, .UNKNOWN, none, 0⟩]
  drawn := [(.database, 5)]
  log := []

theorem withDatabase_sound : schema.Sound withDatabase.rows withDatabase.drawn := by
  constructor <;> simp [withDatabase, schema, Row.key, Row.check, Row.refs, Row.names, refTo]

theorem saving_submitted (i : Nat) : (saving i).Submitted ⟨fun _ => true, fun _ => true⟩ := by
  rcases i with _ | _ | _ | _ | i
  · exact ⟨routerForm, rfl⟩
  · exact ⟨{ routerForm with snmpPort := 1161, snmpCommunity := some " " }, rfl⟩
  · exact ⟨apiForm, rfl⟩
  · exact ⟨⟨none, 250⟩, rfl⟩
  · trivial

theorem saved_rows_pass_saving : ∃ c : System,
    (start plain (fun _ => "") false saving (fun _ => none) withDatabase).run schema.sem [0, 2, 0, 1, 3, 1, 1] = some c ∧
    c.store.rows.length = 3 ∧ ∀ r ∈ c.store.rows, r.Passed plain ⟨fun _ => true, fun _ => true⟩ false := by
  obtain ⟨c, hc⟩ := Option.isSome_iff_exists.mp (show ((start plain (fun _ => "") false saving (fun _ => none)
    withDatabase).run schema.sem [0, 2, 0, 1, 3, 1, 1]).isSome = true by decide +kernel)
  have hlength : ((start plain (fun _ => "") false saving (fun _ => none) withDatabase).run schema.sem
    [0, 2, 0, 1, 3, 1, 1]).map (fun c => c.store.rows.length) = some 3 := by decide +kernel
  have horg : ∀ i, (saving i).orgId = 1 := by
    intro i
    rcases i with _ | _ | _ | _ | i <;> rfl
  refine ⟨c, hc, by simpa [hc] using hlength, saved_rows_pass horg saving_submitted
    withDatabase_sound (fun r hr => ?_) (.of_run hc)⟩
  obtain rfl := List.mem_singleton.mp hr
  exact ⟨nofun, by decide⟩

end Runs

end IkelyaneMonitor.Tenancy
