import IkelyaneMonitor.Tenancy.System
import IkelyaneMonitor.Wire.Text

/-!
# The forms (`app/actions`)

* `trimmed`, `optional`, `integer`, `tagList` : what the forms check of a text and of a number, and the list that a text of
  tags spells;
* `hostSchema`, `deviceSchema`, `databaseSchema`, `endpointSchema`, `nodeSchema`, `dependencySchema`, `ruleSchema`,
  `actionSchema` : the forms, from what is sent to the input of the function that saves it; `Formed` : what they make sure of
  (`formed_of_deviceSchema` and its likes);
* `Request.Submitted` : the input of the request comes from its form.

A number is what `Number` reads in its text and an enumeration is one of its values, so that a text that is neither is no
form; an empty id counts as absent. What the validation library takes for an e-mail address or a URL is given (`Zod`).
-/

namespace IkelyaneMonitor.Tenancy
open Agent.Snmp (AuthProtocol PrivProtocol SecurityLevel)
open Aiops (AnomalySensitivity)
open Alerts (AlertOperator NotificationChannel Severity)
open Remediation (OsFamily ScriptRuntime isArgName maxArgs maxScriptBytes)
open Telemetry (DeviceType MetricSource MetricType SnmpVersion)

structure Zod where
  email : String → Bool
  url : String → Bool

/-- Between `lo` and `hi` UTF-16 units. -/
def Sized (lo hi : Nat) (text : String) : Prop := lo ≤ Text.utf16Length text ∧ Text.utf16Length text ≤ hi

instance (lo hi : Nat) (text : String) : Decidable (Sized lo hi text) := inferInstanceAs (Decidable (_ ∧ _))

/-- `z.string().trim().min(lo).max(hi)` -/
def trimmed (lo hi : Nat) (text : String) : Option String :=
  if Sized lo hi (Text.trim text) then some (Text.trim text) else none

/-- `.optional()` -/
def optional {α β : Type} (parse : α → Option β) : Option α → Option (Option β)
  | none => some none
  | some x => (parse x).map some

/-- `z.coerce.number().int().min(lo).max(hi)` -/
def integer (lo hi : Nat) (n : ℚ) : Option Nat := if n.den = 1 ∧ lo ≤ n ∧ n ≤ hi then some n.num.toNat else none

/-- `text ? text.split(",").map((tag) => tag.trim()).filter(Boolean) : []` -/
def tagList (text : Option String) : List String :=
  match truthy text with
  | none => []
  | some text => ((text.splitOn ",").map Text.trim).filter fun tag => tag ≠ ""

theorem sized_of_trimmed {lo hi : Nat} {text t : String} (h : trimmed lo hi text = some t) : Sized lo hi t := by
  obtain ⟨hsized, h⟩ := Option.ite_none_right_eq_some.mp h
  exact Option.some.inj h ▸ hsized

theorem of_optional {α β : Type} {parse : α → Option β} {P : β → Prop} (hparse : ∀ x y, parse x = some y → P y)
    {o : Option α} {o' : Option β} (h : optional parse o = some o') : ∀ y ∈ o', P y := by
  intro y hy
  cases o with
  | none =>
      cases h
      cases hy
  | some x =>
      obtain ⟨z, hz, rfl⟩ := Option.map_eq_some_iff.mp h
      exact Option.some.inj hy ▸ hparse x z hz

theorem mem_truthy {text : Option String} {t : String} (h : t ∈ truthy text) : t ∈ text ∧ t ≠ "" := by
  simpa [truthy, Option.filter_eq_some_iff] using h

theorem utf16Length_pos {text : String} (h : text ≠ "") : 1 ≤ Text.utf16Length text := by
  unfold Text.utf16Length
  cases hl : text.toList with
  | nil => exact absurd (String.toList_inj.mp (hl.trans String.toList_empty.symm)) h
  | cons c cs =>
      rw [List.map_cons, List.sum_cons]
      split <;> omega

/-- What is left of an optional text once the empty one counts as absent. -/
theorem sized_of_truthy {hi : Nat} {text o : Option String} (h : optional (trimmed 0 hi) text = some o) :
    ∀ t ∈ truthy o, Sized 1 hi t := by
  intro t ht
  obtain ⟨ht, hne⟩ := mem_truthy ht
  exact ⟨utf16Length_pos hne, (of_optional (fun _ _ => sized_of_trimmed) h t ht).2⟩

theorem of_integer {lo hi n : Nat} {q : ℚ} (h : integer lo hi q = some n) : lo ≤ n ∧ n ≤ hi := by
  obtain ⟨⟨hden, hlo, hhi⟩, h⟩ := Option.ite_none_right_eq_some.mp h
  obtain rfl := Option.some.inj h
  have hq : q = (q.num : ℚ) := (Rat.den_eq_one_iff q).mp hden |>.symm
  have hlo' : (lo : ℤ) ≤ q.num := by exact_mod_cast hq ▸ hlo
  have hhi' : q.num ≤ (hi : ℤ) := by exact_mod_cast hq ▸ hhi
  omega

theorem ne_of_mem_tagList {text : Option String} {tag : String} (h : tag ∈ tagList text) : tag ≠ "" := by
  unfold tagList at h
  split at h
  · cases h
  · simpa using (List.mem_filter.mp h).2

/-! ## Hosts, devices and databases -/

structure HostForm where
  hostname : String
  displayName : Option String

def hostSchema (form : HostForm) : Option (String × Option String) := do
  let hostname ← trimmed 1 253 form.hostname
  let displayName ← optional (trimmed 0 120) form.displayName
  return (hostname, displayName)

structure DeviceForm where
  name : String
  ipAddress : String
  type : DeviceType
  tags : Option String
  pollerHostId : Option Nat
  pollIntervalSec : ℚ
  snmpVersion : SnmpVersion
  snmpPort : ℚ
  snmpTimeoutMs : ℚ
  snmpRetries : ℚ
  snmpCommunity : Option String
  snmpV3Username : Option String
  snmpV3SecurityLevel : Option SecurityLevel
  snmpV3AuthProtocol : Option AuthProtocol
  snmpV3AuthKey : Option String
  snmpV3PrivProtocol : Option PrivProtocol
  snmpV3PrivKey : Option String
  snmpV3ContextName : Option String

def deviceSchema (form : DeviceForm) : Option DeviceInput := do
  let name ← trimmed 1 120 form.name
  let ipAddress ← trimmed 1 45 form.ipAddress
  let tags ← optional (trimmed 0 300) form.tags
  let pollIntervalSec ← integer 10 86400 form.pollIntervalSec
  let snmpPort ← integer 1 65535 form.snmpPort
  let snmpTimeoutMs ← integer 100 60000 form.snmpTimeoutMs
  let snmpRetries ← integer 0 10 form.snmpRetries
  let snmpCommunity ← optional (trimmed 0 255) form.snmpCommunity
  let snmpV3Username ← optional (trimmed 0 255) form.snmpV3Username
  let snmpV3AuthKey ← optional (trimmed 0 255) form.snmpV3AuthKey
  let snmpV3PrivKey ← optional (trimmed 0 255) form.snmpV3PrivKey
  let snmpV3ContextName ← optional (trimmed 0 255) form.snmpV3ContextName
  return {
    name := name
    ipAddress := ipAddress
    type := form.type
    tags := tagList tags
    pollerHostId := form.pollerHostId
    pollIntervalSec := pollIntervalSec
    snmpVersion := form.snmpVersion
    snmpPort := snmpPort
    snmpTimeoutMs := snmpTimeoutMs
    snmpRetries := snmpRetries
    snmpCommunity := truthy snmpCommunity
    snmpV3Username := truthy snmpV3Username
    snmpV3SecurityLevel := form.snmpV3SecurityLevel
    snmpV3AuthProtocol := form.snmpV3AuthProtocol
    snmpV3AuthKey := truthy snmpV3AuthKey
    snmpV3PrivProtocol := form.snmpV3PrivProtocol
    snmpV3PrivKey := truthy snmpV3PrivKey
    snmpV3ContextName := truthy snmpV3ContextName }

structure DeviceInput.Formed (input : DeviceInput) : Prop where
  name : Sized 1 120 input.name
  ipAddress : Sized 1 45 input.ipAddress
  tags : ∀ tag ∈ input.tags, tag ≠ ""
  pollIntervalSec : 10 ≤ input.pollIntervalSec ∧ input.pollIntervalSec ≤ 86400
  snmpPort : 1 ≤ input.snmpPort ∧ input.snmpPort ≤ 65535
  snmpTimeoutMs : 100 ≤ input.snmpTimeoutMs ∧ input.snmpTimeoutMs ≤ 60000
  snmpRetries : input.snmpRetries ≤ 10
  snmpCommunity : ∀ text ∈ input.snmpCommunity, Sized 1 255 text
  snmpV3Username : ∀ text ∈ input.snmpV3Username, Sized 1 255 text
  snmpV3AuthKey : ∀ text ∈ input.snmpV3AuthKey, Sized 1 255 text
  snmpV3PrivKey : ∀ text ∈ input.snmpV3PrivKey, Sized 1 255 text
  snmpV3ContextName : ∀ text ∈ input.snmpV3ContextName, Sized 1 255 text

theorem formed_of_deviceSchema {form : DeviceForm} {input : DeviceInput} (h : deviceSchema form = some input) :
    input.Formed := by
  simp only [deviceSchema, Option.bind_eq_bind, Option.bind_eq_some_iff] at h
  obtain ⟨name, hname, ip, hip, tags, -, interval, hinterval, port, hport, timeout, htimeout, retries, hretries, community,
    hcommunity, username, husername, authKey, hauthKey, privKey, hprivKey, context, hcontext, h⟩ := h
  obtain rfl := Option.some.inj h
  exact {
    name := sized_of_trimmed hname
    ipAddress := sized_of_trimmed hip
    tags := fun _ => ne_of_mem_tagList
    pollIntervalSec := of_integer hinterval
    snmpPort := of_integer hport
    snmpTimeoutMs := of_integer htimeout
    snmpRetries := (of_integer hretries).2
    snmpCommunity := sized_of_truthy hcommunity
    snmpV3Username := sized_of_truthy husername
    snmpV3AuthKey := sized_of_truthy hauthKey
    snmpV3PrivKey := sized_of_truthy hprivKey
    snmpV3ContextName := sized_of_truthy hcontext }

structure DatabaseForm where
  tags : Option String
  slowQueryThresholdMs : ℚ

def databaseSchema (form : DatabaseForm) : Option DatabaseSettingsInput := do
  let tags ← optional (trimmed 0 300) form.tags
  let slowQueryThresholdMs ← integer 1 600000 form.slowQueryThresholdMs
  return { tags := tagList tags, slowQueryThresholdMs := slowQueryThresholdMs }

structure DatabaseSettingsInput.Formed (input : DatabaseSettingsInput) : Prop where
  tags : ∀ tag ∈ input.tags, tag ≠ ""
  slowQueryThresholdMs : 1 ≤ input.slowQueryThresholdMs ∧ input.slowQueryThresholdMs ≤ 600000

theorem formed_of_databaseSchema {form : DatabaseForm} {input : DatabaseSettingsInput}
    (h : databaseSchema form = some input) : input.Formed := by
  simp only [databaseSchema, Option.bind_eq_bind, Option.bind_eq_some_iff] at h
  obtain ⟨tags, -, threshold, hthreshold, h⟩ := h
  obtain rfl := Option.some.inj h
  exact ⟨fun _ => ne_of_mem_tagList, of_integer hthreshold⟩

/-! ## Endpoints and the map -/

structure EndpointForm where
  name : String
  url : String
  method : HttpMethod
  expectedStatus : ℚ
  expectedBodyContains : Option String
  intervalSec : ℚ
  timeoutMs : ℚ
  tags : Option String
  followRedirects : Option Bool
  verifySsl : Option Bool
  slaTargetPercent : ℚ

def endpointSchema (form : EndpointForm) : Option EndpointInput := do
  let name ← trimmed 1 120 form.name
  let url ← trimmed 1 2048 form.url
  let expectedStatus ← integer 100 599 form.expectedStatus
  let expectedBodyContains ← optional (trimmed 0 500) form.expectedBodyContains
  let intervalSec ← integer 10 86400 form.intervalSec
  let timeoutMs ← integer 100 120000 form.timeoutMs
  let tags ← optional (trimmed 0 300) form.tags
  if 0 ≤ form.slaTargetPercent ∧ form.slaTargetPercent ≤ 100 then
    return {
      name := name
      url := url
      method := form.method
      expectedStatus := expectedStatus
      expectedBodyContains := expectedBodyContains
      intervalSec := intervalSec
      timeoutMs := timeoutMs
      tags := tagList tags
      followRedirects := form.followRedirects != some false
      verifySsl := form.verifySsl != some false
      slaTargetPercent := form.slaTargetPercent }
  else none

structure EndpointInput.Formed (input : EndpointInput) : Prop where
  name : Sized 1 120 input.name
  url : Sized 1 2048 input.url
  expectedStatus : 100 ≤ input.expectedStatus ∧ input.expectedStatus ≤ 599
  expectedBodyContains : ∀ text ∈ input.expectedBodyContains, Sized 0 500 text
  intervalSec : 10 ≤ input.intervalSec ∧ input.intervalSec ≤ 86400
  timeoutMs : 100 ≤ input.timeoutMs ∧ input.timeoutMs ≤ 120000
  tags : ∀ tag ∈ input.tags, tag ≠ ""
  slaTargetPercent : 0 ≤ input.slaTargetPercent ∧ input.slaTargetPercent ≤ 100

theorem formed_of_endpointSchema {form : EndpointForm} {input : EndpointInput} (h : endpointSchema form = some input) :
    input.Formed := by
  simp only [endpointSchema, Option.bind_eq_bind, Option.bind_eq_some_iff, Option.ite_none_right_eq_some] at h
  obtain ⟨name, hname, url, hurl, status, hstatus, body, hbody, interval, hinterval, timeout, htimeout, tags, -, hsla,
    h⟩ := h
  obtain rfl := Option.some.inj h
  exact {
    name := sized_of_trimmed hname
    url := sized_of_trimmed hurl
    expectedStatus := of_integer hstatus
    expectedBodyContains := of_optional (fun _ _ => sized_of_trimmed) hbody
    intervalSec := of_integer hinterval
    timeoutMs := of_integer htimeout
    tags := fun _ => ne_of_mem_tagList
    slaTargetPercent := hsla }

structure NodeForm where
  kind : TopologyNodeKind
  refId : Option Nat
  label : String

/-- The node is put at random. -/
def nodeSchema (form : NodeForm) (positionX positionY : ℚ) : Option CreateNodeInput := do
  let label ← trimmed 1 120 form.label
  return { kind := form.kind, refId := form.refId, label := label, positionX := positionX, positionY := positionY }

structure DependencyForm where
  parentNodeId : Nat
  childNodeId : Nat
  kind : DependencyKind
  criticality : Severity
  label : Option String

def dependencySchema (form : DependencyForm) : Option CreateDependencyInput := do
  let label ← optional (trimmed 0 120) form.label
  return {
    parentNodeId := form.parentNodeId
    childNodeId := form.childNodeId
    kind := form.kind
    criticality := form.criticality
    label := label }

/-- `connectNodesAction`: a dependency drawn on the canvas. -/
def connected (parentNodeId childNodeId : Nat) : CreateDependencyInput :=
  ⟨parentNodeId, childNodeId, .dependsOn, .warning, none⟩

/-! ## Rules and actions -/

/-- `/^https?:\/\//i` -/
def isHttp (url : String) : Bool :=
  "http://".toList.isPrefixOf (url.toList.map Char.toLower) || "https://".toList.isPrefixOf (url.toList.map Char.toLower)

def emailListSchema (zod : Zod) (text : Option String) : Option (List String) :=
  (optional (trimmed 0 1000) text).bind fun text =>
    if (tagList text).all zod.email then some (tagList text) else none

def httpUrlSchema (zod : Zod) (text : Option String) : Option (Option String) :=
  (optional (trimmed 0 500) text).bind fun text =>
    if (truthy text).all fun url => isHttp url && zod.url url then some (truthy text) else none

/-- `threshold` is absent where its text is empty. -/
structure RuleForm where
  name : String
  description : Option String
  sourceKind : MetricSource
  sourceId : Option Nat
  metric : MetricType
  instanceFilter : Option String
  operator : Option AlertOperator
  threshold : Option ℚ
  anomalyDetection : Bool
  anomalySensitivity : Option AnomalySensitivity
  durationSec : ℚ
  severity : Severity
  channels : List NotificationChannel
  notifyEmails : Option String
  slackWebhookUrl : Option String
  teamsWebhookUrl : Option String
  webhookUrl : Option String
  cooldownSec : ℚ
  remediationActionId : Option Nat
  autoRemediate : Bool

def ruleSchema (zod : Zod) (form : RuleForm) : Option AlertRuleInput := do
  let name ← trimmed 1 120 form.name
  let description ← optional (trimmed 0 500) form.description
  let instanceFilter ← optional (trimmed 0 200) form.instanceFilter
  let durationSec ← integer 0 86400 form.durationSec
  let notifyEmails ← emailListSchema zod form.notifyEmails
  let slackWebhookUrl ← httpUrlSchema zod form.slackWebhookUrl
  let teamsWebhookUrl ← httpUrlSchema zod form.teamsWebhookUrl
  let webhookUrl ← httpUrlSchema zod form.webhookUrl
  let cooldownSec ← integer 60 86400 form.cooldownSec
  return {
    name := name
    description := truthy description
    sourceKind := form.sourceKind
    sourceId := form.sourceId
    metric := form.metric
    instanceFilter := truthy instanceFilter
    -- the select keeps a value when the threshold is left empty
    operator := if form.threshold.isNone then none else form.operator
    threshold := form.threshold
    anomalyDetection := form.anomalyDetection
    anomalySensitivity := form.anomalySensitivity.getD .medium
    durationSec := durationSec
    severity := form.severity
    channels := form.channels
    notifyEmails := notifyEmails
    slackWebhookUrl := slackWebhookUrl
    teamsWebhookUrl := teamsWebhookUrl
    webhookUrl := webhookUrl
    cooldownSec := cooldownSec
    remediationActionId := form.remediationActionId
    autoRemediate := form.autoRemediate }

structure AlertRuleInput.Formed (zod : Zod) (input : AlertRuleInput) : Prop where
  name : Sized 1 120 input.name
  description : ∀ text ∈ input.description, Sized 1 500 text
  instanceFilter : ∀ text ∈ input.instanceFilter, Sized 1 200 text
  durationSec : input.durationSec ≤ 86400
  notifyEmails : ∀ email ∈ input.notifyEmails, zod.email email = true
  webhooks : ∀ o ∈ [input.slackWebhookUrl, input.teamsWebhookUrl, input.webhookUrl], ∀ url ∈ o,
    Sized 1 500 url ∧ isHttp url = true ∧ zod.url url = true
  cooldownSec : 60 ≤ input.cooldownSec ∧ input.cooldownSec ≤ 86400

theorem of_emailListSchema {zod : Zod} {text : Option String} {emails : List String}
    (h : emailListSchema zod text = some emails) : ∀ email ∈ emails, zod.email email = true := by
  obtain ⟨t, -, h⟩ := Option.bind_eq_some_iff.mp h
  obtain ⟨hall, h⟩ := Option.ite_none_right_eq_some.mp h
  obtain rfl := Option.some.inj h
  exact List.all_eq_true.mp hall

theorem of_httpUrlSchema {zod : Zod} {text o : Option String} (h : httpUrlSchema zod text = some o) :
    ∀ url ∈ o, Sized 1 500 url ∧ isHttp url = true ∧ zod.url url = true := by
  obtain ⟨t, ht, h⟩ := Option.bind_eq_some_iff.mp h
  obtain ⟨hall, h⟩ := Option.ite_none_right_eq_some.mp h
  obtain rfl := Option.some.inj h
  intro url hurl
  rw [Option.mem_def.mp hurl, Option.all_some, Bool.and_eq_true] at hall
  exact ⟨sized_of_truthy ht url hurl, hall⟩

theorem formed_of_ruleSchema {zod : Zod} {form : RuleForm} {input : AlertRuleInput} (h : ruleSchema zod form = some input) :
    input.Formed zod := by
  simp only [ruleSchema, Option.bind_eq_bind, Option.bind_eq_some_iff] at h
  obtain ⟨name, hname, description, hdescription, filter, hfilter, duration, hduration, emails, hemails, slack, hslack,
    teams, hteams, webhook, hwebhook, cooldown, hcooldown, h⟩ := h
  obtain rfl := Option.some.inj h
  exact {
    name := sized_of_trimmed hname
    description := sized_of_truthy hdescription
    instanceFilter := sized_of_truthy hfilter
    durationSec := (of_integer hduration).2
    notifyEmails := of_emailListSchema hemails
    webhooks := by
      simpa using ⟨of_httpUrlSchema hslack, of_httpUrlSchema hteams, of_httpUrlSchema hwebhook⟩
    cooldownSec := of_integer hcooldown }

def unixLines : List Char → List Char
  | '\r' :: '\n' :: cs => '\n' :: unixLines cs
  | c :: cs => c :: unixLines cs
  | [] => []

/-- `text.split(/\r?\n/)` -/
def splitLines (text : String) : List String := (String.ofList (unixLines text.toList)).splitOn "\n"

/-- `args[name] = value` -/
def setArg (args : List (String × String)) (name value : String) : List (String × String) :=
  if args.any fun arg => arg.1 == name then args.map fun arg => if arg.1 = name then (name, value) else arg
  else args ++ [(name, value)]

/-- A `NAME=value` a line; blank lines are skipped. -/
def argsSchema (text : Option String) : Option (List (String × String)) := do
  let text ← optional (fun text => if Text.utf16Length text ≤ 20000 then some text else none) text
  let args ← ((splitLines (text.getD "")).filter fun line => Text.trim line ≠ "").foldlM (fun args line => do
    let (name, value) ← Wire.cut '=' line.toList
    let name := Text.trim (String.ofList name)
    if isArgName name then return setArg args name (String.ofList value) else none) []
  if args.length ≤ maxArgs then return args else none

def scriptSchema (script : String) : Option String :=
  if Text.utf16Length script ≤ maxScriptBytes then some (String.ofList (unixLines script.toList)) else none

structure ActionForm where
  name : String
  description : Option String
  runtime : ScriptRuntime
  scriptBody : String
  args : Option String
  timeoutSec : ℚ
  targetHostId : Option Nat
  allowedOsFamilies : List OsFamily
  requiresApproval : Bool
  cooldownSec : ℚ
  maxRunsPerHour : ℚ

def actionSchema (form : ActionForm) : Option RemediationActionInput := do
  let name ← trimmed 1 120 form.name
  let description ← optional (trimmed 0 500) form.description
  let scriptBody ← scriptSchema form.scriptBody
  let args ← argsSchema form.args
  let timeoutSec ← integer 1 3600 form.timeoutSec
  let cooldownSec ← integer 0 86400 form.cooldownSec
  let maxRunsPerHour ← integer 1 60 form.maxRunsPerHour
  return {
    name := name
    description := truthy description
    runtime := form.runtime
    scriptBody := scriptBody
    args := args
    timeoutSec := timeoutSec
    targetHostId := form.targetHostId
    allowedOsFamilies := form.allowedOsFamilies
    requiresApproval := form.requiresApproval
    cooldownSec := cooldownSec
    maxRunsPerHour := maxRunsPerHour }

structure RemediationActionInput.Formed (input : RemediationActionInput) : Prop where
  name : Sized 1 120 input.name
  description : ∀ text ∈ input.description, Sized 1 500 text
  timeoutSec : 1 ≤ input.timeoutSec ∧ input.timeoutSec ≤ 3600
  cooldownSec : input.cooldownSec ≤ 86400
  maxRunsPerHour : 1 ≤ input.maxRunsPerHour ∧ input.maxRunsPerHour ≤ 60

theorem formed_of_actionSchema {form : ActionForm} {input : RemediationActionInput} (h : actionSchema form = some input) :
    input.Formed := by
  simp only [actionSchema, Option.bind_eq_bind, Option.bind_eq_some_iff] at h
  obtain ⟨name, hname, description, hdescription, script, -, args, -, timeout, htimeout, cooldown, hcooldown, runs, hruns,
    h⟩ := h
  obtain rfl := Option.some.inj h
  exact {
    name := sized_of_trimmed hname
    description := sized_of_truthy hdescription
    timeoutSec := of_integer htimeout
    cooldownSec := (of_integer hcooldown).2
    maxRunsPerHour := of_integer hruns }

/-! ## Requests -/

/-- The input of the request comes from its form. -/
def Request.Submitted (zod : Zod) : Request → Prop
  | .registerHost _ _ hostname displayName _ _ _ => ∃ form, hostSchema form = some (hostname, displayName)
  | .registerDevice _ _ _ input | .updateDevice _ _ _ _ input => ∃ form, deviceSchema form = some input
  | .updateDatabaseSettings _ _ _ input => ∃ form, databaseSchema form = some input
  | .createEndpoint _ _ input | .updateEndpoint _ _ _ input => ∃ form, endpointSchema form = some input
  | .createNode _ _ input => ∃ form x y, nodeSchema form x y = some input
  | .createDependency _ _ input =>
    (∃ form, dependencySchema form = some input) ∨ ∃ parent child, input = connected parent child
  | .createAlertRule _ _ input | .updateAlertRule _ _ _ input => ∃ form, ruleSchema zod form = some input
  | .createRemediationAction _ _ input | .updateRemediationAction _ _ _ input => ∃ form, actionSchema form = some input
  | _ => True

end IkelyaneMonitor.Tenancy
