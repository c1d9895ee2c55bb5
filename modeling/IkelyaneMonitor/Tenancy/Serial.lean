import IkelyaneMonitor.Relational.Serial
import IkelyaneMonitor.Tenancy.System

/-!
# Requests one at a time

* `Row.settings` : a row without its secrets and the columns that change without an entry of the trail;
  `AuditAction.permission` : who may do what an entry tells of;
* `Asked`, `Request.asks` : what a request asks for, if its role and its input allow that; `Request.audits` : the requests
  that leave an entry; `Request.effect` : the change and the entry of a request that succeeds;
* `settles` : every request commits what it asks for once, with its entry, and answers accordingly;
* `exists_order` : the settings of all organizations are what the changes of the requests that succeeded make of them, in the
  order of the trail.
-/

namespace IkelyaneMonitor.Tenancy
open Interleave Relational
open Auth (Permission can)
open Remediation (JsonValue validate)
open Servers (isHostname)
open Telemetry (MetricType)

/-- The row without the secrets of a host, the place of a node and the next run of a check. -/
def Row.settings : Row → Row
  | .host r =>
    .host { r with hmacSecretEnc := "", previousHmacSecretEnc := none, previousSecretExpiresAt := none, secretRotatedAt := 0 }
  | .endpoint r => .endpoint { r with nextRunAt := none }
  | .node r => .node { r with positionX := 0, positionY := 0 }
  | r => r

@[simp] theorem settings_key (r : Row) : r.settings.key = r.key := by cases r <;> rfl

@[simp] theorem settings_refs (r : Row) : r.settings.refs = r.refs := by cases r <;> rfl

theorem settings_orgId (r : Row) : r.settings.orgId = r.orgId := by cases r <;> rfl

theorem settings_release (k : Key) (r : Row) : r.settings.release k = (r.release k).map Row.settings := by
  cases r <;> rfl

theorem settings_blanks : schema.Blanks Row.settings where
  key := settings_key
  without := fun k r => by
    have hkey : schema.key r.settings = schema.key r := settings_key r
    have hrefs : schema.refs r.settings = schema.refs r := settings_refs r
    rw [Schema.without, Schema.without, hkey, hrefs]
    split_ifs
    · rfl
    · exact settings_release k r
    · rfl

def AuditAction.permission : AuditAction → Permission
  | ⟨.host, .rotated⟩ => .hostsRotateSecret
  | ⟨.host, _⟩ => .hostsWrite
  | ⟨.device, _⟩ => .devicesWrite
  | ⟨.database, _⟩ => .databasesWrite
  | ⟨.endpoint, _⟩ => .endpointsWrite
  | ⟨.node, _⟩ | ⟨.dependency, _⟩ => .topologyWrite
  | ⟨.rule, _⟩ => .alertsWrite
  | ⟨.action, _⟩ => .remediationWrite

/-! ## What a request asks for -/

structure Asked where
  actor : Requester
  draws : Draws
  action : AuditAction
  targetId : Nat
  change : Change Row Key

namespace Model

variable {τ : Type} (m : Model τ)

def put (x : τ) : Change Row Key := .put (m.row x).settings

def edit (id : Nat) (f : τ → τ) : Change Row Key :=
  .edit (m.kind, id) fun r => ((m.read r).map fun x => (m.row (f x)).settings).getD r

def drop (id : Nat) : Change Row Key := .drop (m.kind, id)

end Model

def ask (actor : Requester) (draws : Draws) (action : AuditAction) (targetId : Nat) (change : Option (Change Row Key)) :
    Option Asked :=
  if can actor.role action.permission then change.map fun c => ⟨actor, draws, action, targetId, c⟩ else none

def switched (enabled : Bool) : Verb := if enabled then .enabled else .disabled

section Asks
variable {URL : Type} (platform : Platform URL) (allowPrivateTargets : Bool)

/-- The address a device is stored with. -/
def addressOf (input : DeviceInput) : Option String :=
  if (platform.web.isIP input.ipAddress).isSome then platform.inet input.ipAddress else none

/-- The rule, if its condition and its webhooks pass. -/
def passedRule (input : AlertRuleInput) (change : Change Row Key) : Option (Change Row Key) :=
  if (conditionError input <|> webhookError platform input allowPrivateTargets).isNone then some change else none

def passedAction (input : RemediationActionInput) (change : Change Row Key) : Option (Change Row Key) :=
  if (validate input.toRemediationActionInput).isNone then some change else none

def Request.asks : Request → Option Asked
  | .registerHost actor draws hostname displayName key _ _ =>
    ask actor draws ⟨.host, .created⟩ draws.id (if isHostname (Text.trim hostname) then
      some (monitoredHost.put (registered actor.orgId (Text.trim hostname) displayName ("ikm_" ++ key) "" draws)) else none)
  | .rotateHostSecret actor draws hostId _ _ _ =>
    ask actor draws ⟨.host, .rotated⟩ hostId (some (monitoredHost.edit hostId id))
  | .setHostEnabled actor draws hostId enabled =>
    ask actor draws ⟨.host, switched enabled⟩ hostId (some (monitoredHost.edit hostId fun h => { h with enabled := enabled }))
  | .registerDevice actor draws ivs input =>
    ask actor draws ⟨.device, .created⟩ draws.id ((addressOf platform input).map fun ip =>
      networkDevice.put (input.row platform ivs ip actor.orgId draws))
  | .updateDevice actor draws ivs id input =>
    ask actor draws ⟨.device, .updated⟩ id ((addressOf platform input).map fun ip =>
      networkDevice.edit id (input.edit platform ivs ip))
  | .setDeviceEnabled actor draws id enabled =>
    ask actor draws ⟨.device, switched enabled⟩ id (some (networkDevice.edit id fun d => { d with enabled := enabled }))
  | .deleteDevice actor draws id => ask actor draws ⟨.device, .deleted⟩ id (some (networkDevice.drop id))
  | .updateDatabaseSettings actor draws id input =>
    ask actor draws ⟨.database, .updated⟩ id (some (databaseInstance.edit id fun r =>
      { r with tags := input.tags, slowQueryThresholdMs := input.slowQueryThresholdMs }))
  | .setDatabaseEnabled actor draws id enabled =>
    ask actor draws ⟨.database, switched enabled⟩ id (some (databaseInstance.edit id fun r => { r with enabled := enabled }))
  | .createEndpoint actor draws input =>
    ask actor draws ⟨.endpoint, .created⟩ draws.id ((truthy (normalizeUrl platform input.url)).map fun url =>
      endpointCheck.put (input.row url actor.orgId draws))
  | .updateEndpoint actor draws id input =>
    ask actor draws ⟨.endpoint, .updated⟩ id ((truthy (normalizeUrl platform input.url)).map fun url =>
      endpointCheck.edit id (input.edit url))
  | .setEndpointEnabled actor draws id enabled =>
    ask actor draws ⟨.endpoint, switched enabled⟩ id (some (endpointCheck.edit id fun e => { e with enabled := enabled }))
  | .deleteEndpoint actor draws id => ask actor draws ⟨.endpoint, .deleted⟩ id (some (endpointCheck.drop id))
  | .createNode actor draws input =>
    ask actor draws ⟨.node, .created⟩ draws.id (if input.kind.isLogical then
      some (topologyNode.put (input.row none actor.orgId draws)) else
        input.refId.map fun refId => topologyNode.put (input.row (some refId) actor.orgId draws))
  | .deleteNode actor draws id => ask actor draws ⟨.node, .deleted⟩ id (some (topologyNode.drop id))
  | .createDependency actor draws input =>
    ask actor draws ⟨.dependency, .created⟩ draws.id (if input.parentNodeId = input.childNodeId then none else
      some (serviceDependency.put (input.row actor.orgId draws)))
  | .deleteDependency actor draws id => ask actor draws ⟨.dependency, .deleted⟩ id (some (serviceDependency.drop id))
  | .createAlertRule actor draws input =>
    ask actor draws ⟨.rule, .created⟩ draws.id
      (passedRule platform allowPrivateTargets input (alertRule.put (input.row actor.orgId draws)))
  | .updateAlertRule actor draws id input =>
    ask actor draws ⟨.rule, .updated⟩ id (passedRule platform allowPrivateTargets input (alertRule.edit id input.edit))
  | .setAlertRuleEnabled actor draws id enabled =>
    ask actor draws ⟨.rule, switched enabled⟩ id (some (alertRule.edit id fun r => { r with enabled := enabled }))
  | .deleteAlertRule actor draws id => ask actor draws ⟨.rule, .deleted⟩ id (some (alertRule.drop id))
  | .createRemediationAction actor draws input =>
    ask actor draws ⟨.action, .created⟩ draws.id
      (passedAction input (remediationAction.put (input.action actor draws)))
  | .updateRemediationAction actor draws id input =>
    ask actor draws ⟨.action, .updated⟩ id (passedAction input (remediationAction.edit id (input.update draws.now)))
  | .setRemediationActionEnabled actor draws id enabled =>
    ask actor draws ⟨.action, switched enabled⟩ id
      (some (remediationAction.edit id fun r => { r with enabled := enabled, updatedAt := draws.now }))
  | .deleteRemediationAction actor draws id => ask actor draws ⟨.action, .deleted⟩ id (some (remediationAction.drop id))
  | _ => none

/-- The requests that leave an entry. -/
def Request.audits : Request → Bool
  | .registerHost .. | .rotateHostSecret .. | .setHostEnabled .. | .registerDevice .. | .updateDevice ..
  | .setDeviceEnabled .. | .deleteDevice .. | .updateDatabaseSettings .. | .setDatabaseEnabled .. | .createEndpoint ..
  | .updateEndpoint .. | .setEndpointEnabled .. | .deleteEndpoint .. | .createNode .. | .deleteNode ..
  | .createDependency .. | .deleteDependency .. | .createAlertRule .. | .updateAlertRule .. | .setAlertRuleEnabled ..
  | .deleteAlertRule .. | .createRemediationAction .. | .updateRemediationAction .. | .setRemediationActionEnabled ..
  | .deleteRemediationAction .. => true
  | _ => false

def Outcome.isOk {ε α : Type} : Outcome ε α → Bool
  | .ok _ => true
  | _ => false

/-- A write that was done. -/
def Response.succeeded : Response → Bool
  | .credentials r => r.isOk
  | .hostWritten r => r.isOk
  | .deviceCreated r => r.isOk
  | .deviceWritten r => r.isOk
  | .databaseWritten r => r.isOk
  | .endpointCreated r => r.isOk
  | .endpointWritten r => r.isOk
  | .topologyCreated r => r.isOk
  | .topologyWritten r => r.isOk
  | .ruleCreated r => r.isOk
  | .ruleWritten r => r.isOk
  | .actionCreated r => r.isOk
  | .actionWritten r => r.isOk
  | _ => false

/-- The effect of what is asked for, told by the values that `done` holds of. -/
def effectOf {α : Type} (asked : Option Asked) (done : α → Prop) : Effect Row Key AuditLog α where
  change := asked.map Asked.change
  entry := fun e => ∃ a ∈ asked, ∃ metadata, e = recordAudit a.actor a.draws a.action a.targetId metadata
  done := done

/-- What a request that has made its checks changes, in one transaction with its entry. -/
def Request.effect (request : Request) : Effect Row Key AuditLog Response :=
  effectOf (request.asks platform allowPrivateTargets) fun response => request.audits = true ∧ response.succeeded = true

end Asks

/-! ## Requests settle -/

section Settling
variable {α β : Type} {asked : Option Asked} {done : α → Prop}

/-- The call commits what is asked for at most once, with its entry, and its value tells whether it did. -/
abbrev Commits {α : Type} (asked : Option Asked) (done : α → Prop) (p : DbCall α) : Prop :=
  Settles schema Row.settings (effectOf asked done) p

namespace Commits

theorem ret {a : α} (h : ¬ done a) : Commits asked done (.ret a) := h

theorem ite {b : Prop} [Decidable b] {p q : DbCall α} (hp : b → Commits asked done p) (hq : ¬ b → Commits asked done q) :
    Commits asked done (if b then p else q) := by
  split
  · exact hp ‹_›
  · exact hq ‹_›

theorem read {f : Db → β} {k : β → DbCall α} (hk : ∀ b, Commits asked done (k b)) :
    Commits asked done (Relational.read f k) := fun s => hk (f s)

theorem resolveHost {orgId : Nat} {hostId : Option Nat} {k : Bool → DbCall α} (hk : ∀ b, Commits asked done (k b)) :
    Commits asked done (Tenancy.resolveHost orgId hostId k) := by
  cases hostId with
  | none => exact hk true
  | some id => exact read hk

theorem unrecorded {ws : List (Write Row Key)} {k : Option Nat → DbCall α}
    (hw : ∀ w ∈ ws, schema.Unrecorded Row.settings w) (hk : ∀ n, Commits asked done (k n)) :
    Commits asked done (schema.commit ws none k) := ⟨hw, fun _ => hk _⟩

theorem map {f : β → α} {p : DbCall β} {done' : β → Prop} (hdone : ∀ b, done (f b) ↔ done' b) (h : Commits asked done' p) :
    Commits asked done (p.map f) := by
  refine Settles.map ?_
  have hcomap : Effect.comap f (effectOf asked done) = effectOf asked done' := by
    simp only [Effect.comap, effectOf, hdone]
  rwa [hcomap]

variable {ε : Type} {w : Write Row Key} {done' : Nat → Outcome ε α}

theorem audited {actor : Requester} {draws : Draws} {action : AuditAction} {id : Nat} {metadata : Option JsonValue}
    {c : Change Row Key} (hasked : asked = some ⟨actor, draws, action, id, c⟩) (hw : schema.Does Row.settings w c)
    (hdone : ∀ rows rows' n, schema.perform w rows = some (rows', n) → ((done' n).isOk = true ↔ n = 1)) :
    Commits asked (fun o => o.isOk = true) (Tenancy.audited w (recordAudit actor draws action id metadata) done') := by
  subst hasked
  refine ⟨⟨_, rfl, metadata, rfl⟩, ⟨w, c, rfl, rfl, hw⟩, fun s => ⟨_, rfl, ?_⟩⟩
  cases hp : schema.perform w s.rows with
  | none => simp [Schema.performAll, hp, Outcome.isOk, effectOf]
  | some r =>
      obtain ⟨rows', n⟩ := r
      simpa [Schema.performAll, hp, effectOf] using hdone _ _ _ hp

end Commits

namespace Model

variable {τ : Type} (m : Model τ)

theorem does_create (x : τ) : schema.Does Row.settings (m.create x) (m.put x) := rfl

theorem does_delete (id : Nat) (p : τ → Bool) : schema.Does Row.settings (m.deleteMany id p) (m.drop id) := rfl

theorem does_update {id : Nat} {p : τ → Bool} {f g : τ → τ} (hid : ∀ x, m.id (f x) = m.id x)
    (hf : ∀ x, ∃ y, (m.row x).settings = m.row y ∧ (m.row (f x)).settings = (m.row (g y)).settings) :
    schema.Does Row.settings (m.updateMany id p f) (m.edit id g) := by
  refine ⟨rfl, fun r hk _ => ?_⟩
  obtain ⟨x, rfl⟩ := m.row_of_key (congrArg Prod.fst hk)
  have hread : ∀ x, m.read (m.row x) = some x := fun x => m.read_iff.mpr rfl
  obtain ⟨y, hy, hfy⟩ := hf x
  simp only [hread, Option.map_some, Option.getD_some, hy]
  exact ⟨(m.key_row _).trans (by rw [hid, ← m.key_row]; exact hk), hfy⟩

theorem unrecorded_update {id : Nat} {p : τ → Bool} {f : τ → τ} (hid : ∀ x, m.id (f x) = m.id x)
    (hf : ∀ x, (m.row (f x)).settings = (m.row x).settings) :
    schema.Unrecorded Row.settings (m.updateMany id p f) := by
  intro r hk _
  obtain ⟨x, rfl⟩ := m.row_of_key (congrArg Prod.fst hk)
  have hread : m.read (m.row x) = some x := m.read_iff.mpr rfl
  simp only [hread, Option.map_some, Option.getD_some]
  exact ⟨(m.key_row _).trans (by rw [hid, ← m.key_row]; exact hk), hf x⟩

end Model

variable {ε : Type}

/-- A creation answers with the new row. -/
theorem done_create {τ : Type} (m : Model τ) (x : τ) (value : Nat → α) (rows rows' : List Row) (n : Nat)
    (h : schema.perform (m.create x) rows = some (rows', n)) :
    (Outcome.ok (ε := ε) (value n)).isOk = true ↔ n = 1 := by
  simp only [Schema.perform, Model.create, Option.ite_none_right_eq_some, Option.some.injEq, Prod.mk.injEq] at h
  simp [Outcome.isOk, ← h.2.2]

theorem done_counted {missing : ε} (w : Write Row Key) (rows rows' : List Row) (n : Nat)
    (_ : schema.perform w rows = some (rows', n)) : (counted missing n).isOk = true ↔ n = 1 := by
  unfold counted
  split <;> simp_all [Outcome.isOk]

/-- An update by id throws when the row is gone. -/
theorem done_thrown {value : α} (w : Write Row Key) (rows rows' : List Row) (n : Nat)
    (_ : schema.perform w rows = some (rows', n)) :
    (if n = 1 then Outcome.ok value else (Outcome.thrown : Outcome ε α)).isOk = true ↔ n = 1 := by
  split <;> simp_all [Outcome.isOk]

end Settling

/-! ## Each request -/

section Functions
variable {URL : Type} (platform : Platform URL) (allowPrivateTargets : Bool) (metricText : MetricType → String)
  (actor : Requester) (draws : Draws)

abbrev Request.Commits {ε α : Type} (request : Request) (p : DbCall (Outcome ε α)) : Prop :=
  Tenancy.Commits (request.asks platform allowPrivateTargets) (fun o : Outcome ε α => o.isOk = true) p

theorem ask_some {actor : Requester} {draws : Draws} {action : AuditAction} {id : Nat} {c : Change Row Key}
    (h : ¬ (!can actor.role action.permission) = true) :
      ask actor draws action id (some c) = some ⟨actor, draws, action, id, c⟩ := by
  rw [ask, if_pos (by simpa using h)]
  rfl

theorem not_ok_fail {ε α : Type} {e : ε} : ¬ (Outcome.fail e : Outcome ε α).isOk = true := Bool.false_ne_true

theorem not_ok_thrown {ε α : Type} : ¬ (Outcome.thrown : Outcome ε α).isOk = true := Bool.false_ne_true

theorem registerHost_commits (hostname : String) (displayName : Option String) (key secret : String) (iv : Crypto.Token) :
    (Request.registerHost actor draws hostname displayName key secret iv).Commits platform allowPrivateTargets
      (registerHost platform actor draws hostname displayName key secret iv) := by
  refine .ite (fun _ => .ret not_ok_fail) fun hcan => .ite (fun _ => .ret not_ok_fail) fun hname => .read fun taken =>
    .ite (fun _ => .ret not_ok_fail) fun _ => .audited ?_ (monitoredHost.does_create _) (done_create monitoredHost _
      fun _ => _)
  have hhost : isHostname (Text.trim hostname) = true := by simpa using hname
  simp only [Request.asks, hhost, if_true]
  exact ask_some hcan

theorem rotateHostSecret_commits (hostId : Nat) (secret : String) (iv : Crypto.Token) (now : Int) :
    (Request.rotateHostSecret actor draws hostId secret iv now).Commits platform allowPrivateTargets
      (rotateHostSecret platform actor draws hostId secret iv now) := by
  refine .ite (fun _ => .ret not_ok_fail) fun hcan => .read fun host => ?_
  cases host with
  | none => exact .ret not_ok_fail
  | some host =>
      exact .audited (ask_some hcan) (monitoredHost.does_update (fun _ => rfl) fun _ => ⟨_, rfl, rfl⟩) (done_thrown _)

theorem setHostEnabled_commits (hostId : Nat) (enabled : Bool) :
    (Request.setHostEnabled actor draws hostId enabled).Commits platform allowPrivateTargets
      (setHostEnabled actor draws hostId enabled) := by
  refine .ite (fun _ => .ret not_ok_fail) fun hcan =>
    .audited ?_ (monitoredHost.does_update (g := fun h => { h with enabled := enabled }) (fun _ => rfl) fun _ => ⟨_,
      rfl, rfl⟩)
      (done_counted _)
  cases enabled <;> exact ask_some hcan

theorem registerDevice_commits (ivs : DeviceIvs) (input : DeviceInput) :
    (Request.registerDevice actor draws ivs input).Commits platform allowPrivateTargets
      (registerDevice platform actor draws ivs input) := by
  refine .ite (fun _ => .ret not_ok_fail) fun hcan => .ite (fun _ => .ret not_ok_fail) fun hip =>
    .resolveHost fun found => .ite (fun _ => .ret not_ok_fail) fun _ => ?_
  split
  · exact .ret not_ok_thrown
  · rename_i ip hinet
    refine .read fun taken => .ite (fun _ => .ret not_ok_fail) fun _ =>
      .audited ?_ (networkDevice.does_create _) (done_create networkDevice _ fun _ => _)
    have haddress : addressOf platform input = some ip := by
      rw [addressOf, if_pos (by simpa [Option.isNone_iff_eq_none, Option.isSome_iff_ne_none] using hip), hinet]
    simp only [Request.asks, haddress, Option.map_some]
    exact ask_some hcan

theorem updateDevice_commits (ivs : DeviceIvs) (id : Nat) (input : DeviceInput) :
    (Request.updateDevice actor draws ivs id input).Commits platform allowPrivateTargets
      (updateDevice platform actor draws ivs id input) := by
  refine .ite (fun _ => .ret not_ok_fail) fun hcan => .ite (fun _ => .ret not_ok_fail) fun hip => .read fun existing =>
    .ite (fun _ => .ret not_ok_fail) fun _ => .resolveHost fun found => .ite (fun _ => .ret not_ok_fail) fun _ => ?_
  split
  · exact .ret not_ok_thrown
  · rename_i ip hinet
    refine .read fun conflict => .ite (fun _ => .ret not_ok_fail) fun _ =>
      .audited ?_ (networkDevice.does_update (fun _ => rfl) fun x => ⟨x, rfl, rfl⟩) (done_thrown _)
    have haddress : addressOf platform input = some ip := by
      rw [addressOf, if_pos (by simpa [Option.isNone_iff_eq_none, Option.isSome_iff_ne_none] using hip), hinet]
    simp only [Request.asks, haddress, Option.map_some]
    exact ask_some hcan

theorem setDeviceEnabled_commits (id : Nat) (enabled : Bool) :
    (Request.setDeviceEnabled actor draws id enabled).Commits platform allowPrivateTargets
      (setDeviceEnabled actor draws id enabled) :=
  .ite (fun _ => .ret not_ok_fail) fun hcan =>
    .audited (ask_some hcan) (networkDevice.does_update (fun _ => rfl) fun x => ⟨x, rfl, rfl⟩) (done_counted _)

theorem deleteDevice_commits (id : Nat) :
    (Request.deleteDevice actor draws id).Commits platform allowPrivateTargets (deleteDevice actor draws id) :=
  .ite (fun _ => .ret not_ok_fail) fun hcan =>
    .audited (ask_some hcan) (networkDevice.does_delete id _) (done_counted _)

theorem updateDatabaseSettings_commits (id : Nat) (input : DatabaseSettingsInput) :
    (Request.updateDatabaseSettings actor draws id input).Commits platform allowPrivateTargets
      (updateDatabaseSettings actor draws id input) :=
  .ite (fun _ => .ret not_ok_fail) fun hcan =>
    .audited (ask_some hcan) (databaseInstance.does_update (fun _ => rfl) fun x => ⟨x, rfl, rfl⟩) (done_counted _)

theorem setDatabaseEnabled_commits (id : Nat) (enabled : Bool) :
    (Request.setDatabaseEnabled actor draws id enabled).Commits platform allowPrivateTargets
      (setDatabaseEnabled actor draws id enabled) :=
  .ite (fun _ => .ret not_ok_fail) fun hcan =>
    .audited (ask_some hcan) (databaseInstance.does_update (fun _ => rfl) fun x => ⟨x, rfl, rfl⟩) (done_counted _)

theorem createEndpoint_commits (input : EndpointInput) :
    (Request.createEndpoint actor draws input).Commits platform allowPrivateTargets
      (createEndpoint platform actor draws input) := by
  refine .ite (fun _ => .ret not_ok_fail) fun hcan => ?_
  split
  · exact .ret not_ok_fail
  · rename_i url hurl
    refine .audited ?_ (endpointCheck.does_create _) (done_create endpointCheck _ fun _ => _)
    simp only [Request.asks, hurl, Option.map_some]
    exact ask_some hcan

theorem updateEndpoint_commits (id : Nat) (input : EndpointInput) :
    (Request.updateEndpoint actor draws id input).Commits platform allowPrivateTargets
      (updateEndpoint platform actor draws id input) := by
  refine .ite (fun _ => .ret not_ok_fail) fun hcan => ?_
  split
  · exact .ret not_ok_fail
  · rename_i url hurl
    refine .audited ?_ (endpointCheck.does_update (g := input.edit url) (fun _ => rfl) fun _ => ⟨_, rfl, rfl⟩)
      (done_counted _)
    simp only [Request.asks, hurl, Option.map_some]
    exact ask_some hcan

theorem setEndpointEnabled_commits (id : Nat) (enabled : Bool) :
    (Request.setEndpointEnabled actor draws id enabled).Commits platform allowPrivateTargets
      (setEndpointEnabled actor draws id enabled) :=
  .ite (fun _ => .ret not_ok_fail) fun hcan =>
    .audited (ask_some hcan) (endpointCheck.does_update (fun _ => rfl) fun _ => ⟨_, rfl, rfl⟩) (done_counted _)

theorem deleteEndpoint_commits (id : Nat) :
    (Request.deleteEndpoint actor draws id).Commits platform allowPrivateTargets (deleteEndpoint actor draws id) :=
  .ite (fun _ => .ret not_ok_fail) fun hcan =>
    .audited (ask_some hcan) (endpointCheck.does_delete id _) (done_counted _)

theorem refExists_commits {asked : Option Asked} {α : Type} {done : α → Prop} {orgId refId : Nat} {kind : TopologyNodeKind}
    {k : Bool → DbCall α} (hk : ∀ b, Commits asked done (k b)) : Commits asked done (refExists orgId kind refId k) := by
  cases kind <;> first | exact .read hk | exact hk false

theorem createNode_commits (input : CreateNodeInput) :
    (Request.createNode actor draws input).Commits platform allowPrivateTargets (createNode actor draws input) := by
  refine .ite (fun _ => .ret not_ok_fail) fun hcan => .ite (fun hlogical => ?_) fun hlogical => ?_
  · refine .audited ?_ (topologyNode.does_create _) (done_create topologyNode _ fun _ => _)
    simp only [Request.asks, hlogical, if_true]
    exact ask_some hcan
  split
  · exact .ret not_ok_fail
  · rename_i refId href
    refine refExists_commits fun found => .ite (fun _ => .ret not_ok_fail) fun _ => .read fun existing =>
      .ite (fun _ => .ret not_ok_fail) fun _ =>
        .audited ?_ (topologyNode.does_create _) (done_create topologyNode _ fun _ => _)
    simp only [Request.asks, hlogical, href, Option.map_some]
    exact ask_some hcan

theorem deleteNode_commits (id : Nat) :
    (Request.deleteNode actor draws id).Commits platform allowPrivateTargets (deleteNode actor draws id) :=
  .ite (fun _ => .ret not_ok_fail) fun hcan =>
    .audited (ask_some hcan) (topologyNode.does_delete id _) (done_counted _)

theorem createDependency_commits (input : CreateDependencyInput) :
    (Request.createDependency actor draws input).Commits platform allowPrivateTargets
      (createDependency actor draws input) := by
  refine .ite (fun _ => .ret not_ok_fail) fun hcan => .ite (fun _ => .ret not_ok_fail) fun hends => .read fun parent =>
    .read fun child => .ite (fun _ => .ret not_ok_fail) fun _ => .read fun existing =>
      .ite (fun _ => .ret not_ok_fail) fun _ =>
      .audited ?_ (serviceDependency.does_create _) (done_create serviceDependency _ fun _ => _)
  simp only [Request.asks, hends, if_false]
  exact ask_some hcan

theorem deleteDependency_commits (id : Nat) :
    (Request.deleteDependency actor draws id).Commits platform allowPrivateTargets (deleteDependency actor draws id) :=
  .ite (fun _ => .ret not_ok_fail) fun hcan =>
    .audited (ask_some hcan) (serviceDependency.does_delete id _) (done_counted _)

theorem saveRule_commits {α : Type} {asked : Option Asked} {input : AlertRuleInput}
    {save : DbCall (Outcome AlertRuleWriteError α)}
    (hsave : ¬ (!can actor.role .alertsWrite) = true →
      (conditionError input <|> webhookError platform input allowPrivateTargets) = none →
        Commits asked (fun o => o.isOk = true) save) :
    Commits asked (fun o => o.isOk = true) (saveRule platform actor input allowPrivateTargets save) := by
  refine .ite (fun _ => .ret not_ok_fail) fun hcan => ?_
  split
  · exact .ret not_ok_fail
  · rename_i hpassed
    have hremediation : Commits asked (fun o : Outcome AlertRuleWriteError α => o.isOk = true)
        (remediationInOrg actor.orgId input.remediationActionId fun found =>
          if !found then .ret (.fail .invalidRemediation) else save) := by
      have hk : ∀ found : Bool, Commits asked (fun o : Outcome AlertRuleWriteError α => o.isOk = true)
          (if !found then .ret (.fail .invalidRemediation) else save) :=
        fun found => .ite (fun _ => .ret not_ok_fail) fun _ => hsave hcan hpassed
      cases input.remediationActionId with
      | none => exact hk true
      | some id => exact .read hk
    split
    · exact hremediation
    · unfold sourceExists resolveSourceLabels
      split
      · exact .ite (fun _ => .ret not_ok_fail) fun _ => hremediation
      · exact .read fun labels => .ite (fun _ => .ret not_ok_fail) fun _ => hremediation

theorem createAlertRule_commits (input : AlertRuleInput) :
    (Request.createAlertRule actor draws input).Commits platform allowPrivateTargets
      (createAlertRule platform metricText actor draws input allowPrivateTargets) := by
  refine saveRule_commits platform allowPrivateTargets actor fun hcan hpassed =>
    .audited ?_ (alertRule.does_create _) (done_create alertRule _ fun _ => _)
  simp only [Request.asks, passedRule, hpassed, Option.isNone_none, if_true]
  exact ask_some hcan

theorem updateAlertRule_commits (id : Nat) (input : AlertRuleInput) :
    (Request.updateAlertRule actor draws id input).Commits platform allowPrivateTargets
      (updateAlertRule platform metricText actor draws id input allowPrivateTargets) := by
  refine saveRule_commits platform allowPrivateTargets actor fun hcan hpassed =>
    .audited ?_ (alertRule.does_update (g := input.edit) (fun _ => rfl) fun x => ⟨x, rfl, rfl⟩) (done_counted _)
  simp only [Request.asks, passedRule, hpassed, Option.isNone_none, if_true]
  exact ask_some hcan

theorem setAlertRuleEnabled_commits (id : Nat) (enabled : Bool) :
    (Request.setAlertRuleEnabled actor draws id enabled).Commits platform allowPrivateTargets
      (setAlertRuleEnabled actor draws id enabled) :=
  .ite (fun _ => .ret not_ok_fail) fun hcan =>
    .audited (ask_some hcan) (alertRule.does_update (fun _ => rfl) fun x => ⟨x, rfl, rfl⟩) (done_counted _)

theorem deleteAlertRule_commits (id : Nat) :
    (Request.deleteAlertRule actor draws id).Commits platform allowPrivateTargets (deleteAlertRule actor draws id) :=
  .ite (fun _ => .ret not_ok_fail) fun hcan =>
    .audited (ask_some hcan) (alertRule.does_delete id _) (done_counted _)

theorem createRemediationAction_commits (input : RemediationActionInput) :
    (Request.createRemediationAction actor draws input).Commits platform allowPrivateTargets
      (createRemediationAction platform actor draws input) := by
  refine .ite (fun _ => .ret not_ok_fail) fun hcan => ?_
  split
  · exact .ret not_ok_fail
  · rename_i hpassed
    refine .resolveHost fun found => .ite (fun _ => .ret not_ok_fail) fun _ =>
      .audited ?_ (remediationAction.does_create _) (done_create remediationAction _ fun _ => _)
    simp only [Request.asks, passedAction, hpassed, Option.isNone_none, if_true]
    exact ask_some hcan

theorem updateRemediationAction_commits (id : Nat) (input : RemediationActionInput) :
    (Request.updateRemediationAction actor draws id input).Commits platform allowPrivateTargets
      (updateRemediationAction platform actor draws id input) := by
  refine .ite (fun _ => .ret not_ok_fail) fun hcan => ?_
  split
  · exact .ret not_ok_fail
  · rename_i hpassed
    refine .resolveHost fun found => .ite (fun _ => .ret not_ok_fail) fun _ => .read fun previous => ?_
    cases previous with
    | none => exact .ret not_ok_fail
    | some scriptBody =>
        refine .audited ?_ (remediationAction.does_update (g := input.update draws.now) (fun _ => rfl) fun x => ⟨x, rfl, rfl⟩)
          (done_thrown _)
        simp only [Request.asks, passedAction, hpassed, Option.isNone_none, if_true]
        exact ask_some hcan

theorem setRemediationActionEnabled_commits (id : Nat) (enabled : Bool) :
    (Request.setRemediationActionEnabled actor draws id enabled).Commits platform allowPrivateTargets
      (setRemediationActionEnabled actor draws id enabled) :=
  .ite (fun _ => .ret not_ok_fail) fun hcan =>
    .audited (ask_some hcan) (remediationAction.does_update (fun _ => rfl) fun x => ⟨x, rfl, rfl⟩) (done_counted _)

theorem deleteRemediationAction_commits (id : Nat) :
    (Request.deleteRemediationAction actor draws id).Commits platform allowPrivateTargets
      (deleteRemediationAction actor draws id) :=
  .ite (fun _ => .ret not_ok_fail) fun hcan =>
    .audited (ask_some hcan) (remediationAction.does_delete id _) (done_counted _)

/-! ### Without an entry -/

/-- A call that leaves no entry is not told to have succeeded. -/
abbrev Silent {α : Type} (p : DbCall α) : Prop := Tenancy.Commits none (fun _ : α => False) p

/-- A call that reads once. -/
theorem silent_read {α β : Type} {b : Prop} [Decidable b] {a : α} {f : Db → β} {g : β → α} :
    Silent (if b then .ret a else Relational.read f fun x => .ret (g x)) :=
  .ite (fun _ => .ret not_false) fun _ => .read fun _ => .ret not_false

theorem silent_listDevicesForPoller (orgId pollerHostId : Nat) :
    Silent (listDevicesForPoller platform orgId pollerHostId) :=
  .read fun rows => by split <;> exact .ret not_false

theorem silent_listTopology (nodesFirst : Bool) : Silent (listTopology actor nodesFirst) :=
  .ite (fun _ => .ret not_false) fun _ => .ite (fun _ => .read fun _ => .read fun _ => .ret not_false) fun _ =>
    .read fun _ => .read fun _ => .ret not_false

theorem silent_resolveLabelsByKind {α : Type} {orgId : Nat} (groups : List (Telemetry.MetricSource × List Nat))
    {k : List (Telemetry.MetricSource × List (Nat × String)) → DbCall α} (hk : ∀ labels, Silent (k labels)) :
    Silent (resolveLabelsByKind orgId groups k) := by
  induction groups generalizing k with
  | nil => exact hk []
  | cons group groups ih =>
      obtain ⟨kind, ids⟩ := group
      unfold resolveLabelsByKind resolveSourceLabels
      split
      · exact ih fun more => hk _
      · exact .read fun labels => ih fun more => hk _

theorem silent_listAlertRules : Silent (listAlertRules platform actor) :=
  .ite (fun _ => .ret not_false) fun _ => .read fun _ => silent_resolveLabelsByKind _ fun _ => .ret not_false

theorem moveNode_unrecorded (orgId id : Nat) (x y : ℚ) : schema.Unrecorded Row.settings (moveNode orgId id x y) :=
  topologyNode.unrecorded_update (fun _ => rfl) fun _ => rfl

theorem silent_updateNodePosition (id : Nat) (x y : ℚ) : Silent (updateNodePosition actor id x y) := by
  refine .ite (fun _ => .ret not_false) fun _ => .unrecorded (fun w hw => ?_) fun _ => .ret not_false
  rw [List.mem_singleton.mp hw]
  exact moveNode_unrecorded _ _ _ _

theorem silent_updateNodePositions (positions : List NodePosition) : Silent (updateNodePositions actor positions) := by
  refine .ite (fun _ => .ret not_false) fun _ => .ite (fun _ => .ret not_false) fun _ =>
    .unrecorded (fun w hw => ?_) fun _ => .ret not_false
  obtain ⟨p, -, rfl⟩ := List.mem_map.mp hw
  exact moveNode_unrecorded _ _ _ _

theorem silent_requestEndpointCheck (id : Nat) : Silent (requestEndpointCheck actor id) := by
  refine .ite (fun _ => .ret not_false) fun _ => .unrecorded (fun w hw => ?_) fun _ => .ret not_false
  rw [List.mem_singleton.mp hw]
  exact endpointCheck.unrecorded_update (fun _ => rfl) fun _ => rfl

/-! ### All of them -/

variable {allowPrivateTargets}

theorem settles_silent {α : Type} {p : DbCall α} {f : α → Response} (request : Request) (haudits : request.audits = false)
    (hasks : request.asks platform allowPrivateTargets = none) (hp : Silent p) :
    Settles schema Row.settings (request.effect platform allowPrivateTargets) (p.map f) := by
  rw [Request.effect, hasks]
  exact Commits.map (fun a => by simp [haudits]) hp

theorem settles_audited {ε α : Type} {p : DbCall (Outcome ε α)} {f : Outcome ε α → Response} (request : Request)
    (haudits : request.audits = true) (hf : ∀ o, (f o).succeeded = o.isOk)
    (hp : request.Commits platform allowPrivateTargets p) :
    Settles schema Row.settings (request.effect platform allowPrivateTargets) (p.map f) :=
  Commits.map (fun o => by simp [haudits, hf]) hp

variable (allowPrivateTargets)

theorem settles (request : Request) :
    Settles schema Row.settings (request.effect platform allowPrivateTargets)
      (request.call platform metricText allowPrivateTargets) := by
  cases request with
  | listHosts actor now => exact settles_silent platform _ rfl rfl silent_read
  | listDevices actor => exact settles_silent platform _ rfl rfl silent_read
  | listDevicesForPoller orgId pollerHostId =>
      exact settles_silent platform _ rfl rfl (silent_listDevicesForPoller platform orgId pollerHostId)
  | listDatabases actor => exact settles_silent platform _ rfl rfl silent_read
  | listEndpoints actor => exact settles_silent platform _ rfl rfl silent_read
  | requestEndpointCheck actor id => exact settles_silent platform _ rfl rfl (silent_requestEndpointCheck actor id)
  | listTopology actor nodesFirst => exact settles_silent platform _ rfl rfl (silent_listTopology actor nodesFirst)
  | updateNodePosition actor id x y => exact settles_silent platform _ rfl rfl (silent_updateNodePosition actor id x y)
  | updateNodePositions actor positions =>
      exact settles_silent platform _ rfl rfl (silent_updateNodePositions actor positions)
  | listAlertRules actor => exact settles_silent platform _ rfl rfl (silent_listAlertRules platform actor)
  | listRemediationActions actor => exact settles_silent platform _ rfl rfl silent_read
  | listRemediationHosts actor => exact settles_silent platform _ rfl rfl silent_read
  | listAuditLog actor limit => exact settles_silent platform _ rfl rfl silent_read
  | registerHost actor draws hostname displayName key secret iv =>
      exact settles_audited platform _ rfl (fun _ => rfl)
        (registerHost_commits platform _ actor draws hostname displayName key secret iv)
  | rotateHostSecret actor draws hostId secret iv now =>
      exact settles_audited platform _ rfl (fun _ => rfl)
        (rotateHostSecret_commits platform _ actor draws hostId secret iv now)
  | setHostEnabled actor draws hostId enabled =>
      exact settles_audited platform _ rfl (fun _ => rfl) (setHostEnabled_commits platform _ actor draws hostId enabled)
  | registerDevice actor draws ivs input =>
      exact settles_audited platform _ rfl (fun _ => rfl) (registerDevice_commits platform _ actor draws ivs input)
  | updateDevice actor draws ivs id input =>
      exact settles_audited platform _ rfl (fun _ => rfl) (updateDevice_commits platform _ actor draws ivs id input)
  | setDeviceEnabled actor draws id enabled =>
      exact settles_audited platform _ rfl (fun _ => rfl) (setDeviceEnabled_commits platform _ actor draws id enabled)
  | deleteDevice actor draws id =>
      exact settles_audited platform _ rfl (fun _ => rfl) (deleteDevice_commits platform _ actor draws id)
  | updateDatabaseSettings actor draws id input =>
      exact settles_audited platform _ rfl (fun _ => rfl) (updateDatabaseSettings_commits platform _ actor draws id input)
  | setDatabaseEnabled actor draws id enabled =>
      exact settles_audited platform _ rfl (fun _ => rfl) (setDatabaseEnabled_commits platform _ actor draws id enabled)
  | createEndpoint actor draws input =>
      exact settles_audited platform _ rfl (fun _ => rfl) (createEndpoint_commits platform _ actor draws input)
  | updateEndpoint actor draws id input =>
      exact settles_audited platform _ rfl (fun _ => rfl) (updateEndpoint_commits platform _ actor draws id input)
  | setEndpointEnabled actor draws id enabled =>
      exact settles_audited platform _ rfl (fun _ => rfl) (setEndpointEnabled_commits platform _ actor draws id enabled)
  | deleteEndpoint actor draws id =>
      exact settles_audited platform _ rfl (fun _ => rfl) (deleteEndpoint_commits platform _ actor draws id)
  | createNode actor draws input =>
      exact settles_audited platform _ rfl (fun _ => rfl) (createNode_commits platform _ actor draws input)
  | deleteNode actor draws id =>
      exact settles_audited platform _ rfl (fun _ => rfl) (deleteNode_commits platform _ actor draws id)
  | createDependency actor draws input =>
      exact settles_audited platform _ rfl (fun _ => rfl) (createDependency_commits platform _ actor draws input)
  | deleteDependency actor draws id =>
      exact settles_audited platform _ rfl (fun _ => rfl) (deleteDependency_commits platform _ actor draws id)
  | createAlertRule actor draws input =>
      exact settles_audited platform _ rfl (fun _ => rfl) (createAlertRule_commits platform _ metricText actor draws input)
  | updateAlertRule actor draws id input =>
      exact settles_audited platform _ rfl (fun _ => rfl) (updateAlertRule_commits platform _ metricText actor draws id input)
  | setAlertRuleEnabled actor draws id enabled =>
      exact settles_audited platform _ rfl (fun _ => rfl) (setAlertRuleEnabled_commits platform _ actor draws id enabled)
  | deleteAlertRule actor draws id =>
      exact settles_audited platform _ rfl (fun _ => rfl) (deleteAlertRule_commits platform _ actor draws id)
  | createRemediationAction actor draws input =>
      exact settles_audited platform _ rfl (fun _ => rfl) (createRemediationAction_commits platform _ actor draws input)
  | updateRemediationAction actor draws id input =>
      exact settles_audited platform _ rfl (fun _ => rfl) (updateRemediationAction_commits platform _ actor draws id input)
  | setRemediationActionEnabled actor draws id enabled =>
      exact settles_audited platform _ rfl (fun _ => rfl)
        (setRemediationActionEnabled_commits platform _ actor draws id enabled)
  | deleteRemediationAction actor draws id =>
      exact settles_audited platform _ rfl (fun _ => rfl) (deleteRemediationAction_commits platform _ actor draws id)

end Functions

/-! ## One order for all -/

section Runs
variable {URL : Type} {platform : Platform URL} {metricText : MetricType → String} {allowPrivateTargets : Bool}
  {requests : Nat → Request} {faults : Nat → Option Nat} {s : Db} {c c' : System}

theorem start_settles (i : Nat) :
    Settles schema Row.settings ((requests i).effect platform allowPrivateTargets)
      ((start platform metricText allowPrivateTargets requests faults s).calls i) := by
  have hcall := settles platform allowPrivateTargets metricText (requests i)
  have hlost : ¬ ((requests i).effect platform allowPrivateTargets).done .lost := fun h => Bool.false_ne_true h.2
  simp only [start]
  cases faults i with
  | none => exact hcall
  | some n => exact hcall.failAt hlost n

theorem exists_order (hs : schema.Sound s.rows s.drawn)
    (h : Reach schema.sem anyStep (start platform metricText allowPrivateTargets requests faults s) c) :
    ∃ order, Linearizes schema Row.settings (fun i => (requests i).effect platform allowPrivateTargets) s c order := by
  obtain ⟨order, -, horder, -⟩ := linearizable settings_blanks (start_settles (s := s)) ⟨hs.nodup, hs.isDrawn⟩ h .refl
  exact ⟨order, horder⟩

/-- What is asked for by a request that has its place in the order. -/
theorem asked_of_mem {order : List Nat}
    (h : Linearizes schema Row.settings (fun i => (requests i).effect platform allowPrivateTargets) s c order) {i : Nat}
    (hi : i ∈ order) : ∃ a, (requests i).asks platform allowPrivateTargets = some a := by
  obtain ⟨entries, -, hforall⟩ := h.log
  obtain ⟨n, hn, rfl⟩ := List.mem_iff_getElem.mp hi
  obtain ⟨a, ha, -⟩ := hforall.get hn (hforall.length_eq ▸ hn)
  exact ⟨a, ha⟩

/-- The row that a change is about. -/
def changeKey : Change Row Key → Key
  | .put r => r.key
  | .edit k _ => k
  | .drop k => k

theorem ask_eq_some {actor : Requester} {draws : Draws} {action : AuditAction} {id : Nat} {change : Option (Change Row Key)}
    {a : Asked} (h : ask actor draws action id change = some a) :
    can actor.role action.permission = true ∧ ∃ c, change = some c ∧ a = ⟨actor, draws, action, id, c⟩ := by
  unfold ask at h
  split at h
  · obtain ⟨c, hc, rfl⟩ := Option.map_eq_some_iff.mp h
    exact ⟨‹_›, c, hc, rfl⟩
  · cases h

theorem changeKey_some {c c' : Change Row Key} (h : some c = some c') : changeKey c' = changeKey c := by
  rw [Option.some.inj h]

theorem changeKey_map {τ : Type} {o : Option τ} {f : τ → Change Row Key} {c : Change Row Key} {k : Key} (h : o.map f = some c)
    (hf : ∀ x, changeKey (f x) = k) : changeKey c = k := by
  obtain ⟨x, -, rfl⟩ := Option.map_eq_some_iff.mp h
  exact hf x

theorem changeKey_ite {b : Prop} [Decidable b] {o o' : Option (Change Row Key)} {c : Change Row Key} {k : Key}
    (h : (if b then o else o') = some c) (ho : o = some c → changeKey c = k) (ho' : o' = some c → changeKey c = k) :
    changeKey c = k := by
  split at h
  · exact ho h
  · exact ho' h

/-- A request changes the row that its entry is about. -/
theorem asks_key {request : Request} {a : Asked} (h : request.asks platform allowPrivateTargets = some a) :
    changeKey a.change = (a.action.kind, a.targetId) := by
  cases request <;> first | cases h | obtain ⟨-, c, hc, rfl⟩ := ask_eq_some h
  case registerDevice | updateDevice | createEndpoint | updateEndpoint => exact changeKey_map hc fun _ => rfl
  case registerHost | createAlertRule | updateAlertRule | createRemediationAction | updateRemediationAction =>
    exact changeKey_ite hc changeKey_some nofun
  case createDependency => exact changeKey_ite hc nofun changeKey_some
  case createNode => exact changeKey_ite hc changeKey_some fun hc => changeKey_map hc fun _ => rfl
  all_goals exact changeKey_some hc

/-- A role without a permission to write asks for nothing. -/
theorem asks_eq_none {request : Request}
    (h : ∀ actor ∈ request.actor?, ∀ action : AuditAction, can actor.role action.permission = false) :
    request.asks platform allowPrivateTargets = none := by
  have hask : ∀ {actor draws action id change}, actor ∈ request.actor? → ask actor draws action id change = none := by
    intro actor draws action id change hactor
    rw [ask, h actor hactor action, if_neg Bool.false_ne_true]
  cases request <;> first | rfl | exact hask rfl

/-! ## Roles -/

theorem can_of_operator {role : Auth.Role} (h : role = .viewer ∨ role = .operator) (action : AuditAction) :
    can role action.permission = false := by
  obtain ⟨kind, verb⟩ := action
  rcases h with rfl | rfl <;> cases kind <;> cases verb <;> decide

/-- The settings and the trail of an organization whose requesters are all viewers or operators stay as they are. -/
theorem operators_change_no_settings {org : Nat → Nat} (horg : ∀ i, (requests i).orgId = org i)
    (hs : schema.Sound s.rows s.drawn) {d : Nat}
    (hroles : ∀ i, org i = d → ∀ actor ∈ (requests i).actor?, actor.role = .viewer ∨ actor.role = .operator) {is : List Nat}
    (hc : (start platform metricText allowPrivateTargets requests faults s).run schema.sem is = some c) :
    (schema.settings Row.settings (schema.view d c.store.rows) = schema.settings Row.settings (schema.view d s.rows)) ∧
      c.store.log.filter (fun e => e.orgId = d) = s.log.filter fun e => e.orgId = d := by
  -- nobody else matters, so let nobody else move
  obtain ⟨c₂, hc₂, halike⟩ := Secure.alone (S := secure schema AuditLog.orgId org)
    (c := start platform metricText allowPrivateTargets requests faults s) hs (start_sat horg) d hc
  obtain ⟨order, h⟩ := exists_order hs (Reach.of_run hc₂)
  have hempty : order = [] := by
    refine List.eq_nil_iff_forall_not_mem.mpr fun i hi => ?_
    by_cases hd : org i = d
    · obtain ⟨a, ha⟩ := asked_of_mem h hi
      rw [asks_eq_none fun actor hactor => can_of_operator (hroles i hd actor hactor)] at ha
      cases ha
    · obtain ⟨a, ha, hdone⟩ := (h.succeeded i).mp hi
      have hcall := Conf.run_calls hc₂ (i := i) (by simp [secure, hd])
      have hsettles : Settles schema Row.settings ((requests i).effect platform allowPrivateTargets)
          ((start platform metricText allowPrivateTargets requests faults s).calls i) := start_settles i
      rw [← hcall, ha] at hsettles
      exact hsettles hdone
  subst hempty
  obtain ⟨entries, hlog, hforall⟩ := h.log
  obtain rfl := List.forall₂_nil_left_iff.mp hforall
  have hrows : schema.view d c₂.store.rows = schema.view d c.store.rows := halike.rows
  have hkeyed := sound_of_start horg hs (Reach.of_run hc₂)
  constructor
  · rw [← hrows]
    funext k
    rw [Schema.settings_view settings_orgId hkeyed.nodup, Schema.settings_view settings_orgId hs.nodup]
    exact congrArg _ (congrFun h.settings k)
  · rw [← halike.log, hlog, List.append_nil]

/-- A check of the first organization, with the entry of its creation. -/
def checkedDb : Db where
  rows := [.endpoint ⟨⟨5, 1, 60, true, some 100, .UNKNOWN, 0, none, none, none, none, none, none, none⟩, "api",
    "http://192.0.2.7/", .GET, 200, none, 5000, ["eu"], [], false, true, 99, 0⟩]
  drawn := [(.endpoint, 5)]
  log := [recordAudit (ofOrganization 1 .owner) ⟨5, 19, 0⟩ ⟨.endpoint, .created⟩ 5 none]

/-- An operator has the check run and tries to delete it, while another organization draws a node. -/
def operating : Nat → Request
  | 0 => .createNode (ofOrganization 2 .owner) ⟨10, 20, 0⟩ ⟨.service, none, "api", 0, 0⟩
  | 1 => .requestEndpointCheck (ofOrganization 1 .operator) 5
  | 2 => .deleteEndpoint (ofOrganization 1 .operator) ⟨0, 21, 0⟩ 5
  | _ => .listEndpoints (ofOrganization 1 .viewer)

theorem operators_change_no_settings_operating : ∃ c : System,
    (start plain (fun _ => "") false operating (fun _ => none) checkedDb).run schema.sem [1, 0, 3] = some c ∧
    c.calls 1 = .ret (.endpointWritten (.ok ())) ∧ c.calls 2 = .ret (.endpointWritten (.fail .forbidden)) ∧
    (schema.settings Row.settings (schema.view 1 c.store.rows) (.endpoint, 5)).isSome = true ∧
    schema.settings Row.settings (schema.view 1 c.store.rows) =
      schema.settings Row.settings (schema.view 1 checkedDb.rows) ∧
    c.store.log.filter (fun e => e.orgId = 1) = checkedDb.log := by
  obtain ⟨c, hc⟩ := Option.isSome_iff_exists.mp (show ((start plain (fun _ => "") false operating (fun _ => none)
    checkedDb).run schema.sem [1, 0, 3]).isSome = true by decide +kernel)
  have hsound : schema.Sound checkedDb.rows checkedDb.drawn := by
    constructor <;> norm_num [checkedDb, schema, Row.key, Row.check, Row.refs, Row.names]
  have horg : ∀ i, (operating i).orgId = (operating i).orgId := fun _ => rfl
  have hroles : ∀ i, (operating i).orgId = 1 → ∀ actor ∈ (operating i).actor?,
      actor.role = .viewer ∨ actor.role = .operator := by
    intro i hi actor hactor
    rcases i with _ | _ | _ | i
    · cases hi
    · exact .inr (Option.some.inj hactor ▸ rfl)
    · exact .inr (Option.some.inj hactor ▸ rfl)
    · exact .inl (Option.some.inj hactor ▸ rfl)
  obtain ⟨hsettings, hlog⟩ := operators_change_no_settings horg hsound hroles hc
  have hanswers : c.calls 1 = .ret (.endpointWritten (.ok ())) ∧ c.calls 2 = .ret (.endpointWritten (.fail .forbidden)) := by
    cases hc
    exact ⟨rfl, rfl⟩
  refine ⟨c, hc, hanswers.1, hanswers.2, ?_, hsettings, hlog⟩
  rw [hsettings]
  decide +kernel

end Runs

end IkelyaneMonitor.Tenancy
