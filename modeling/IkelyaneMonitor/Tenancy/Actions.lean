import IkelyaneMonitor.Tenancy.Calls

/-!
# Remediation actions and their organization (`modules/remediation/actions.ts`)

* `createRemediationAction`, `updateRemediationAction`, `setRemediationActionEnabled`, `deleteRemediationAction`,
  `listRemediationActions`, `listRemediationHosts` : the functions of the module, on all the columns of the table and with
  their entries;
* one lemma for each: it stays within the organization of its requester.
-/

namespace IkelyaneMonitor.Tenancy
open Interleave Relational
open Auth (can)
open Remediation (JsonValue OsFamily RemediationMode RemediationWriteError ScriptRuntime readArgs validate)

structure RemediationActionInput extends Remediation.RemediationActionInput where
  name : String
  description : Option String

structure RemediationActionRow where
  action : RemediationAction
  args : List (String × String)
  scriptSha256 : String
  targetHostLabel : Option String

structure RemediationHostRow where
  id : Nat
  label : String
  enabled : Bool
  osFamily : OsFamily
  remediationMode : Option RemediationMode
  remediationAllowlist : List String
  deriving DecidableEq, Repr

def runtimeText : ScriptRuntime → String
  | .bash => "BASH"
  | .powershell => "POWERSHELL"
  | .python => "PYTHON"

section Functions
variable {URL : Type} (platform : Platform URL)

def RemediationActionInput.action (input : RemediationActionInput) (actor : Requester) (draws : Draws) : RemediationAction :=
  { input.toRemediationActionInput.row actor.orgId draws.id with
    name := input.name
    description := input.description
    createdBy := some actor.userId
    createdAt := draws.now
    updatedAt := draws.now }

def RemediationActionInput.update (input : RemediationActionInput) (now : Int) (action : RemediationAction) :
    RemediationAction :=
  { input.toRemediationActionInput.edit action.toRemediationAction with
    name := input.name
    description := input.description
    createdBy := action.createdBy
    createdAt := action.createdAt
    updatedAt := now }

/-- What both functions put on record. -/
def actionMetadata (input : RemediationActionInput) : List (String × JsonValue) :=
  [("name", .str input.name), ("runtime", .str (runtimeText input.runtime)),
    ("scriptSha256", .str (platform.sha256 input.scriptBody))]

def createRemediationAction (actor : Requester) (draws : Draws) (input : RemediationActionInput) :
    DbCall (Outcome RemediationWriteError Nat) :=
  if !can actor.role .remediationWrite then .ret (.fail .forbidden)
  else
    match validate input.toRemediationActionInput with
    | some invalid => .ret (.fail invalid)
    | none =>
      resolveHost actor.orgId input.targetHostId fun found =>
        if !found then .ret (.fail .invalidHost)
        else
          audited (remediationAction.create (input.action actor draws))
            (recordAudit actor draws ⟨.action, .created⟩ draws.id (some (.obj (actionMetadata platform input))))
            fun _ => .ok draws.id

def updateRemediationAction (actor : Requester) (draws : Draws) (id : Nat) (input : RemediationActionInput) :
    DbCall (Outcome RemediationWriteError Unit) :=
  if !can actor.role .remediationWrite then .ret (.fail .forbidden)
  else
    match validate input.toRemediationActionInput with
    | some invalid => .ret (.fail invalid)
    | none =>
      resolveHost actor.orgId input.targetHostId fun found =>
        if !found then .ret (.fail .invalidHost)
        else
          read (fun s => (remediationAction.findFirst s fun r => r.id == id && r.orgId == actor.orgId).map (·.scriptBody))
            fun previous =>
              match previous with
              | none => .ret (.fail .notFound)
              | some scriptBody =>
                -- by id alone: an action deleted meanwhile makes `update` throw
                audited (remediationAction.updateMany id (fun _ => true) (input.update draws.now))
                  (recordAudit actor draws ⟨.action, .updated⟩ id (some (.obj (actionMetadata platform input ++
                    [("previousScriptSha256", .str (platform.sha256 scriptBody))]))))
                  fun n => if n = 1 then .ok () else .thrown

def setRemediationActionEnabled (actor : Requester) (draws : Draws) (id : Nat) (enabled : Bool) :
    DbCall (Outcome RemediationWriteError Unit) :=
  if !can actor.role .remediationWrite then .ret (.fail .forbidden)
  else
    audited (remediationAction.updateMany id (fun r => r.orgId == actor.orgId) fun r =>
        { r with enabled := enabled, updatedAt := draws.now })
      (recordAudit actor draws ⟨.action, if enabled then .enabled else .disabled⟩ id none) (counted .notFound)

def deleteRemediationAction (actor : Requester) (draws : Draws) (id : Nat) : DbCall (Outcome RemediationWriteError Unit) :=
  if !can actor.role .remediationWrite then .ret (.fail .forbidden)
  else
    audited (remediationAction.deleteMany id fun r => r.orgId == actor.orgId)
      (recordAudit actor draws ⟨.action, .deleted⟩ id none) (counted .notFound)

def listRemediationActions (actor : Requester) : DbCall (Outcome ReadError (List RemediationActionRow)) :=
  if !can actor.role .remediationRead then .ret (.fail .forbidden)
  else
    read (fun s => (orderBy platform.collate (fun r => r.name)
        (remediationAction.findMany s fun r => r.orgId == actor.orgId)).map fun r =>
          (⟨r, readArgs r.args, platform.sha256 r.scriptBody,
            (hostOf s r.targetHostId).map fun h => h.displayName.getD h.hostname⟩ : RemediationActionRow))
      fun rows => .ret (.ok rows)

def listRemediationHosts (actor : Requester) : DbCall (Outcome ReadError (List RemediationHostRow)) :=
  if !can actor.role .remediationRead then .ret (.fail .forbidden)
  else
    read (fun s => orderBy platform.collate (fun h => h.hostname) (monitoredHost.findMany s fun h => h.orgId == actor.orgId))
      fun rows => .ret (.ok (rows.map fun h =>
        ⟨h.id, h.displayName.getD h.hostname, h.enabled, h.osFamily, h.remediationMode, h.remediationAllowlist⟩))

/-! ## Within the organization -/

variable (actor : Requester) (draws : Draws)

theorem createRemediationAction_confined (input : RemediationActionInput) :
    Confined actor.orgId (fun _ => True) (createRemediationAction platform actor draws input) := by
  refine .ite (fun _ => .ret _) fun _ => ?_
  split
  · exact .ret _
  · refine .resolveHost Steady.true fun found => .ite (fun _ => .ret _) fun hfound => .audited (fun s _ hs => ?_) rfl
    exact remediationAction.within_create rfl (hs.2 (by simpa using hfound)) fun k hk => by
      simp [remediationAction, Row.names] at hk

theorem updateRemediationAction_confined (id : Nat) (input : RemediationActionInput) :
    Confined actor.orgId (fun _ => True) (updateRemediationAction platform actor draws id input) := by
  refine .ite (fun _ => .ret _) fun _ => ?_
  split
  · exact .ret _
  refine .resolveHost Steady.true fun found => .ite (fun _ => .ret _) fun hfound => ?_
  refine .mono (P := Knows actor.orgId (refTo .host input.targetHostId)) (fun s hs => hs.2 (by simpa using hfound)) ?_
  refine .found remediationAction (Steady.knows _ _) (fun x hx => by simpa [remediationAction] using hx) fun previous => ?_
  split
  · exact .ret _
  -- the action is of the organization, or was
  · exact .audited (fun s _ hs => remediationAction.within_update
      (fun x hx hid _ => remediationAction.orgId_of_knows (hs.2 rfl) hx hid) (fun _ => rfl) (fun _ => rfl)
      (fun _ k hk => .inr (hs.1 k hk)) fun _ k hk => by simp [remediationAction, Row.names] at hk) rfl

theorem setRemediationActionEnabled_confined (id : Nat) (enabled : Bool) :
    Confined actor.orgId (fun _ => True) (setRemediationActionEnabled actor draws id enabled) :=
  .ite (fun _ => .ret _) fun _ => .audited (fun _ _ _ => remediationAction.within_edit (fun _ hx => eq_of_beq hx)
    (fun _ => rfl) (fun _ => rfl) (fun _ => rfl) fun _ => rfl) rfl

theorem deleteRemediationAction_confined (id : Nat) :
    Confined actor.orgId (fun _ => True) (deleteRemediationAction actor draws id) :=
  .ite (fun _ => .ret _) fun _ => .audited (fun _ _ _ => remediationAction.within_delete fun _ hx => eq_of_beq hx) rfl

theorem listRemediationActions_confined : Confined actor.orgId (fun _ => True) (listRemediationActions platform actor) := by
  refine .ite (fun _ => .ret _) fun _ => .read (Q := fun _ _ => True) (fun s t _ _ hs ht halike => ?_) (fun _ _ _ => trivial)
    (fun _ => Steady.true) fun _ => .ret _
  rw [remediationAction.findMany_alike halike fun x hx => by simpa [remediationAction] using hx]
  refine List.map_congr_left fun x hx => ?_
  obtain ⟨hx, hxo⟩ := List.mem_filter.mp (mem_orderBy.mp hx)
  rw [hostOf_alike hs ht halike (remediationAction.mem_all.mp hx) (eq_of_beq hxo) rfl]

theorem listRemediationHosts_confined : Confined actor.orgId (fun _ => True) (listRemediationHosts platform actor) := by
  refine .ite (fun _ => .ret _) fun _ => .look Steady.true (fun s t halike => ?_) fun _ => .ret _
  rw [monitoredHost.findMany_alike halike fun x hx => by simpa [monitoredHost] using hx]

end Functions

end IkelyaneMonitor.Tenancy
