import IkelyaneMonitor.Tenancy.Calls

/-!
# Synthetic checks (`modules/saas/endpoints.ts`)

* `createEndpoint`, `updateEndpoint`, `setEndpointEnabled`, `deleteEndpoint`, `requestEndpointCheck`, `listEndpoints` : the
  functions of the module, `normalizeUrl` : the targets they take;
* one lemma for each: it stays within the organization of its requester.
-/

namespace IkelyaneMonitor.Tenancy
open Interleave Relational
open Auth (can)
open Remediation (JsonValue)

structure EndpointInput where
  name : String
  url : String
  method : HttpMethod
  expectedStatus : Nat
  expectedBodyContains : Option String
  intervalSec : Nat
  timeoutMs : Nat
  tags : List String
  followRedirects : Bool
  verifySsl : Bool
  slaTargetPercent : ℚ

inductive EndpointWriteError where
  | forbidden | invalidUrl | notFound
  deriving DecidableEq, Repr

section Functions
variable {URL : Type} (platform : Platform URL)

def normalizeUrl (input : String) : Option String :=
  (platform.web.parse input none).bind fun url =>
    if platform.web.protocol url ≠ "http:" ∧ platform.web.protocol url ≠ "https:" then none
    else some (platform.href url)

def EndpointInput.row (input : EndpointInput) (url : String) (orgId : Nat) (draws : Draws) : EndpointCheck :=
  { Saas.EndpointCheck.created orgId input.intervalSec draws.id with
    name := input.name
    url := url
    method := input.method
    expectedStatus := input.expectedStatus
    expectedBodyContains := truthy input.expectedBodyContains
    timeoutMs := input.timeoutMs
    regions := []
    tags := input.tags
    followRedirects := input.followRedirects
    verifySsl := input.verifySsl
    slaTargetPercent := input.slaTargetPercent
    createdAt := draws.now }

/-- The edited check runs right away. -/
def EndpointInput.edit (input : EndpointInput) (url : String) (endpoint : EndpointCheck) : EndpointCheck :=
  { endpoint with
    name := input.name
    url := url
    method := input.method
    expectedStatus := input.expectedStatus
    expectedBodyContains := truthy input.expectedBodyContains
    intervalSec := input.intervalSec
    timeoutMs := input.timeoutMs
    tags := input.tags
    followRedirects := input.followRedirects
    verifySsl := input.verifySsl
    slaTargetPercent := input.slaTargetPercent
    nextRunAt := none }

def endpointMetadata (input : EndpointInput) (url : String) : Option JsonValue :=
  some (.obj [("name", .str input.name), ("url", .str url)])

def createEndpoint (actor : Requester) (draws : Draws) (input : EndpointInput) : DbCall (Outcome EndpointWriteError Nat) :=
  if !can actor.role .endpointsWrite then .ret (.fail .forbidden)
  else
    match truthy (normalizeUrl platform input.url) with
    | none => .ret (.fail .invalidUrl)
    | some url =>
      audited (endpointCheck.create (input.row url actor.orgId draws))
        (recordAudit actor draws ⟨.endpoint, .created⟩ draws.id (endpointMetadata input url)) fun _ => .ok draws.id

def updateEndpoint (actor : Requester) (draws : Draws) (id : Nat) (input : EndpointInput) :
    DbCall (Outcome EndpointWriteError Unit) :=
  if !can actor.role .endpointsWrite then .ret (.fail .forbidden)
  else
    match truthy (normalizeUrl platform input.url) with
    | none => .ret (.fail .invalidUrl)
    | some url =>
      audited (endpointCheck.updateMany id (fun e => e.orgId == actor.orgId) (input.edit url))
        (recordAudit actor draws ⟨.endpoint, .updated⟩ id (endpointMetadata input url)) (counted .notFound)

def setEndpointEnabled (actor : Requester) (draws : Draws) (id : Nat) (enabled : Bool) :
    DbCall (Outcome EndpointWriteError Unit) :=
  if !can actor.role .endpointsWrite then .ret (.fail .forbidden)
  else
    audited (endpointCheck.updateMany id (fun e => e.orgId == actor.orgId) fun e =>
        { e with enabled := enabled, nextRunAt := if enabled then none else e.nextRunAt })
      (recordAudit actor draws ⟨.endpoint, if enabled then .enabled else .disabled⟩ id none) (counted .notFound)

def deleteEndpoint (actor : Requester) (draws : Draws) (id : Nat) : DbCall (Outcome EndpointWriteError Unit) :=
  if !can actor.role .endpointsWrite then .ret (.fail .forbidden)
  else
    audited (endpointCheck.deleteMany id fun e => e.orgId == actor.orgId)
      (recordAudit actor draws ⟨.endpoint, .deleted⟩ id none) (counted .notFound)

def requestEndpointCheck (actor : Requester) (id : Nat) : DbCall (Outcome EndpointWriteError Unit) :=
  if !can actor.role .endpointsCheck then .ret (.fail .forbidden)
  else
    unaudited (endpointCheck.updateMany id (fun e => e.orgId == actor.orgId && e.enabled) fun e =>
      { e with nextRunAt := none })
      (counted .notFound)

def listEndpoints (actor : Requester) : DbCall (Outcome ReadError (List EndpointCheck)) :=
  if !can actor.role .endpointsRead then .ret (.fail .forbidden)
  else
    read (fun s => orderBy platform.collate (fun e => e.name) (endpointCheck.findMany s fun e => e.orgId == actor.orgId))
      fun rows => .ret (.ok rows)

/-! ## Within the organization -/

variable (actor : Requester) (draws : Draws)

theorem createEndpoint_confined (input : EndpointInput) :
    Confined actor.orgId (fun _ => True) (createEndpoint platform actor draws input) := by
  refine .ite (fun _ => .ret _) fun _ => ?_
  split
  · exact .ret _
  · refine .audited (fun s _ _ => endpointCheck.within_create (s := s) rfl (fun k hk => ?_) fun k hk => ?_) rfl
    · simp [endpointCheck, Row.refs] at hk
    · simp [endpointCheck, Row.names] at hk

theorem updateEndpoint_confined (id : Nat) (input : EndpointInput) :
    Confined actor.orgId (fun _ => True) (updateEndpoint platform actor draws id input) := by
  refine .ite (fun _ => .ret _) fun _ => ?_
  split
  · exact .ret _
  · exact .audited (fun _ _ _ => endpointCheck.within_edit (fun _ hx => eq_of_beq hx) (fun _ => rfl) (fun _ => rfl)
      (fun _ => rfl) fun _ => rfl) rfl

theorem setEndpointEnabled_confined (id : Nat) (enabled : Bool) :
    Confined actor.orgId (fun _ => True) (setEndpointEnabled actor draws id enabled) :=
  .ite (fun _ => .ret _) fun _ => .audited (fun _ _ _ => endpointCheck.within_edit (fun _ hx => eq_of_beq hx)
    (fun _ => rfl) (fun _ => rfl) (fun _ => rfl) fun _ => rfl) rfl

theorem deleteEndpoint_confined (id : Nat) : Confined actor.orgId (fun _ => True) (deleteEndpoint actor draws id) :=
  .ite (fun _ => .ret _) fun _ => .audited (fun _ _ _ => endpointCheck.within_delete fun _ hx => eq_of_beq hx) rfl

theorem requestEndpointCheck_confined (id : Nat) : Confined actor.orgId (fun _ => True) (requestEndpointCheck actor id) :=
  .ite (fun _ => .ret _) fun _ => .unaudited fun _ _ _ => endpointCheck.within_edit
    (fun _ hx => eq_of_beq (Bool.and_eq_true_iff.mp hx).1) (fun _ => rfl) (fun _ => rfl) (fun _ => rfl) fun _ => rfl

theorem listEndpoints_confined : Confined actor.orgId (fun _ => True) (listEndpoints platform actor) := by
  refine .ite (fun _ => .ret _) fun _ => .look Steady.true (fun s t halike => ?_) fun _ => .ret _
  rw [endpointCheck.findMany_alike halike fun x hx => by simpa [endpointCheck] using hx]

end Functions

end IkelyaneMonitor.Tenancy
