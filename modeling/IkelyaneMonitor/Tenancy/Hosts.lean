import IkelyaneMonitor.Servers.Hosts
import IkelyaneMonitor.Tenancy.Calls

/-!
# Hosts and the audit trail of their organization (`modules/servers/hosts.ts`, `lib/auth/audit.ts`)

* `registerHost`, `rotateHostSecret`, `setHostEnabled`, `listHosts` : the functions of the module, on all the columns they
  touch and with their entries; `listAuditLog` : the trail as it is read;
* one lemma for each: it stays within the organization of its requester.
-/

namespace IkelyaneMonitor.Tenancy
open Interleave Relational
open Auth (can)
open Crypto (Token encryptSecret)
open Remediation (JsonValue OsFamily)
open Servers (HostCredentials HostError graceMs isHostname)

/-- What a host looks like to the people of its organization: no secret, nor its ciphertext. -/
structure HostRow where
  id : Nat
  hostname : String
  displayName : Option String
  keyId : String
  enabled : Bool
  status : Saas.HealthStatus
  osFamily : OsFamily
  agentVersion : Option String
  lastSeenAt : Option Int
  createdAt : Int
  rotationPending : Bool
  deriving DecidableEq, Repr

def hostRow (now : Int) (host : MonitoredHost) : HostRow where
  id := host.id
  hostname := host.hostname
  displayName := host.displayName
  keyId := host.keyId
  enabled := host.enabled
  status := host.status
  osFamily := host.osFamily
  agentVersion := host.agentVersion
  lastSeenAt := host.lastSeenAt
  createdAt := host.createdAt
  rotationPending := host.previousSecretExpiresAt.any fun expiresAt => decide (now < expiresAt)

section Functions
variable {URL : Type} (platform : Platform URL)

def listHosts (actor : Requester) (now : Int) : DbCall (Outcome ReadError (List HostRow)) :=
  if !can actor.role .hostsRead then .ret (.fail .forbidden)
  else
    read (fun s => orderBy platform.collate (fun h => h.hostname) (monitoredHost.findMany s fun h => h.orgId == actor.orgId))
      fun rows => .ret (.ok (rows.map (hostRow now)))

/-- The row `create` stores. -/
def registered (orgId : Nat) (hostname : String) (displayName : Option String) (keyId secretEnc : String) (draws : Draws) :
    MonitoredHost :=
  { Servers.newHost orgId hostname keyId secretEnc draws.id with
    displayName := truthy (displayName.map fun name => String.ofList (Text.utf16Slice 120 (Text.trim name).toList))
    secretRotatedAt := draws.now
    status := .UNKNOWN
    osFamily := .other
    agentVersion := none
    lastSeenAt := none
    remediationMode := none
    remediationAllowlist := []
    createdAt := draws.now }

/-- `key` and `secret` are what `generateAgentCredentials` draws. -/
def registerHost (actor : Requester) (draws : Draws) (hostname : String) (displayName : Option String)
    (key secret : String) (iv : Token) : DbCall (Outcome HostError HostCredentials) :=
  if !can actor.role .hostsWrite then .ret (.fail .forbidden)
  else if !isHostname (Text.trim hostname) then .ret (.fail .invalidHostname)
  else
    let keyId := "ikm_" ++ key
    read (fun s => (monitoredHost.findFirst s fun h => h.orgId == actor.orgId && h.hostname == Text.trim hostname).isSome)
      fun taken =>
        if taken then .ret (.fail .hostnameTaken)
        else
          audited (monitoredHost.create (registered actor.orgId (Text.trim hostname) displayName keyId
              (encryptSecret platform.gcm iv secret (Telemetry.hostSecretAad keyId)) draws))
            (recordAudit actor draws ⟨.host, .created⟩ draws.id (some (.obj [("hostname", .str (Text.trim hostname))])))
            fun _ => .ok ⟨draws.id, keyId, secret⟩

def rotateHostSecret (actor : Requester) (draws : Draws) (hostId : Nat) (secret : String) (iv : Token) (now : Int) :
    DbCall (Outcome HostError HostCredentials) :=
  if !can actor.role .hostsRotateSecret then .ret (.fail .forbidden)
  else
    read (fun s => (monitoredHost.findFirst s fun h => h.id == hostId && h.orgId == actor.orgId).map fun h =>
        (h.keyId, h.hmacSecretEnc, h.hostname)) fun host =>
      match host with
      | none => .ret (.fail .notFound)
      | some (keyId, previousEnc, hostname) =>
        audited (monitoredHost.updateMany hostId (fun _ => true) fun h =>
            { h with
              previousHmacSecretEnc := some previousEnc
              previousSecretExpiresAt := some (now + graceMs)
              hmacSecretEnc := encryptSecret platform.gcm iv secret (Telemetry.hostSecretAad keyId)
              secretRotatedAt := now })
          (recordAudit actor draws ⟨.host, .rotated⟩ hostId
            (some (.obj [("hostname", .str hostname), ("graceHours", .num "24")])))
          fun n => if n = 1 then .ok ⟨hostId, keyId, secret⟩ else .thrown

def setHostEnabled (actor : Requester) (draws : Draws) (hostId : Nat) (enabled : Bool) : DbCall (Outcome HostError Unit) :=
  if !can actor.role .hostsWrite then .ret (.fail .forbidden)
  else
    audited (monitoredHost.updateMany hostId (fun h => h.orgId == actor.orgId) fun h => { h with enabled := enabled })
      (recordAudit actor draws ⟨.host, if enabled then .enabled else .disabled⟩ hostId none) (counted .notFound)

/-- The newest entries first. -/
def listAuditLog (actor : Requester) (limit : Int) : DbCall (Outcome ReadError (List AuditLog)) :=
  if !can actor.role .auditRead then .ret (.fail .forbidden)
  else
    read (fun s => ((s.log.filter fun e => e.orgId = actor.orgId).insertionSort fun a b => b.createdAt ≤ a.createdAt).take
        (min (max limit 1) 500).toNat)
      fun rows => .ret (.ok rows)

/-! ## Within the organization -/

variable (actor : Requester) (draws : Draws)

theorem listHosts_confined (now : Int) : Confined actor.orgId (fun _ => True) (listHosts platform actor now) := by
  refine .ite (fun _ => .ret _) fun _ => .look Steady.true (fun s t halike => ?_) fun _ => .ret _
  rw [monitoredHost.findMany_alike halike fun x hx => by simpa [monitoredHost] using hx]

theorem registerHost_confined (hostname : String) (displayName : Option String) (key secret : String) (iv : Token) :
    Confined actor.orgId (fun _ => True) (registerHost platform actor draws hostname displayName key secret iv) := by
  refine .ite (fun _ => .ret _) fun _ => .ite (fun _ => .ret _) fun _ => .look Steady.true (fun s t halike => ?_) fun taken =>
    .ite (fun _ => .ret _) fun _ => .audited (fun s _ _ => ?_) rfl
  · rw [monitoredHost.findFirst_alike halike fun x hx => by simp_all [monitoredHost]]
  · refine monitoredHost.within_create (s := s) rfl (fun k hk => ?_) fun k hk => ?_
    · simp [monitoredHost, Row.refs] at hk
    · simp [monitoredHost, Row.names] at hk

theorem rotateHostSecret_confined (hostId : Nat) (secret : String) (iv : Token) (now : Int) :
    Confined actor.orgId (fun _ => True) (rotateHostSecret platform actor draws hostId secret iv now) := by
  refine .ite (fun _ => .ret _) fun _ => ?_
  refine .found monitoredHost Steady.true (fun x hx => by simpa [monitoredHost] using hx) fun host => ?_
  split
  · exact .ret _
  · exact .audited (fun s _ hs => monitoredHost.within_update
      (fun x hx hid _ => monitoredHost.orgId_of_knows (hs.2 rfl) hx hid) (fun _ => rfl) (fun _ => rfl)
      (fun _ k hk => .inl hk) fun _ k hk => .inl hk) rfl

theorem setHostEnabled_confined (hostId : Nat) (enabled : Bool) :
    Confined actor.orgId (fun _ => True) (setHostEnabled actor draws hostId enabled) :=
  .ite (fun _ => .ret _) fun _ => .audited (fun _ _ _ => monitoredHost.within_edit (fun _ hx => eq_of_beq hx)
    (fun _ => rfl) (fun _ => rfl) (fun _ => rfl) fun _ => rfl) rfl

theorem listAuditLog_confined (limit : Int) : Confined actor.orgId (fun _ => True) (listAuditLog actor limit) :=
  .ite (fun _ => .ret _) fun _ => .look Steady.true (fun s t halike => by rw [halike.log]) fun _ => .ret _

end Functions

end IkelyaneMonitor.Tenancy
