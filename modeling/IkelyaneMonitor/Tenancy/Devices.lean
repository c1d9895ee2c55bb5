import IkelyaneMonitor.Tenancy.Calls

/-!
# Network devices (`modules/network/devices.ts`)

* `registerDevice`, `updateDevice`, `setDeviceEnabled`, `deleteDevice`, `listDevices`, `listDevicesForPoller` : the functions
  of the module, `credentialFields` : what they write of the credentials;
* one lemma for each: it stays within the organization of its requester.

A string that is empty counts as absent where the source tests it, and a form sends `null` for an empty id.
-/

namespace IkelyaneMonitor.Tenancy
open Interleave Relational
open Agent.Snmp (AuthProtocol PrivProtocol SecurityLevel)
open Auth (can)
open Crypto (Token encryptSecret decryptSecret)
open Remediation (JsonValue)
open Telemetry (DeviceType SnmpVersion)

def deviceSecretAad (deviceId field : String) : String := "device:" ++ deviceId ++ ":" ++ field

structure DeviceInput where
  name : String
  ipAddress : String
  type : DeviceType
  tags : List String
  pollerHostId : Option Nat
  pollIntervalSec : Nat
  snmpVersion : SnmpVersion
  snmpPort : Nat
  snmpTimeoutMs : Nat
  snmpRetries : Nat
  snmpCommunity : Option String
  snmpV3Username : Option String
  snmpV3SecurityLevel : Option SecurityLevel
  snmpV3AuthProtocol : Option AuthProtocol
  snmpV3AuthKey : Option String
  snmpV3PrivProtocol : Option PrivProtocol
  snmpV3PrivKey : Option String
  snmpV3ContextName : Option String

inductive DeviceWriteError where
  | forbidden | invalidIp | ipTaken | invalidPoller | notFound
  deriving DecidableEq, Repr

/-- The random IV of each secret. -/
structure DeviceIvs where
  community : Token
  authKey : Token
  privKey : Token

/-- What is written; `none` is `undefined`, which leaves the column as it is. -/
structure CredentialFields where
  snmpVersion : SnmpVersion
  snmpPort : Nat
  snmpTimeoutMs : Nat
  snmpRetries : Nat
  snmpCommunityEnc : Option String
  snmpV3Username : Option String
  snmpV3SecurityLevel : Option SecurityLevel
  snmpV3AuthProtocol : Option AuthProtocol
  snmpV3AuthKeyEnc : Option String
  snmpV3PrivProtocol : Option PrivProtocol
  snmpV3PrivKeyEnc : Option String
  snmpV3ContextName : Option String

section Functions
variable {URL : Type} (platform : Platform URL)

def credentialFields (ivs : DeviceIvs) (deviceId : Nat) (input : DeviceInput) : CredentialFields where
  snmpVersion := input.snmpVersion
  snmpPort := input.snmpPort
  snmpTimeoutMs := input.snmpTimeoutMs
  snmpRetries := input.snmpRetries
  snmpCommunityEnc := (truthy input.snmpCommunity).map fun secret =>
    encryptSecret platform.gcm ivs.community secret (deviceSecretAad (platform.idText deviceId) "community")
  snmpV3Username := input.snmpV3Username
  snmpV3SecurityLevel := input.snmpV3SecurityLevel
  snmpV3AuthProtocol := input.snmpV3AuthProtocol
  snmpV3AuthKeyEnc := (truthy input.snmpV3AuthKey).map fun secret =>
    encryptSecret platform.gcm ivs.authKey secret (deviceSecretAad (platform.idText deviceId) "authKey")
  snmpV3PrivProtocol := input.snmpV3PrivProtocol
  snmpV3PrivKeyEnc := (truthy input.snmpV3PrivKey).map fun secret =>
    encryptSecret platform.gcm ivs.privKey secret (deviceSecretAad (platform.idText deviceId) "privKey")
  snmpV3ContextName := input.snmpV3ContextName

/-- The row `create` stores: what is not given has the default of its column. -/
def DeviceInput.row (input : DeviceInput) (ivs : DeviceIvs) (ip : String) (orgId : Nat) (draws : Draws) : NetworkDevice :=
  let fields := credentialFields platform ivs draws.id input
  { id := draws.id, orgId := orgId, ipAddress := ip, name := input.name, type := input.type, vendor := none, model := none,
    firmwareVersion := none, serialNumber := none, sysName := none, sysDescr := none, sysLocation := none,
    sysContact := none, uptimeSeconds := none, powerWatts := none, pollerHostId := input.pollerHostId,
    snmpVersion := fields.snmpVersion, status := .unknown, lastPolledAt := none, tags := input.tags, enabled := true,
    pollIntervalSec := input.pollIntervalSec, snmpPort := fields.snmpPort, snmpTimeoutMs := fields.snmpTimeoutMs,
    snmpRetries := fields.snmpRetries, snmpCommunityEnc := fields.snmpCommunityEnc,
    snmpV3Username := fields.snmpV3Username, snmpV3SecurityLevel := fields.snmpV3SecurityLevel,
    snmpV3AuthProtocol := fields.snmpV3AuthProtocol, snmpV3AuthKeyEnc := fields.snmpV3AuthKeyEnc,
    snmpV3PrivProtocol := fields.snmpV3PrivProtocol, snmpV3PrivKeyEnc := fields.snmpV3PrivKeyEnc,
    snmpV3ContextName := fields.snmpV3ContextName, createdAt := draws.now }

/-- What `update` writes into the row. -/
def DeviceInput.edit (input : DeviceInput) (ivs : DeviceIvs) (ip : String) (device : NetworkDevice) : NetworkDevice :=
  let fields := credentialFields platform ivs device.id input
  { device with
    name := input.name
    ipAddress := ip
    type := input.type
    tags := input.tags
    pollerHostId := input.pollerHostId
    pollIntervalSec := input.pollIntervalSec
    snmpVersion := fields.snmpVersion
    snmpPort := fields.snmpPort
    snmpTimeoutMs := fields.snmpTimeoutMs
    snmpRetries := fields.snmpRetries
    snmpCommunityEnc := fields.snmpCommunityEnc <|> device.snmpCommunityEnc
    snmpV3Username := fields.snmpV3Username <|> device.snmpV3Username
    snmpV3SecurityLevel := fields.snmpV3SecurityLevel <|> device.snmpV3SecurityLevel
    snmpV3AuthProtocol := fields.snmpV3AuthProtocol <|> device.snmpV3AuthProtocol
    snmpV3AuthKeyEnc := fields.snmpV3AuthKeyEnc <|> device.snmpV3AuthKeyEnc
    snmpV3PrivProtocol := fields.snmpV3PrivProtocol <|> device.snmpV3PrivProtocol
    snmpV3PrivKeyEnc := fields.snmpV3PrivKeyEnc <|> device.snmpV3PrivKeyEnc
    snmpV3ContextName := fields.snmpV3ContextName <|> device.snmpV3ContextName }

def deviceMetadata (input : DeviceInput) : Option JsonValue :=
  some (.obj [("name", .str input.name), ("ipAddress", .str input.ipAddress)])

def registerDevice (actor : Requester) (draws : Draws) (ivs : DeviceIvs) (input : DeviceInput) :
    DbCall (Outcome DeviceWriteError Nat) :=
  if !can actor.role .devicesWrite then .ret (.fail .forbidden)
  else if (platform.web.isIP input.ipAddress).isNone then .ret (.fail .invalidIp)
  else
    resolveHost actor.orgId input.pollerHostId fun found =>
      if !found then .ret (.fail .invalidPoller)
      else
        -- PostgreSQL refuses some of the texts that `isIP` takes for addresses
        match platform.inet input.ipAddress with
        | none => .ret .thrown
        | some ip =>
          read (fun s => (networkDevice.findFirst s fun d => d.orgId == actor.orgId && d.ipAddress == ip).isSome) fun taken =>
            if taken then .ret (.fail .ipTaken)
            else
              audited (networkDevice.create (input.row platform ivs ip actor.orgId draws))
                (recordAudit actor draws ⟨.device, .created⟩ draws.id (deviceMetadata input)) fun _ => .ok draws.id

def updateDevice (actor : Requester) (draws : Draws) (ivs : DeviceIvs) (id : Nat) (input : DeviceInput) :
    DbCall (Outcome DeviceWriteError Unit) :=
  if !can actor.role .devicesWrite then .ret (.fail .forbidden)
  else if (platform.web.isIP input.ipAddress).isNone then .ret (.fail .invalidIp)
  else
    read (fun s => (networkDevice.findFirst s fun d => d.id == id && d.orgId == actor.orgId).isSome) fun existing =>
      if !existing then .ret (.fail .notFound)
      else
        resolveHost actor.orgId input.pollerHostId fun found =>
          if !found then .ret (.fail .invalidPoller)
          else
            match platform.inet input.ipAddress with
            | none => .ret .thrown
            | some ip =>
              read (fun s => (networkDevice.findFirst s fun d => d.orgId == actor.orgId && d.ipAddress == ip).map (·.id))
                fun conflict =>
                  if conflict.any (· != id) then .ret (.fail .ipTaken)
                  else
                    -- by id alone: a device deleted meanwhile makes `update` throw
                    audited (networkDevice.updateMany id (fun _ => true) (input.edit platform ivs ip))
                      (recordAudit actor draws ⟨.device, .updated⟩ id (deviceMetadata input))
                      fun n => if n = 1 then .ok () else .thrown

def setDeviceEnabled (actor : Requester) (draws : Draws) (id : Nat) (enabled : Bool) :
    DbCall (Outcome DeviceWriteError Unit) :=
  if !can actor.role .devicesWrite then .ret (.fail .forbidden)
  else
    audited (networkDevice.updateMany id (fun d => d.orgId == actor.orgId) fun d => { d with enabled := enabled })
      (recordAudit actor draws ⟨.device, if enabled then .enabled else .disabled⟩ id none) (counted .notFound)

def deleteDevice (actor : Requester) (draws : Draws) (id : Nat) : DbCall (Outcome DeviceWriteError Unit) :=
  if !can actor.role .devicesWrite then .ret (.fail .forbidden)
  else
    audited (networkDevice.deleteMany id fun d => d.orgId == actor.orgId)
      (recordAudit actor draws ⟨.device, .deleted⟩ id none) (counted .notFound)

/-! ## Reading -/

structure DeviceRow where
  id : Nat
  name : String
  ipAddress : String
  type : DeviceType
  tags : List String
  enabled : Bool
  vendor : Option String
  model : Option String
  sysName : Option String
  sysLocation : Option String
  pollerHostId : Option Nat
  pollerHostname : Option String
  pollIntervalSec : Nat
  snmpVersion : SnmpVersion
  snmpPort : Nat
  snmpTimeoutMs : Nat
  snmpRetries : Nat
  snmpV3Username : Option String
  snmpV3SecurityLevel : Option SecurityLevel
  hasSecret : Bool
  status : Telemetry.HealthStatus
  lastPolledAt : Option Int
  createdAt : Int

def deviceRow (device : NetworkDevice) (pollerHostname : Option String) : DeviceRow where
  id := device.id
  name := device.name
  ipAddress := device.ipAddress
  type := device.type
  tags := device.tags
  enabled := device.enabled
  vendor := device.vendor
  model := device.model
  sysName := device.sysName
  sysLocation := device.sysLocation
  pollerHostId := device.pollerHostId
  pollerHostname := pollerHostname
  pollIntervalSec := device.pollIntervalSec
  snmpVersion := device.snmpVersion
  snmpPort := device.snmpPort
  snmpTimeoutMs := device.snmpTimeoutMs
  snmpRetries := device.snmpRetries
  snmpV3Username := device.snmpV3Username
  snmpV3SecurityLevel := device.snmpV3SecurityLevel
  hasSecret := (truthy device.snmpCommunityEnc).isSome || (truthy device.snmpV3AuthKeyEnc).isSome
  status := device.status
  lastPolledAt := device.lastPolledAt
  createdAt := device.createdAt

def listDevices (actor : Requester) : DbCall (Outcome ReadError (List DeviceRow)) :=
  if !can actor.role .devicesRead then .ret (.fail .forbidden)
  else
    read (fun s => (orderBy platform.collate (fun d => d.name) (networkDevice.findMany s fun d => d.orgId == actor.orgId)).map
        fun d => deviceRow d ((hostOf s d.pollerHostId).map (·.hostname)))
      fun rows => .ret (.ok rows)

structure PollerDeviceSnmpV3Config where
  username : Option String
  securityLevel : Option SecurityLevel
  authProtocol : Option AuthProtocol
  authKey : Option String
  privProtocol : Option PrivProtocol
  privKey : Option String
  contextName : Option String
  deriving DecidableEq, Repr

structure PollerDeviceConfig where
  id : Nat
  ipAddress : String
  type : DeviceType
  pollIntervalSec : Nat
  snmpVersion : SnmpVersion
  snmpPort : Nat
  snmpTimeoutMs : Nat
  snmpRetries : Nat
  snmpCommunity : Option String
  snmpV3 : PollerDeviceSnmpV3Config
  deriving DecidableEq, Repr

/-- `enc ? decryptSecret(enc, …) : null`; `none` where the source throws. -/
def decryptField (enc : Option String) (deviceId : Nat) (field : String) : Option (Option String) :=
  match truthy enc with
  | none => some none
  | some payload =>
    (decryptSecret platform.gcm payload (deviceSecretAad (platform.idText deviceId) field)).map some

def pollerDeviceConfig (device : NetworkDevice) : Option PollerDeviceConfig := do
  let snmpCommunity ← decryptField platform device.snmpCommunityEnc device.id "community"
  let authKey ← decryptField platform device.snmpV3AuthKeyEnc device.id "authKey"
  let privKey ← decryptField platform device.snmpV3PrivKeyEnc device.id "privKey"
  return {
    id := device.id
    ipAddress := device.ipAddress
    type := device.type
    pollIntervalSec := device.pollIntervalSec
    snmpVersion := device.snmpVersion
    snmpPort := device.snmpPort
    snmpTimeoutMs := device.snmpTimeoutMs
    snmpRetries := device.snmpRetries
    snmpCommunity := snmpCommunity
    snmpV3 := ⟨device.snmpV3Username, device.snmpV3SecurityLevel, device.snmpV3AuthProtocol, authKey,
      device.snmpV3PrivProtocol, privKey, device.snmpV3ContextName⟩ }

def listDevicesForPoller (orgId pollerHostId : Nat) : DbCall (Outcome Empty (List PollerDeviceConfig)) :=
  read (fun s => orderBy platform.collate (fun d => d.name) (networkDevice.findMany s fun d =>
      d.orgId == orgId && d.pollerHostId == some pollerHostId && d.enabled))
    fun rows =>
      match rows.mapM (pollerDeviceConfig platform) with
      | none => .ret .thrown
      | some configs => .ret (.ok configs)

/-! ## Within the organization -/

variable (actor : Requester) (draws : Draws)

theorem registerDevice_confined (ivs : DeviceIvs) (input : DeviceInput) :
    Confined actor.orgId (fun _ => True) (registerDevice platform actor draws ivs input) := by
  refine .ite (fun _ => .ret _) fun _ => .ite (fun _ => .ret _) fun _ => .resolveHost Steady.true fun found => ?_
  refine .ite (fun _ => .ret _) fun hfound => .mono (P := Knows actor.orgId (refTo .host input.pollerHostId))
    (fun s hs => hs.2 (by simpa using hfound)) ?_
  split
  · exact .ret _
  · refine .look (Steady.knows _ _) (fun s t halike => ?_) fun taken => .ite (fun _ => .ret _) fun _ =>
      .audited (fun s _ hP => ?_) rfl
    · rw [networkDevice.findFirst_alike halike fun x hx => by simp_all [networkDevice]]
    · exact networkDevice.within_create rfl hP fun k hk => by simp [networkDevice, Row.names] at hk

theorem updateDevice_confined (ivs : DeviceIvs) (id : Nat) (input : DeviceInput) :
    Confined actor.orgId (fun _ => True) (updateDevice platform actor draws ivs id input) := by
  refine .ite (fun _ => .ret _) fun _ => .ite (fun _ => .ret _) fun _ => ?_
  refine .exists networkDevice Steady.true (fun x hx => by simpa [networkDevice] using hx) fun existing => ?_
  -- the device is of the organization, or was
  refine .ite (fun _ => .ret _) fun hexisting => .mono (P := Knows actor.orgId [(.device, id)])
    (fun s hs => hs.2 (by simpa using hexisting)) (.resolveHost (Steady.knows _ _) fun found => ?_)
  refine .ite (fun _ => .ret _) fun hfound => .mono
    (P := fun s => Knows actor.orgId [(.device, id)] s ∧ Knows actor.orgId (refTo .host input.pollerHostId) s)
    (fun s hs => ⟨hs.1, hs.2 (by simpa using hfound)⟩) ?_
  split
  · exact .ret _
  · refine .look ((Steady.knows _ _).and (Steady.knows _ _)) (fun s t halike => ?_) fun conflict =>
      .ite (fun _ => .ret _) fun _ => .audited (fun s _ hP => ?_) rfl
    · rw [networkDevice.findFirst_alike halike fun x hx => by simp_all [networkDevice]]
    · exact networkDevice.within_update (fun x hx hid _ => networkDevice.orgId_of_knows hP.1 hx hid) (fun _ => rfl)
        (fun _ => rfl) (fun _ k hk => .inr (hP.2 k hk)) fun _ k hk => by simp [networkDevice, Row.names] at hk

theorem setDeviceEnabled_confined (id : Nat) (enabled : Bool) :
    Confined actor.orgId (fun _ => True) (setDeviceEnabled actor draws id enabled) :=
  .ite (fun _ => .ret _) fun _ => .audited (fun _ _ _ => networkDevice.within_edit (fun _ hx => eq_of_beq hx)
    (fun _ => rfl) (fun _ => rfl) (fun _ => rfl) fun _ => rfl) rfl

theorem deleteDevice_confined (id : Nat) : Confined actor.orgId (fun _ => True) (deleteDevice actor draws id) :=
  .ite (fun _ => .ret _) fun _ => .audited (fun _ _ _ => networkDevice.within_delete fun _ hx => eq_of_beq hx) rfl

theorem listDevices_confined : Confined actor.orgId (fun _ => True) (listDevices platform actor) := by
  refine .ite (fun _ => .ret _) fun _ => .read (Q := fun _ _ => True) (fun s t _ _ hs ht halike => ?_) (fun _ _ _ => trivial)
    (fun _ => Steady.true) fun _ => .ret _
  rw [networkDevice.findMany_alike halike fun x hx => by simpa [networkDevice] using hx]
  refine List.map_congr_left fun x hx => ?_
  obtain ⟨hx, hxo⟩ := List.mem_filter.mp (mem_orderBy.mp hx)
  rw [hostOf_alike hs ht halike (networkDevice.mem_all.mp hx) (eq_of_beq hxo) rfl]

theorem listDevicesForPoller_confined (orgId pollerHostId : Nat) :
    Confined orgId (fun _ => True) (listDevicesForPoller platform orgId pollerHostId) := by
  refine .look Steady.true (fun s t halike => ?_) fun rows => ?_
  · rw [networkDevice.findMany_alike halike fun x hx => by simp_all [networkDevice]]
  · split <;> exact .ret _

end Functions

end IkelyaneMonitor.Tenancy
