import IkelyaneMonitor.Interleave.Prog
import IkelyaneMonitor.Interleave.Table
import IkelyaneMonitor.Auth.Permissions
import IkelyaneMonitor.Crypto
import IkelyaneMonitor.Telemetry.Auth

/-!
# Monitored hosts and their secrets (`modules/servers/hosts.ts`)

* `Stmt`, `sem` : the statements on the table of hosts; each transaction writes once and commits with that write;
* `registerHost`, `rotateHostSecret`, `setHostEnabled` : the functions of the module;
* `Store.issued` : a history that no statement reads, the secrets handed to operators with the time they were committed.

Random values (the key id, the secret, the IV) are arguments of the calls. Display names, the columns of the inventory and
audit rows are read by nothing here and left out.
-/

namespace IkelyaneMonitor.Servers
open Interleave Auth Crypto Telemetry

instance : Keyed AgentHost := ⟨AgentHost.id⟩

/-- A secret handed to an operator. -/
structure Issued where
  hostId : Nat
  secret : String
  committedAt : Int
  deriving DecidableEq, Repr

structure Store where
  clock : Int
  hosts : Table AgentHost
  /-- Newest first. -/
  issued : List Issued

/-- The secrets of one host, newest first. -/
def Store.issuedTo (s : Store) (hostId : Nat) : List Issued := s.issued.filter fun issue => issue.hostId == hostId

def Store.findHost (s : Store) (id orgId : Nat) : Option AgentHost := s.hosts.find? fun h => h.id == id && h.orgId == orgId

/-- The unique columns of the table. -/
def Store.taken (s : Store) (orgId : Nat) (hostname keyId : String) : Bool :=
  s.hosts.rows.any fun h => (h.orgId == orgId && h.hostname == hostname) || h.keyId == keyId

/-- `SECRET_ROTATION_GRACE_HOURS`, in milliseconds. -/
def graceMs : Int := 24 * 3600 * 1000

inductive Stmt where
  | newDate
  | tick (ms : Nat)
  | findHost (id orgId : Nat)
  | findHostname (orgId : Nat) (hostname : String)
  | create (orgId : Nat) (hostname keyId secretEnc secret : String)
  | rotate (id : Nat) (previousEnc : String) (expiresAt : Int) (secretEnc secret : String)
  | setEnabled (id orgId : Nat) (enabled : Bool)

def newHost (orgId : Nat) (hostname keyId secretEnc : String) (id : Nat) : AgentHost where
  id := id
  orgId := orgId
  hostname := hostname
  keyId := keyId
  enabled := true
  firstSeenAt := none
  hmacSecretEnc := secretEnc
  previousHmacSecretEnc := none
  previousSecretExpiresAt := none

def rotated (previousEnc : String) (expiresAt : Int) (secretEnc : String) (host : AgentHost) : AgentHost :=
  { host with
    hmacSecretEnc := secretEnc
    previousHmacSecretEnc := some previousEnc
    previousSecretExpiresAt := some expiresAt }

def sem (_ : Nat) : Stmt → Store → Option Store
  | .tick ms, s => some { s with clock := s.clock + ms }
  | .create orgId hostname keyId secretEnc secret, s =>
    -- a unique constraint that does not hold makes the statement fail
    if s.taken orgId hostname keyId then some s
    else
      some { s with
        hosts := s.hosts.insert (newHost orgId hostname keyId secretEnc) fun _ => rfl
        issued := ⟨s.hosts.next, secret, s.clock⟩ :: s.issued }
  | .rotate id previousEnc expiresAt secretEnc secret, s =>
    if (s.hosts.get? id).isSome then
      some { s with
        hosts := s.hosts.updateMany (fun h => h.id == id) (rotated previousEnc expiresAt secretEnc) fun _ => rfl
        issued := ⟨id, secret, s.clock⟩ :: s.issued }
    else some s
  | .setEnabled id orgId enabled, s =>
    some { s with
      hosts := s.hosts.updateMany (fun h => h.id == id && h.orgId == orgId) (fun h => { h with enabled := enabled })
        fun _ => rfl }
  | _, s => some s

/-- `/^[A-Za-z0-9][A-Za-z0-9._-]{0,252}$/`. -/
def isHostname (hostname : String) : Bool :=
  match hostname.toList with
  | [] => false
  | c :: cs => c.isAlphanum && cs.length ≤ 252 && cs.all fun d => d.isAlphanum || d == '.' || d == '_' || d == '-'

structure HostCredentials where
  hostId : Nat
  keyId : String
  secret : String
  deriving DecidableEq, Repr

inductive HostError where
  | forbidden | invalidHostname | hostnameTaken | notFound
  deriving DecidableEq, Repr

inductive Outcome where
  | credentials (r : Except HostError HostCredentials)
  | enabled (r : Except HostError Unit)
  | thrown
  | done

abbrev Call := Prog Stmt Store Outcome

section Functions
variable (gcm : Gcm)

/-- `key` and `secret` are what `generateAgentCredentials` draws. -/
def registerHost (actor : Actor) (hostname key secret : String) (iv : Token) : Call :=
  if !can actor.role .hostsWrite then .ret (.credentials (.error .forbidden))
  else if !isHostname (Text.trim hostname) then .ret (.credentials (.error .invalidHostname))
  else
    let keyId := "ikm_" ++ key
    .stmt (.findHostname actor.orgId (Text.trim hostname)) fun s =>
      if s.hosts.rows.any fun h => h.orgId == actor.orgId && h.hostname == Text.trim hostname then
        .ret (.credentials (.error .hostnameTaken))
      else
        .stmt (.create actor.orgId (Text.trim hostname) keyId (encryptSecret gcm iv secret (hostSecretAad keyId)) secret)
          fun s =>
            if s.taken actor.orgId (Text.trim hostname) keyId then .ret .thrown
            else .ret (.credentials (.ok ⟨s.hosts.next, keyId, secret⟩))

def rotateHostSecret (actor : Actor) (hostId : Nat) (secret : String) (iv : Token) : Call :=
  .stmt .newDate fun s₀ =>
    if !can actor.role .hostsRotateSecret then .ret (.credentials (.error .forbidden))
    else
      .stmt (.findHost hostId actor.orgId) fun s =>
        match s.findHost hostId actor.orgId with
        | none => .ret (.credentials (.error .notFound))
        | some host =>
          .stmt (.rotate host.id host.hmacSecretEnc (s₀.clock + graceMs)
              (encryptSecret gcm iv secret (hostSecretAad host.keyId)) secret) fun s =>
            if (s.hosts.get? host.id).isSome then .ret (.credentials (.ok ⟨host.id, host.keyId, secret⟩)) else .ret .thrown

def setHostEnabled (actor : Actor) (hostId : Nat) (enabled : Bool) : Call :=
  if !can actor.role .hostsWrite then .ret (.enabled (.error .forbidden))
  else
    .stmt (.setEnabled hostId actor.orgId enabled) fun s =>
      if (s.findHost hostId actor.orgId).isSome then .ret (.enabled (.ok ())) else .ret (.enabled (.error .notFound))

inductive Op where
  | registerHost (actor : Actor) (hostname key secret : String) (iv : Token)
  | rotateHostSecret (actor : Actor) (hostId : Nat) (secret : String) (iv : Token)
  | setHostEnabled (actor : Actor) (hostId : Nat) (enabled : Bool)
  | tick (ms : Nat)

def Op.call : Op → Call
  | .registerHost actor hostname key secret iv => Servers.registerHost gcm actor hostname key secret iv
  | .rotateHostSecret actor hostId secret iv => Servers.rotateHostSecret gcm actor hostId secret iv
  | .setHostEnabled actor hostId enabled => Servers.setHostEnabled actor hostId enabled
  | .tick ms => .stmt (.tick ms) fun _ => .ret .done

abbrev System := Conf Nat Stmt Store Outcome

/-- Call `i` is `ops i`, none has started, and there is no host yet. -/
def start (ops : Nat → Op) (clock : Int) : System where
  store := ⟨clock, .empty, []⟩
  calls := fun i => (ops i).call gcm

end Functions

end IkelyaneMonitor.Servers
