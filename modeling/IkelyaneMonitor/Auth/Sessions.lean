import IkelyaneMonitor.Auth.Permissions
import IkelyaneMonitor.Auth.TwoFactor

/-!
# Sessions (`lib/auth/sessions.ts`)

* `Store` : users, organizations, memberships and sessions; `SessionContext` : what the rest of the application may know of a
  signed-in user;
* `createSession`, `validateSession`, `setActiveOrg`, `revokeSessionByToken`, `revokeAllSessions` : the functions;
* `Op`, `step` : a call of one of them, or a change of the users and memberships that they read.

The hash of a token is a parameter and tokens are arguments of the calls. Names cut for display, addresses and user agents are
left out: nothing here reads them.
-/

namespace IkelyaneMonitor.Auth.Sessions
open Interleave

structure User where
  id : Nat
  email : String
  name : Option String
  locale : Locale
  timezone : String
  disabledAt : Option Int
  totpEnabledAt : Option Int
  deriving DecidableEq, Repr

structure Organization where
  id : Nat
  name : String
  slug : String
  deriving DecidableEq, Repr

structure Membership where
  id : Nat
  userId : Nat
  orgId : Nat
  role : Role
  createdAt : Int
  deriving DecidableEq, Repr

structure Session extends Auth.Session where
  revokedAt : Option Int

instance : Keyed User := ⟨User.id⟩
instance : Keyed Organization := ⟨Organization.id⟩
instance : Keyed Membership := ⟨Membership.id⟩
instance : Keyed Session := ⟨fun r => r.id⟩

structure Store where
  users : Table User
  organizations : Table Organization
  memberships : Table Membership
  sessions : Table Session

def sessionRefreshIntervalSeconds : Int := 5 * 60

structure SessionUser where
  id : Nat
  email : String
  name : Option String
  locale : Locale
  timezone : String
  totpEnabledAt : Option Int
  deriving DecidableEq, Repr

structure SessionMembership where
  orgId : Nat
  orgName : String
  orgSlug : String
  role : Role
  deriving DecidableEq, Repr

structure SessionContext where
  sessionId : Nat
  user : SessionUser
  memberships : List SessionMembership
  activeOrg : Option SessionMembership
  expiresAt : Int
  deriving DecidableEq, Repr

def User.dto (user : User) : SessionUser :=
  ⟨user.id, user.email, user.name, user.locale, user.timezone, user.totpEnabledAt⟩

namespace Store

/-- The memberships of a user, the oldest first. -/
def membershipsOf (s : Store) (userId : Nat) : List Membership :=
  (s.memberships.rows.filter fun m => m.userId == userId).insertionSort fun a b => a.createdAt ≤ b.createdAt

/-- The same with their organizations. -/
def sessionMemberships (s : Store) (userId : Nat) : List SessionMembership :=
  (s.membershipsOf userId).filterMap fun m =>
    (s.organizations.get? m.orgId).map fun org => ⟨org.id, org.name, org.slug, m.role⟩

def findSession (s : Store) (tokenHash : String) : Option Session := s.sessions.find? fun r => r.tokenHash == tokenHash

end Store

section Functions
variable (hashToken : String → String)

/-- The id of the session, its end and its organization; `none` when the token is taken, and the call throws. -/
def createSession (userId : Nat) (token : String) (now : Int) (s : Store) : Store × Option (Nat × Int × Option Nat) :=
  let absoluteExpiresAt := now + sessionAbsoluteSeconds * 1000
  let expiresAt := min (now + sessionIdleSeconds * 1000) absoluteExpiresAt
  let activeOrgId := (s.membershipsOf userId).head?.map Membership.orgId
  if (s.users.get? userId).isNone || (s.findSession (hashToken token)).isSome then (s, none)
  else
    ({ s with
        sessions := s.sessions.insert
          (fun id => ⟨⟨id, userId, hashToken token, activeOrgId, now, now, expiresAt, absoluteExpiresAt⟩, none⟩)
            fun _ => rfl },
      some (s.sessions.next, expiresAt, activeOrgId))

/-- The active organization: the stored one while it is among the memberships, the first of them otherwise. -/
def activeMembership (memberships : List SessionMembership) (activeOrgId : Option Nat) : Option SessionMembership :=
  (memberships.find? fun m => activeOrgId == some m.orgId) <|> memberships.head?

/-- What follows the checks: the idle expiry moves forward when it is due, or when the active organization changed. -/
def touch (session : Session) (user : User) (now : Int) (s : Store) : Store × SessionContext :=
  let memberships := s.sessionMemberships user.id
  let active := activeMembership memberships session.activeOrgId
  let idleFor := now - session.lastUsedAt
  let activeOrgChanged := decide (active.map SessionMembership.orgId ≠ session.activeOrgId)
  if sessionRefreshIntervalSeconds * 1000 < idleFor || activeOrgChanged then
    let expiresAt := min (now + sessionIdleSeconds * 1000) session.absoluteExpiresAt
    ({ s with
        sessions := s.sessions.updateMany (fun r => r.id == session.id)
          (fun r => { r with
            lastUsedAt := now, expiresAt := expiresAt, activeOrgId := active.map SessionMembership.orgId }) fun _ => rfl },
      ⟨session.id, user.dto, memberships, active, expiresAt⟩)
  else (s, ⟨session.id, user.dto, memberships, active, session.expiresAt⟩)

/-- The session a token may use now, with its user. -/
def usable (token : String) (now : Int) (s : Store) : Option (Session × User) :=
  if token = "" ∨ 256 < Text.utf16Length token then none
  else
    (s.findSession (hashToken token)).bind fun session =>
      (s.users.get? session.userId).bind fun user =>
        if session.revokedAt.isSome then none
        else if session.expiresAt ≤ now ∨ session.absoluteExpiresAt ≤ now then none
        else if user.disabledAt.isSome then none
        else some (session, user)

def validateSession (token : String) (now : Int) (s : Store) : Store × Option SessionContext :=
  match usable hashToken token now s with
  | none => (s, none)
  | some (session, user) => ((touch session user now s).1, some (touch session user now s).2)

def setActiveOrg (sessionId userId orgId : Nat) (s : Store) : Store × Bool :=
  if (s.memberships.find? fun m => m.userId == userId && m.orgId == orgId).isNone then (s, false)
  else
    let found := fun r : Session => r.id == sessionId && r.userId == userId && r.revokedAt.isNone
    ({ s with sessions := s.sessions.updateMany found (fun r => { r with activeOrgId := some orgId }) fun _ => rfl },
      s.sessions.count found == 1)

def revokeSessionByToken (token : String) (now : Int) (s : Store) : Store :=
  { s with
    sessions := s.sessions.updateMany (fun r => r.tokenHash == hashToken token && r.revokedAt.isNone)
      (fun r => { r with revokedAt := some now }) fun _ => rfl }

/-- Also returns how many were revoked. -/
def revokeAllSessions (userId : Nat) (exceptSessionId : Option Nat) (now : Int) (s : Store) : Store × Nat :=
  let found := fun r : Session => r.userId == userId && r.revokedAt.isNone && exceptSessionId != some r.id
  ({ s with sessions := s.sessions.updateMany found (fun r => { r with revokedAt := some now }) fun _ => rfl },
    s.sessions.count found)

inductive Op where
  | createSession (userId : Nat) (token : String) (now : Int)
  | validateSession (token : String) (now : Int)
  | setActiveOrg (sessionId userId orgId : Nat)
  | revokeSessionByToken (token : String) (now : Int)
  | revokeAllSessions (userId : Nat) (exceptSessionId : Option Nat) (now : Int)
  | addMember (userId orgId : Nat) (role : Role) (now : Int)
  | removeMember (membershipId : Nat)
  | disableUser (userId : Nat) (now : Int)
  | enableUser (userId : Nat)

inductive Outcome where
  | created (sessionId : Nat) (expiresAt : Int) (activeOrgId : Option Nat)
  | validated (context : Option SessionContext)
  | switched (ok : Bool)
  | revoked (count : Nat)
  | done
  | thrown

def step (op : Op) (s : Store) : Store × Outcome :=
  match op with
  | .createSession userId token now =>
    match createSession hashToken userId token now s with
    | (s', some (id, expiresAt, activeOrgId)) => (s', .created id expiresAt activeOrgId)
    | (s', none) => (s', .thrown)
  | .validateSession token now =>
    ((validateSession hashToken token now s).1, .validated (validateSession hashToken token now s).2)
  | .setActiveOrg sessionId userId orgId =>
    ((setActiveOrg sessionId userId orgId s).1, .switched (setActiveOrg sessionId userId orgId s).2)
  | .revokeSessionByToken token now => (revokeSessionByToken hashToken token now s, .done)
  | .revokeAllSessions userId exceptSessionId now =>
    ((revokeAllSessions userId exceptSessionId now s).1, .revoked (revokeAllSessions userId exceptSessionId now s).2)
  | .addMember userId orgId role now =>
    ({ s with memberships := s.memberships.insert (fun id => ⟨id, userId, orgId, role, now⟩) fun _ => rfl }, .done)
  | .removeMember membershipId => ({ s with memberships := s.memberships.deleteMany fun m => m.id == membershipId }, .done)
  | .disableUser userId now =>
    ({ s with
      users := s.users.updateMany (fun u => u.id == userId) (fun u => { u with disabledAt := some now }) fun _ =>
        rfl }, .done)
  | .enableUser userId =>
    ({ s with users := s.users.updateMany (fun u => u.id == userId) (fun u => { u with disabledAt := none }) fun _ => rfl },
      .done)

end Functions

end IkelyaneMonitor.Auth.Sessions
