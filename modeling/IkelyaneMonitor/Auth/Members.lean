import IkelyaneMonitor.Interleave.Prog
import IkelyaneMonitor.Interleave.RowLocks
import IkelyaneMonitor.Interleave.Table
import IkelyaneMonitor.Text
import IkelyaneMonitor.Auth.Permissions

/-!
# Organizations and their members (`lib/auth/members.ts`, `lib/auth/users.ts`, `lib/auth/invitations.ts`)

* `Store`, `Stmt`, `sem` : the tables, and the statements on them under READ COMMITTED; `RowLocks` has the locks of
  `SELECT ... FOR UPDATE`;
* `lockOrganizationMemberships`, `changeMemberRole`, `removeMember`, `createOrganization`, `acceptInvitation`.

Ids stand for the ids the database client draws, numbered in the order they are drawn. Each transaction writes in one
statement, which takes effect when it commits: until then the row it writes is locked and nobody sees the new version, so
the statement stands for both. A transaction may be broken off at any time (by the deadlock detector, by a time limit, by
a lost connection), which `Stmt.abort` models. The hash of a token and the checks of a new account are parameters; names,
the audit trail and the columns nobody reads are left out.
-/

namespace IkelyaneMonitor.Auth.Members
open Interleave

structure Organization where
  id : Nat
  slug : String
  deriving DecidableEq, Repr

structure Membership where
  id : Nat
  userId : Nat
  orgId : Nat
  role : Role
  deriving DecidableEq, Repr

structure User where
  id : Nat
  email : String
  disabledAt : Option Int
  deriving DecidableEq, Repr

structure Invitation where
  id : Nat
  orgId : Nat
  email : String
  role : Role
  tokenHash : String
  expiresAt : Int
  acceptedAt : Option Int
  revokedAt : Option Int
  deriving DecidableEq, Repr

instance : Keyed Organization := ⟨Organization.id⟩
instance : Keyed Membership := ⟨Membership.id⟩
instance : Keyed User := ⟨User.id⟩
instance : Keyed Invitation := ⟨Invitation.id⟩

theorem key_newUser (email : String) (id : Nat) : key (⟨id, email, none⟩ : User) = id := rfl

theorem key_accepted (now : Int) (v : Invitation) : key { v with acceptedAt := some now } = key v := rfl

structure Store where
  organizations : Table Organization
  memberships : Table Membership
  users : Table User
  invitations : Table Invitation
  locks : RowLocks Nat Nat
  /-- The transactions that were broken off. -/
  aborted : List Nat

def Store.idsOf (s : Store) (orgId : Nat) : List Nat :=
  (s.memberships.rows.filter fun m => m.orgId == orgId).map Membership.id

def Store.findTarget (s : Store) (id orgId : Nat) : Option Membership :=
  s.memberships.find? fun m => m.id == id && m.orgId == orgId

def Store.owners (s : Store) (orgId : Nat) : Nat := s.memberships.count fun m => m.orgId == orgId && m.role == .owner

def Store.slugTaken (s : Store) (slug : String) : Bool := s.organizations.rows.any fun o => o.slug == slug

def Store.findUser (s : Store) (email : String) : Option User := s.users.find? fun u => u.email == email

def Store.findInvitation (s : Store) (tokenHash : String) : Option Invitation :=
  s.invitations.find? fun v => v.tokenHash == tokenHash

def Store.unclaimed (s : Store) (invitationId : Nat) : Bool :=
  (s.invitations.get? invitationId).any fun v => v.acceptedAt.isNone && v.revokedAt.isNone

def Store.isMember (s : Store) (userId orgId : Nat) : Bool :=
  s.memberships.rows.any fun m => m.userId == userId && m.orgId == orgId

/-- `upsert` with an empty update: a member keeps the role it has. -/
def Store.join (s : Store) (userId orgId : Nat) (role : Role) : Store :=
  if s.isMember userId orgId then s
  else { s with memberships := s.memberships.insert (fun id => ⟨id, userId, orgId, role⟩) fun _ => rfl }

/-- Commit or roll back: the locks of the transaction go. -/
def Store.release (s : Store) (i : Nat) : Store := { s with locks := s.locks.release i }

/-- Who joins: an account that was there, or a new one under an address, unless it is refused. -/
inductive Joiner where
  | existing (userId : Nat)
  | new (email : Option String)

inductive Stmt where
  /-- `SELECT ... FOR UPDATE` starts, -/
  | lockMemberships (orgId : Nat)
  /-- and goes on to the next row of its list. -/
  | lockRow (id : Nat)
  | findTarget (id orgId : Nat)
  | countOwners (orgId : Nat)
  | changeRole (id : Nat) (role : Role)
  | delete (id : Nat)
  | commit
  | findSlug (slug : String)
  | createOrganization (slug : String) (ownerUserId : Nat)
  | findInvitation (tokenHash : String)
  | findUser (email : String)
  | accept (invitation : Invitation) (joiner : Joiner) (now : Int)
  | abort (j : Nat)

/-- The transaction of `acceptInvitation`: all of it, or nothing. -/
def Store.accept (s : Store) (invitation : Invitation) (joiner : Joiner) (now : Int) : Store :=
  if s.unclaimed invitation.id then
    let s' := { s with
      invitations := s.invitations.updateMany (fun v => v.id == invitation.id) (fun v => { v with acceptedAt := some now })
        (key_accepted now) }
    match joiner with
    | .existing userId => s'.join userId invitation.orgId invitation.role
    | .new none => s
    | .new (some email) =>
      if (s.findUser email).isSome then s
      else
        ({ s' with users := s.users.insert (fun id => ⟨id, email, none⟩) (key_newUser email) }).join s.users.next
          invitation.orgId
          invitation.role
  else s

/-- `none` while the statement waits for a row that another transaction holds. -/
def sem (i : Nat) (w : Stmt) (s : Store) : Option Store :=
  if i ∈ s.aborted then none
  else
    match w with
    | .lockMemberships orgId => some { s with locks := s.locks.start i orgId (s.idsOf orgId) }
    | .lockRow id =>
      if s.locks.open? i id then some { s with locks := s.locks.take i id (s.memberships.get? id).isSome } else none
    | .changeRole id role =>
      if s.locks.open? i id then
        some (Store.release { s with
          memberships := s.memberships.updateMany (fun m => m.id == id) (fun m => { m with role := role }) fun _ => rfl } i)
      else none
    | .delete id =>
      if s.locks.open? i id then some (Store.release { s with memberships := s.memberships.deleteMany fun m => m.id == id } i)
      else none
    | .commit => some (s.release i)
    | .createOrganization slug ownerUserId =>
      -- a slug that is taken makes the statement fail
      if s.slugTaken slug then some s
      else
        some { s with
          organizations := s.organizations.insert (fun id => ⟨id, slug⟩) fun _ => rfl
          memberships := s.memberships.insert (fun id => ⟨id, ownerUserId, s.organizations.next, .owner⟩) fun _ => rfl }
    | .accept invitation joiner now => some (s.accept invitation joiner now)
    | .abort j => some { s.release j with aborted := j :: s.aborted }
    | _ => some s

inductive MemberError where
  | forbidden | notFound | lastOwner | cannotChangeOwnRole
  deriving DecidableEq, Repr

/-- The checks on a new account, e-mail and password; their codes are left out. -/
inductive AcceptError where
  | invalidOrExpired | signInRequired | emailMismatch | accountRequired | createUser
  deriving DecidableEq, Repr

inductive Outcome where
  | changed (r : Except MemberError (Role × Role))
  | removed (r : Except MemberError Bool)
  | organization (id : Nat) (slug : String)
  | accepted (r : Except AcceptError Nat)
  | thrown
  | done

abbrev Call := Prog Stmt Store Outcome

def commit (a : Outcome) : Call := .stmt .commit fun _ => .ret a

def lockRows (k : Call) : List Nat → Call
  | [] => k
  | id :: ids => .stmt (.lockRow id) fun _ => lockRows k ids

def lockOrganizationMemberships (orgId : Nat) (k : Call) : Call :=
  .stmt (.lockMemberships orgId) fun s => lockRows k (s.idsOf orgId)

def changeMemberRole (actor : Actor) (membershipId : Nat) (newRole : Role) : Call :=
  if !can actor.role .membersManage then .ret (.changed (.error .forbidden))
  else
    lockOrganizationMemberships actor.orgId <|
      .stmt (.findTarget membershipId actor.orgId) fun s =>
        match s.findTarget membershipId actor.orgId with
        | none => commit (.changed (.error .notFound))
        | some target =>
          let update : Call := .stmt (.changeRole target.id newRole) fun s =>
            .ret (if (s.memberships.get? target.id).isSome then .changed (.ok (target.role, newRole)) else .thrown)
          if target.userId = actor.userId then commit (.changed (.error .cannotChangeOwnRole))
          else if !canChangeRole actor.role target.role newRole then commit (.changed (.error .forbidden))
          else if target.role = newRole then commit (.changed (.ok (target.role, newRole)))
          else if target.role = .owner then
            .stmt (.countOwners actor.orgId) fun s =>
              if s.owners actor.orgId ≤ 1 then commit (.changed (.error .lastOwner)) else update
          else update

/-- `leaving` : removing oneself. -/
def removeMember (actor : Actor) (membershipId : Nat) : Call :=
  lockOrganizationMemberships actor.orgId <|
    .stmt (.findTarget membershipId actor.orgId) fun s =>
      match s.findTarget membershipId actor.orgId with
      | none => commit (.removed (.error .notFound))
      | some target =>
        let leaving := target.userId == actor.userId
        let delete : Call := .stmt (.delete target.id) fun s =>
          .ret (if (s.memberships.get? target.id).isSome then .removed (.ok leaving) else .thrown)
        if !leaving && !canManageMember actor.role target.role then commit (.removed (.error .forbidden))
        else if target.role = .owner then
          .stmt (.countOwners actor.orgId) fun s =>
            if s.owners actor.orgId ≤ 1 then commit (.removed (.error .lastOwner)) else delete
        else delete

/-- The free slug: the plain one, then with one random suffix after another; the last is not looked up. -/
def findSlug (base slug : String) (k : String → Call) : List String → Call
  | [] => k slug
  | suffix :: suffixes => .stmt (.findSlug slug) fun s =>
      if s.slugTaken slug then findSlug base (base ++ "-" ++ suffix) k suffixes else k slug

/-- `base` is what `slugify` makes of the name, `suffixes` the six that may be drawn. -/
def createOrganization (base : String) (suffixes : Fin 6 → String) (ownerUserId : Nat) : Call :=
  findSlug base base (k := fun slug =>
      .stmt (.createOrganization slug ownerUserId) fun s =>
        .ret (if s.slugTaken slug then .thrown else .organization s.organizations.next slug))
    (List.ofFn suffixes)

/-- Claim the invitation, create the account, add the membership. -/
def acceptTransaction (invitation : Invitation) (now : Int) (joiner : Joiner) : Call :=
  .stmt (.accept invitation joiner now) fun s =>
    .ret (.accepted (
      if !s.unclaimed invitation.id then .error .invalidOrExpired
      else
        match joiner with
        | .existing userId => .ok userId
        | .new none => .error .createUser
        | .new (some email) => if (s.findUser email).isSome then .error .createUser else .ok s.users.next))

section Accept
variable (hashToken : String → String) (createUser : (email password : String) → Option String)

/-- `createUser` is the address under which the account is created, or `none` when it is refused. -/
def acceptInvitation (token : String) (now : Int) (signedInUserId : Option Nat) (newAccount : Option String) : Call :=
  if token = "" ∨ 256 < Text.utf16Length token then .ret (.accepted (.error .invalidOrExpired))
  else
    .stmt (.findInvitation (hashToken token)) fun s =>
      match s.findInvitation (hashToken token) with
      | none => .ret (.accepted (.error .invalidOrExpired))
      | some invitation =>
        if invitation.acceptedAt.isSome || invitation.revokedAt.isSome || decide (invitation.expiresAt ≤ now) then
          .ret (.accepted (.error .invalidOrExpired))
        else
          .stmt (.findUser invitation.email) fun s =>
            match s.findUser invitation.email with
            | some existing =>
              if existing.disabledAt.isSome then .ret (.accepted (.error .invalidOrExpired))
              else if signedInUserId = none then .ret (.accepted (.error .signInRequired))
              else if signedInUserId ≠ some existing.id then .ret (.accepted (.error .emailMismatch))
              else acceptTransaction invitation now (.existing existing.id)
            | none =>
              match newAccount with
              | none => .ret (.accepted (.error .accountRequired))
              | some password => acceptTransaction invitation now (.new (createUser invitation.email password))

inductive Op where
  | createOrganization (base : String) (suffixes : Fin 6 → String) (ownerUserId : Nat)
  | acceptInvitation (token : String) (now : Int) (signedInUserId : Option Nat) (newAccount : Option String)
  | changeMemberRole (actor : Actor) (membershipId : Nat) (newRole : Role)
  | removeMember (actor : Actor) (membershipId : Nat)
  | abort (j : Nat)

def Op.call : Op → Call
  | .createOrganization base suffixes ownerUserId => Members.createOrganization base suffixes ownerUserId
  | .acceptInvitation token now signedInUserId newAccount =>
    Members.acceptInvitation hashToken createUser token now signedInUserId newAccount
  | .changeMemberRole actor membershipId newRole => Members.changeMemberRole actor membershipId newRole
  | .removeMember actor membershipId => Members.removeMember actor membershipId
  | .abort j => .stmt (.abort j) fun _ => .ret .done

/-- The membership the call was asked about. -/
def Op.membershipId? : Op → Option Nat
  | .changeMemberRole _ membershipId _ | .removeMember _ membershipId => some membershipId
  | _ => none

abbrev System := Conf Nat Stmt Store Outcome

def start (ops : Nat → Op) (s : Store) : System where
  store := s
  calls := fun i => (ops i).call hashToken createUser

end Accept

end IkelyaneMonitor.Auth.Members
