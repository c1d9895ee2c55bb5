import IkelyaneMonitor.Interleave.Faults
import IkelyaneMonitor.Auth.Accounts
import IkelyaneMonitor.Auth.Members

/-!
# Invitations (`lib/auth/invitations.ts`, `createUser` of `lib/auth/users.ts`)

* `Store`, `Stmt`, `sem` : the tables, and the statements on them under READ COMMITTED, one by one;
* `createInvitation`, `revokeInvitation`, `createUser`, `acceptInvitation` : the functions;
* `Op` : a call, and the statement of it that fails, if one does.

A transaction writes when it commits; until then it holds the rows of `invitations` that it has updated and the unique keys
that it has inserted, and others wait for them. A statement that fails had no effect, and rolls the transaction back: the
deadlock detector, a time limit, a lost connection, the audit trail. Ids are numbered in the order they are committed. The
hash of a token and `toLowerCase` are parameters, and a token is an argument of the call that draws it. The audit trail, the
names and languages of new accounts and who sent an invitation are left out: nothing here reads them.
-/

namespace IkelyaneMonitor.Auth.Invitations
open Interleave
open Members (User Membership Invitation)

/-- `INVITATION_TTL_SECONDS`. -/
def invitationTtlSeconds : Int := 7 * 24 * 60 * 60

/-- Neither accepted nor revoked. -/
def live (v : Invitation) : Bool := v.acceptedAt.isNone && v.revokedAt.isNone

/-- What its address and organization are. -/
def link (v : Invitation) : Nat × String := (v.orgId, v.email)

/-- The unique indexes. -/
inductive UniqueKey where
  | email (email : String)
  | membership (userId orgId : Nat)
  | tokenHash (tokenHash : String)
  deriving DecidableEq

structure Store (ι : Type) where
  users : Table User
  memberships : Table Membership
  invitations : Table Invitation
  /-- The rows of `invitations` that open transactions have updated. -/
  rows : RowLocks ι (Nat × String)
  /-- The keys that open transactions have inserted. -/
  keys : List (UniqueKey × ι)
  /-- The first id that was free when the `UPDATE` of a `createInvitation` started. -/
  begun : ι → Nat

/-- Who joins: an account that was there, or a new one under an address. -/
inductive Joiner where
  | existing (userId : Nat)
  | new (email : String)

/-- The row of a new invitation. -/
structure Draft where
  orgId : Nat
  email : String
  role : Role
  tokenHash : String
  expiresAt : Int

def Draft.row (d : Draft) (id : Nat) : Invitation := ⟨id, d.orgId, d.email, d.role, d.tokenHash, d.expiresAt, none, none⟩

inductive Stmt where
  | findMember (orgId : Nat) (email : String)
  /-- The `UPDATE` of the links it replaces starts, -/
  | revokeLive (orgId : Nat) (email : String)
  /-- and goes on to the next row of its list. -/
  | revokeRow (id : Nat)
  | insertInvitation (tokenHash : String)
  | commitInvitation (now : Int) (draft : Draft)
  | revokeOne (id orgId : Nat)
  | commitRevoke (now : Int)
  | findInvitation (tokenHash : String)
  | findUser (email : String)
  | claim (id : Nat)
  | insertUser (email : String)
  | upsertMembership (joiner : Joiner) (orgId : Nat)
  /-- `role` is that of the membership to add. -/
  | commitAccept (now : Int) (joiner : Joiner) (orgId : Nat) (role : Option Role)
  /-- `ROLLBACK`, or `COMMIT` with nothing written. -/
  | finish

section Store
variable {ι : Type}

namespace Store

def isMember (s : Store ι) (orgId : Nat) (email : String) : Bool :=
  s.memberships.rows.any fun m => m.orgId == orgId && (s.users.get? m.userId).any fun u => u.email == email

/-- The live links of an organization and an address. -/
def liveIds (s : Store ι) (orgId : Nat) (email : String) : List Nat :=
  (s.invitations.rows.filter fun v => live v && link v == (orgId, email)).map Invitation.id

def isLive (s : Store ι) (id : Nat) : Bool := (s.invitations.get? id).any live

/-- The link is live and one of the organization. -/
def revocable (s : Store ι) (id orgId : Nat) : Bool := (s.invitations.get? id).any fun v => v.orgId == orgId && live v

def findInvitation (s : Store ι) (tokenHash : String) : Option Invitation :=
  s.invitations.find? fun v => v.tokenHash == tokenHash

def findUser (s : Store ι) (email : String) : Option User := s.users.find? fun u => u.email == email

/-- The role of the user in the organization. -/
def role? (s : Store ι) (userId orgId : Nat) : Option Role :=
  (s.memberships.find? fun m => m.userId == userId && m.orgId == orgId).map Membership.role

variable [DecidableEq ι]

/-- The invitations after the transaction wrote the rows that it holds. -/
def written (s : Store ι) (i : ι) (f : Invitation → Invitation) (hf : ∀ v, key (f v) = key v) : Table Invitation :=
  s.invitations.updateMany (fun v => s.rows.holder v.id = some i) f hf

def release (s : Store ι) (i : ι) : Store ι :=
  { s with rows := s.rows.release i, keys := s.keys.filter fun r => r.2 ≠ i }

/-- Insert a key, unless it is `taken`: `none` while another transaction has inserted it. -/
def reserve (s : Store ι) (i : ι) (k : UniqueKey) (taken : Bool) : Option (Store ι) :=
  if taken then some s
  else if s.keys.any fun r => r.1 = k && r.2 ≠ i then none
  else some { s with keys := (k, i) :: s.keys }

/-- Update a row, if it is `there`: `none` while another transaction holds it. -/
def hold (s : Store ι) (i : ι) (id : Nat) (there : Bool) : Option (Store ι) :=
  if s.rows.open? i id then some { s with rows := s.rows.take i id there } else none

end Store

/-- The users with the joiner, and the id of its account. -/
def Joiner.join (joiner : Joiner) (users : Table User) : Table User × Nat :=
  match joiner with
  | .existing userId => (users, userId)
  | .new email => (users.insert (fun id => ⟨id, email, none⟩) (Members.key_newUser email), users.next)

variable [DecidableEq ι]

def sem (i : ι) (w : Stmt) (s : Store ι) : Option (Store ι) :=
  match w with
  | .revokeLive orgId email =>
    some { s with
      rows := s.rows.start i (orgId, email) (s.liveIds orgId email)
      begun := Function.update s.begun i s.invitations.next }
  | .revokeRow id => s.hold i id (s.isLive id)
  | .insertInvitation tokenHash => s.reserve i (.tokenHash tokenHash) (s.findInvitation tokenHash).isSome
  | .commitInvitation now draft =>
    some (Store.release { s with
      invitations := (s.written i (fun v => { v with revokedAt := some now }) fun _ => rfl).insert draft.row fun _ => rfl } i)
  | .revokeOne id orgId => if s.revocable id orgId then s.hold i id true else some s
  | .commitRevoke now =>
    some (Store.release { s with invitations := s.written i (fun v => { v with revokedAt := some now }) fun _ => rfl } i)
  | .claim id => if s.isLive id then s.hold i id true else some s
  | .insertUser email => s.reserve i (.email email) (s.findUser email).isSome
  | .upsertMembership (.existing userId) orgId => s.reserve i (.membership userId orgId) (s.role? userId orgId).isSome
  | .commitAccept now joiner orgId role =>
    some (Store.release { s with
      users := (joiner.join s.users).1
      memberships := match role with
        | some role => s.memberships.insert (fun id => ⟨id, (joiner.join s.users).2, orgId, role⟩) fun _ => rfl
        | none => s.memberships
      invitations := s.written i (fun v => { v with acceptedAt := some now }) (Members.key_accepted now) } i)
  | .finish => some (s.release i)
  | _ => some s

end Store

inductive InviteError where
  | forbidden | invalidEmail | roleNotAllowed | alreadyMember
  deriving DecidableEq, Repr

inductive RevokeInvitationError where
  | forbidden | notFound
  deriving DecidableEq, Repr

inductive CreateUserError where
  | invalidEmail | emailTaken
  | policy (failure : PolicyFailure)
  deriving DecidableEq, Repr

inductive AcceptError where
  | invalidOrExpired | signInRequired | emailMismatch | accountRequired
  | createUser (error : CreateUserError)
  deriving DecidableEq, Repr

structure Invited where
  token : String
  invitationId : Nat
  expiresAt : Int
  deriving DecidableEq, Repr

structure Accepted where
  userId : Nat
  orgId : Nat
  role : Role
  createdAccount : Bool
  /-- Not returned by the function: which invitation it accepted. -/
  invitationId : Nat
  deriving DecidableEq, Repr

inductive Outcome where
  | invited (r : Except InviteError Invited)
  | revoked (r : Except RevokeInvitationError Unit)
  | accepted (r : Except AcceptError Accepted)
  | thrown

def Outcome.ok : Outcome → Bool
  | .invited r => r.isOk
  | .revoked r => r.isOk
  | .accepted r => r.isOk
  | .thrown => false

abbrev Call (ι : Type) := Prog Stmt (Store ι) Outcome

section Functions
variable {ι : Type}

def finish (a : Outcome) : Call ι := .stmt .finish fun _ => .ret a

def revokeRows (k : Call ι) : List Nat → Call ι
  | [] => k
  | id :: ids => .stmt (.revokeRow id) fun _ => revokeRows k ids

variable (hashToken toLowerCase : String → String)

/-- The transaction of `createInvitation`; `email` is normalized. -/
def replaceLink (actor : Actor) (email : String) (role : Role) (token : String) (now : Int) : Call ι :=
  let expiresAt := now + invitationTtlSeconds * 1000
  let insert : Call ι := .stmt (.insertInvitation (hashToken token)) fun s =>
    if (s.findInvitation (hashToken token)).isSome then finish .thrown
    else
      .stmt (.commitInvitation now ⟨actor.orgId, email, role, hashToken token, expiresAt⟩) fun s =>
        .ret (.invited (.ok ⟨token, s.invitations.next, expiresAt⟩))
  .stmt (.findMember actor.orgId email) fun s =>
    if s.isMember actor.orgId email then finish (.invited (.error .alreadyMember))
    else .stmt (.revokeLive actor.orgId email) fun s => revokeRows insert (s.liveIds actor.orgId email)

def createInvitation (actor : Actor) (input : String) (role : Role) (token : String) (now : Int) : Call ι :=
  let email := normalizeEmail toLowerCase input
  if !can actor.role .membersInvite then .ret (.invited (.error .forbidden))
  else if !(assignableRoles actor.role).contains role then .ret (.invited (.error .roleNotAllowed))
  else if decide (254 < Text.utf16Length email) || !isEmailShaped email then .ret (.invited (.error .invalidEmail))
  else replaceLink hashToken actor email role token now

def revokeInvitation (actor : Actor) (invitationId : Nat) (now : Int) : Call ι :=
  if !can actor.role .membersInvite then .ret (.revoked (.error .forbidden))
  else
    .stmt (.revokeOne invitationId actor.orgId) fun s =>
      if s.revocable invitationId actor.orgId then .stmt (.commitRevoke now) fun _ => .ret (.revoked (.ok ()))
      else finish (.revoked (.error .notFound))

/-- Goes on with the address of the new account. -/
def createUser (input password : String) (fail : CreateUserError → Call ι) (k : String → Call ι) : Call ι :=
  let email := normalizeEmail toLowerCase input
  if decide (254 < Text.utf16Length email) || !isEmailShaped email then fail .invalidEmail
  else
    match validatePasswordPolicy toLowerCase password email with
    | some failure => fail (.policy failure)
    | none =>
      .stmt (.findUser email) fun s =>
        if (s.findUser email).isSome then fail .emailTaken
        else .stmt (.insertUser email) fun s => if (s.findUser email).isSome then fail .emailTaken else k email

/-- `Abort` rolls the transaction back. -/
def abort (error : AcceptError) : Call ι := finish (.accepted (.error error))

def Joiner.created : Joiner → Bool
  | .existing _ => false
  | .new _ => true

/-- The membership, with the role it has if there is one already, and the end of the transaction. -/
def joinOrganization (invitation : Invitation) (now : Int) (joiner : Joiner) : Call ι :=
  let role? := fun s : Store ι => match joiner with
    | .existing userId => s.role? userId invitation.orgId
    | .new _ => none
  .stmt (.upsertMembership joiner invitation.orgId) fun s =>
    let role := (role? s).getD invitation.role
    let added := if (role? s).isNone then some role else none
    .stmt (.commitAccept now joiner invitation.orgId added) fun s =>
      .ret (.accepted (.ok ⟨(joiner.join s.users).2, invitation.orgId, role, joiner.created, invitation.id⟩))

/-- The transaction of `acceptInvitation`; `password` is that of a new account. -/
def acceptTransaction (invitation : Invitation) (now : Int) (joiner : Nat ⊕ String) : Call ι :=
  .stmt (.claim invitation.id) fun s =>
    if !s.isLive invitation.id then abort .invalidOrExpired
    else
      match joiner with
      | .inl userId => joinOrganization invitation now (.existing userId)
      | .inr password =>
        createUser toLowerCase invitation.email password (fun error => abort (.createUser error)) fun email =>
          joinOrganization invitation now (.new email)

def acceptInvitation (token : String) (now : Int) (signedInUserId : Option Nat) (newAccount : Option String) : Call ι :=
  if token = "" ∨ 256 < Text.utf16Length token then .ret (.accepted (.error .invalidOrExpired))
  else
    .stmt (.findInvitation (hashToken token)) fun s =>
      match s.findInvitation (hashToken token) with
      | none => .ret (.accepted (.error .invalidOrExpired))
      | some invitation =>
        if invitation.acceptedAt.isSome || invitation.revokedAt.isSome || decide (invitation.expiresAt ≤ now) then
          .ret (.accepted (.error .invalidOrExpired))
        else
          .stmt (.findUser invitation.email) fun s =>
            match s.findUser invitation.email with
            | some existing =>
              if existing.disabledAt.isSome then .ret (.accepted (.error .invalidOrExpired))
              else
                match signedInUserId with
                | none => .ret (.accepted (.error .signInRequired))
                | some userId =>
                  if userId ≠ existing.id then .ret (.accepted (.error .emailMismatch))
                  else acceptTransaction toLowerCase invitation now (.inl existing.id)
            | none =>
              match newAccount with
              | none => .ret (.accepted (.error .accountRequired))
              | some password => acceptTransaction toLowerCase invitation now (.inr password)

inductive Request where
  | createInvitation (actor : Actor) (email : String) (role : Role) (token : String) (now : Int)
  | revokeInvitation (actor : Actor) (invitationId : Nat) (now : Int)
  | acceptInvitation (token : String) (now : Int) (signedInUserId : Option Nat) (newAccount : Option String)

def Request.call : Request → Call ι
  | .createInvitation actor email role token now =>
    Invitations.createInvitation hashToken toLowerCase actor email role token now
  | .revokeInvitation actor invitationId now => Invitations.revokeInvitation actor invitationId now
  | .acceptInvitation token now signedInUserId newAccount =>
    Invitations.acceptInvitation hashToken toLowerCase token now signedInUserId newAccount

structure Op where
  request : Request
  /-- The statement that fails. -/
  failsAt : Option Nat

def Op.call (op : Op) : Call ι :=
  match op.failsAt with
  | none => op.request.call hashToken toLowerCase
  | some n => (op.request.call hashToken toLowerCase).failAt .finish .thrown n

/-- The account the caller of `acceptInvitation` is signed in as. -/
def Op.signedInUserId (op : Op) : Option Nat :=
  match op.request with
  | .acceptInvitation _ _ signedInUserId _ => signedInUserId
  | _ => none

abbrev System (ι : Type) := Conf ι Stmt (Store ι) Outcome

/-- No transaction is open yet. -/
def start (ops : ι → Op) (users : Table User) (memberships : Table Membership) (invitations : Table Invitation) :
    System ι where
  store := ⟨users, memberships, invitations, .free, [], fun _ => 0⟩
  calls := fun i => (ops i).call hashToken toLowerCase

end Functions

end IkelyaneMonitor.Auth.Invitations
