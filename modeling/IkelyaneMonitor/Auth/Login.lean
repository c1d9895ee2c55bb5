import IkelyaneMonitor.Auth.Accounts
import IkelyaneMonitor.Auth.TwoFactor

/-!
# Signing in and changing the password (`lib/auth/login.ts`, `lib/auth/users.ts`, `lib/auth/sessions.ts`)

* `Store` : the tables of the second factor, the column `revokedAt` of the sessions, and the rows of users that an open
  transaction has written. Which password of a user a challenge or a session goes back to is a record of the run that no
  function reads: the passwords of a user are numbered, and a sign-in carries the number of the one it verified;
* `Action`, `Stmt`, `sem` : the statements. The transaction of `changePassword` runs statement by statement: its UPDATE locks
  the row of the user, then it revokes the sessions there are, and its writes appear when it commits;
* `secondFactor` : the calls of `lib/auth/two-factor.ts`, run in this store;
* `checkLoginThrottle`, `signIn`, `createSession`, `changePassword` : the functions; `Op` : their calls.

Random values are arguments of the calls. The audit rows, and the columns nothing here reads (the times of the last sign-in
and of the last change, addresses and user agents), are left out.
-/

namespace IkelyaneMonitor.Auth.Login
open Interleave

/-- The user whose password a sign-in has verified, and which of the user's passwords it was. -/
structure Verified where
  userId : Nat
  password : Nat
  deriving DecidableEq, Repr

/-- A change of password that committed. -/
structure Change where
  userId : Nat
  /-- The number of the password it set. -/
  password : Nat
  keepSessionId : Nat
  /-- Sessions with this id or a later one were opened after it. -/
  nextSessionId : Nat
  deriving DecidableEq, Repr

structure Store (ι : Type) extends Auth.Store ι where
  revokedAt : Nat → Option Int
  /-- The open transaction that wrote the row of a user, and whether it has gone through the sessions. -/
  changing : Nat → Option (ι × Bool)
  /-- The number of the password the user has. -/
  password : Nat → Nat
  challengePassword : Nat → Nat
  /-- None when the session was opened without a password. -/
  sessionPassword : Nat → Option Nat
  changes : List Change

inductive Action where
  | twoFactor (w : Auth.Stmt)
  | findUserByEmail (email : String)
  | clearEmailFailures (email : String)
  | updateLogin (userId : Nat) (passwordHash : Option String)
  | findFirstMembership (userId : Nat)
  | createSession (session : NewSession)
  | purgeOldAttempts (now : Int)
  | purgeDeadSessions (now : Int)
  | txUpdateUser (userId : Nat)
  | txRevokeSessions (userId exceptSessionId : Nat)
  | txCommit (userId : Nat) (passwordHash : String) (keepSessionId : Nat) (revoked : List Nat) (now : Int)

/-- A statement, and the password a sign-in that runs it has verified. -/
structure Stmt where
  verified : Option Verified
  action : Action

/-- The rows from `old` up to `new` get the value `v`. -/
def fill {β : Type} (old new : Nat) (v : β) (f : Nat → β) : Nat → β := fun id => if old ≤ id ∧ id < new then v else f id

namespace Store

variable {ι : Type}

def findUser (s : Store ι) (email : String) : Option User := s.users.find? fun u => u.email == email

/-- The foreign key and the unique index of `sessions`. -/
def opens (s : Store ι) (session : NewSession) : Bool :=
  (s.users.get? session.userId).isSome && s.sessions.rows.all fun x => x.tokenHash != session.tokenHash

/-- The sessions `revokeAllSessions` finds. -/
def revocable (s : Store ι) (userId exceptSessionId : Nat) : List Nat :=
  (s.sessions.rows.filter fun r => r.userId == userId && (s.revokedAt r.id).isNone && r.id != exceptSessionId).map Session.id

/-- The tables become `t`; what was added to them carries the password the sign-in verified. -/
def write (s : Store ι) (verified : Option Verified) (t : Auth.Store ι) : Store ι :=
  { s with
    toStore := t
    revokedAt := fill s.sessions.next t.sessions.next none s.revokedAt
    challengePassword := fill s.challenges.next t.challenges.next
      ((verified.map Verified.password).getD 0) s.challengePassword
    sessionPassword := fill s.sessions.next t.sessions.next (verified.map Verified.password) s.sessionPassword }

end Store

theorem fill_self {β : Type} (n : Nat) (v : β) (f : Nat → β) : fill n n v f = f := by
  funext id
  unfold fill
  rw [if_neg (by omega)]

@[simp] theorem Store.write_self {ι : Type} (s : Store ι) (verified : Option Verified) :
    s.write verified s.toStore = s := by
  simp only [Store.write, fill_self]

section Semantics
variable {ι : Type} [DecidableEq ι]

/-- `none` while the statement waits for a row that another transaction has locked. -/
def sem (i : ι) (w : Stmt) (s : Store ι) : Option (Store ι) :=
  match w.action with
  | .twoFactor w' => (Auth.sem i w' s.toStore).map (s.write w.verified)
  | .clearEmailFailures email =>
    some { s with loginAttempts := s.loginAttempts.deleteMany fun a => a.email == email && !a.success }
  | .updateLogin userId passwordHash =>
    if (s.changing userId).isSome then none
    else
      match passwordHash with
      | none => some s
      | some passwordHash =>
        some { s with
          users := s.users.updateMany (fun u => u.id == userId) (fun u => { u with passwordHash := some passwordHash })
            fun _ => rfl
          password := Function.update s.password userId ((w.verified.map Verified.password).getD 0) }
  | .createSession session =>
    if s.opens session then
      some (s.write w.verified { s.toStore with sessions := s.sessions.insert session.row session.key_row })
    else some s
  | .purgeOldAttempts now =>
    some { s with loginAttempts := s.loginAttempts.deleteMany fun a => decide (a.createdAt < now - 24 * 60 * 60 * 1000) }
  | .purgeDeadSessions now =>
    let cutoff := now - 24 * 60 * 60 * 1000
    some { s with
      sessions := s.sessions.deleteMany fun r =>
        decide (r.absoluteExpiresAt < cutoff) || (s.revokedAt r.id).any fun t => decide (t < cutoff) }
  | .txUpdateUser userId =>
    if (s.changing userId).isSome then none
    else if (s.users.get? userId).isSome then some { s with changing := Function.update s.changing userId (some (i, false)) }
    else some s
  | .txRevokeSessions userId _ => some { s with changing := Function.update s.changing userId (some (i, true)) }
  | .txCommit userId passwordHash keepSessionId revoked now =>
    some { s with
      users := s.users.updateMany (fun u => u.id == userId) (fun u => { u with passwordHash := some passwordHash })
        fun _ => rfl
      revokedAt := fun id => if id ∈ revoked then some now else s.revokedAt id
      changing := Function.update s.changing userId none
      password := Function.update s.password userId (s.changes.length + 1)
      changes := ⟨userId, s.changes.length + 1, keepSessionId, s.sessions.next⟩ :: s.changes }
  | .findUserByEmail _ | .findFirstMembership _ => some s

theorem sem_twoFactor (i : ι) (verified : Option Verified) (w : Auth.Stmt) (s : Store ι) :
    sem i ⟨verified, .twoFactor w⟩ s = (Auth.sem i w s.toStore).map (s.write verified) := rfl

/-- A query leaves the store as it is. -/
theorem sem_query {i : ι} {verified : Option Verified} {w : Auth.Stmt} {s : Store ι}
    (h : Auth.sem i w s.toStore = some s.toStore) : sem i ⟨verified, .twoFactor w⟩ s = some s := by
  rw [sem_twoFactor, h, Option.map_some, Store.write_self]

end Semantics

/-! ## The functions -/

inductive ChangePasswordError where
  | invalidCurrentPassword | throttled | notFound
  | policy (failure : PolicyFailure)
  deriving DecidableEq, Repr

inductive Outcome where
  | signedIn (token : String) (expiresAt : Int) (userId : Nat) (email : String) (locale : Locale)
  | invalidCredentials
  | throttled (retryAfterSeconds : Int)
  /-- A challenge was opened (`totp_required`), or verified. -/
  | secondFactor (outcome : Auth.Outcome)
  | created (token : String) (expiresAt : Int) (activeOrgId : Option Nat)
  | passwordChanged (result : Except ChangePasswordError Nat)
  | thrown

abbrev Call (ι : Type) := Prog Stmt (Store ι) Outcome

/-- What the functions rest on beside the cryptography of the second factor. -/
structure Platform extends Primitives where
  toLowerCase : String → String
  /-- The stored hash was made with weaker parameters than those in use. -/
  needsRehash : String → Bool
  hashPassword : (password salt : String) → String

structure SignInInput where
  email : String
  password : String
  ip : Option String
  nextPath : Option String
  now : Int
  /-- The token of the session or of the challenge, and the salt of a new hash, freshly generated. -/
  token : String
  salt : String
  /-- Does the call purge the tables at its end? -/
  purges : Bool

structure ChangePasswordInput where
  userId : Nat
  currentPassword : String
  newPassword : String
  keepSessionId : Nat
  ip : Option String
  now : Int
  salt : String

def maxPasswordInput : Nat := 1024

section Functions
variable (platform : Platform) {ι : Type}

/-- The user a lookup of the second factor finds, with the password that opened the challenge. -/
def Store.verifiedBy (s : Store ι) : Auth.Stmt → Option Verified
  | .findChallenge tokenHash => (s.findChallenge tokenHash).map fun found => ⟨found.2.id, s.challengePassword found.1.id⟩
  | _ => none

/-- A call of the second factor: from the lookup of its challenge on, it goes back to the password of the challenge. -/
def secondFactor (verified : Option Verified) : Auth.Call ι → Call ι
  | .ret outcome => .ret (.secondFactor outcome)
  | .stmt w k => .stmt ⟨verified, .twoFactor w⟩ fun s => secondFactor (verified <|> s.verifiedBy w) (k s.toStore)

/-- Goes on with `k`, or with `blocked` while one of the two counters is at its limit. -/
def checkLoginThrottle (email : String) (ip : Option String) (now : Int) (blocked : Int → Call ι) (k : Call ι) : Call ι :=
  .stmt ⟨none, .twoFactor (.findEmailFailures email now)⟩ fun s₁ =>
    .stmt ⟨none, .twoFactor (.findIpFailures ip now)⟩ fun s₂ =>
      let wait := throttleWait (emailFailures s₁.loginAttempts email now) (ipFailures s₂.loginAttempts ip now) now
      if 0 < wait then blocked wait else k

def createSession (verified : Option Verified) (userId : Nat) (token : String) (now : Int)
    (k : NewSession → Call ι) : Call ι :=
  .stmt ⟨verified, .findFirstMembership userId⟩ fun s =>
    let session : NewSession := ⟨userId, platform.hashToken token, s.firstMembership userId, now⟩
    .stmt ⟨verified, .createSession session⟩ fun s => if s.opens session then k session else .ret .thrown

/-- `verifyPassword` refuses an account without a password. -/
def passwordOk (password : String) (user : User) : Bool :=
  password ≠ "" && decide (Text.utf16Length password ≤ maxPasswordInput) &&
    user.passwordHash.any fun stored => stored ≠ "" && platform.verifyPassword password (some stored)

/-- The end of a sign-in: a session, and now and then the housekeeping. -/
def openSession (input : SignInInput) (user : User) (verified : Verified) : Call ι :=
  createSession platform (some verified) user.id input.token input.now fun session =>
    let done : Call ι := .ret (.signedIn input.token session.expiresAt user.id user.email user.locale)
    if input.purges then
      .stmt ⟨none, .purgeOldAttempts input.now⟩ fun _ => .stmt ⟨none, .purgeDeadSessions input.now⟩ fun _ => done
    else done

/-- What follows the right password. -/
def passSignIn (input : SignInInput) (email : String) (user : User) (verified : Verified) : Call ι :=
  let passwordHash :=
    if user.passwordHash.any platform.needsRehash then some (platform.hashPassword input.password input.salt) else none
  .stmt ⟨some verified, .twoFactor (.recordLoginAttempt email input.ip true input.now)⟩ fun _ =>
    .stmt ⟨some verified, .clearEmailFailures email⟩ fun _ =>
      .stmt ⟨some verified, .updateLogin user.id passwordHash⟩ fun s =>
        if (s.users.get? user.id).isNone then .ret .thrown
        else if user.totpEnabledAt.isSome then
          secondFactor (some verified)
            (createTotpChallenge platform.toPrimitives user.id input.nextPath input.now input.token)
        else openSession platform input user verified

def failSignIn (input : SignInInput) (email : String) : Call ι :=
  .stmt ⟨none, .twoFactor (.recordLoginAttempt email input.ip false input.now)⟩ fun _ => .ret .invalidCredentials

def signIn (input : SignInInput) : Call ι :=
  let email := normalizeEmail platform.toLowerCase input.email
  checkLoginThrottle email input.ip input.now (fun wait => .ret (.throttled wait)) <|
    .stmt ⟨none, .findUserByEmail email⟩ fun s =>
      match s.findUser email with
      | none => failSignIn input email
      | some user =>
        if !passwordOk platform input.password user || user.disabledAt.isSome then failSignIn input email
        else passSignIn platform input email user ⟨user.id, s.password user.id⟩

/-- The transaction of `changePassword`. -/
def changeTransaction (input : ChangePasswordInput) (user : User) : Call ι :=
  .stmt ⟨none, .txUpdateUser user.id⟩ fun s =>
    if (s.users.get? user.id).isNone then .ret .thrown
    else
      .stmt ⟨none, .txRevokeSessions user.id input.keepSessionId⟩ fun s =>
        let revoked := s.revocable user.id input.keepSessionId
        .stmt ⟨none, .txCommit user.id (platform.hashPassword input.newPassword input.salt) input.keepSessionId revoked
          input.now⟩ fun _ => .ret (.passwordChanged (.ok revoked.length))

def changePassword (input : ChangePasswordInput) : Call ι :=
  .stmt ⟨none, .twoFactor (.findUser input.userId)⟩ fun s =>
    match s.users.get? input.userId with
    | none => .ret (.passwordChanged (.error .notFound))
    | some user =>
      checkLoginThrottle user.email input.ip input.now (fun _ => .ret (.passwordChanged (.error .throttled))) <|
        if 1024 < Text.utf16Length input.currentPassword ||
            !platform.verifyPassword input.currentPassword user.passwordHash then
          .stmt ⟨none, .twoFactor (.recordLoginAttempt user.email input.ip false input.now)⟩ fun _ =>
            .ret (.passwordChanged (.error .invalidCurrentPassword))
        else
          match validatePasswordPolicy platform.toLowerCase input.newPassword user.email with
          | some failure => .ret (.passwordChanged (.error (.policy failure)))
          | none => changeTransaction platform input user

inductive Op where
  | signIn (input : SignInInput)
  | verifyTotpChallenge (input : VerifyInput)
  | createSession (userId : Nat) (token : String) (now : Int)
  | changePassword (input : ChangePasswordInput)

def Op.call : Op → Call ι
  | .signIn input => Login.signIn platform input
  | .verifyTotpChallenge input => secondFactor none (Auth.verifyTotpChallenge platform.toPrimitives input)
  | .createSession userId token now => Login.createSession platform none userId token now fun session =>
      .ret (.created token session.expiresAt session.activeOrgId)
  | .changePassword input => Login.changePassword platform input

end Functions

end IkelyaneMonitor.Auth.Login
