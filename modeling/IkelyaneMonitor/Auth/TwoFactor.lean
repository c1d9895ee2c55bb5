import IkelyaneMonitor.Interleave.Prog
import IkelyaneMonitor.Auth.Totp
import IkelyaneMonitor.Auth.Throttle

/-!
# Two-factor authentication (`lib/auth/two-factor.ts`, `lib/auth/sessions.ts`)

The tables, the SQL statements and the functions as trees of them:

* `Primitives` : the cryptography, as parameters; `Store` : the tables, with the row locks of open transactions;
* `Stmt`, `sem` : the statements. The transaction of `verifyTotpChallenge` runs statement by statement: its DELETE and its
  UPDATE take the locks of their rows, and its writes appear when it commits. The other transactions only write, and
  commit with their last statement;
* `startTotpSetup`, `confirmTotpSetup`, `disableTotp`, `regenerateRecoveryCodes`, `createTotpChallenge`,
  `verifyTotpChallenge` : the functions; `Op` : their calls.

Random values are arguments of the calls. Addresses and user agents stored for display, the `otpauth://` link and the audit
rows are left out: nothing here reads them.
-/

namespace IkelyaneMonitor.Auth
open Interleave

inductive Locale where
  | en | fr
  deriving DecidableEq, Repr

structure User where
  id : Nat
  email : String
  passwordHash : Option String
  locale : Locale
  disabledAt : Option Int
  totpSecretEnc : Option String
  totpEnabledAt : Option Int

structure TotpChallenge where
  id : Nat
  userId : Nat
  tokenHash : String
  nextPath : Option String
  failedAttempts : Nat
  expiresAt : Int
  createdAt : Int

structure TotpRecoveryCode where
  id : Nat
  userId : Nat
  codeHash : String
  usedAt : Option Int

structure Session where
  id : Nat
  userId : Nat
  tokenHash : String
  activeOrgId : Option Nat
  createdAt : Int
  lastUsedAt : Int
  expiresAt : Int
  absoluteExpiresAt : Int

structure Membership where
  id : Nat
  userId : Nat
  orgId : Nat
  createdAt : Int

instance : Keyed User := ⟨User.id⟩
instance : Keyed TotpChallenge := ⟨TotpChallenge.id⟩
instance : Keyed TotpRecoveryCode := ⟨TotpRecoveryCode.id⟩
instance : Keyed Session := ⟨Session.id⟩
instance : Keyed Membership := ⟨Membership.id⟩

def sessionIdleSeconds : Int := 12 * 60 * 60
def sessionAbsoluteSeconds : Int := 7 * 24 * 60 * 60
def totpChallengeTtlSeconds : Int := 5 * 60
def totpMaxChallengeAttempts : Nat := 5

/-- Cryptography the functions rest on. `decryptSecret` is `none` where it throws. -/
structure Primitives where
  hashToken : String → String
  hmacSha1 : List UInt8 → List UInt8 → List UInt8
  encryptSecret : (plaintext aad : String) → (iv : List UInt8) → String
  decryptSecret : (payload aad : String) → Option String
  verifyPassword : String → Option String → Bool

inductive RowLock where
  | challenge (id : Nat)
  | recoveryCode (id : Nat)
  deriving DecidableEq, Repr

structure Store (ι : Type) where
  users : Table User
  challenges : Table TotpChallenge
  recoveryCodes : Table TotpRecoveryCode
  sessions : Table Session
  memberships : Table Membership
  loginAttempts : Table LoginAttempt
  /-- Row locks held by open transactions, each with its holder. -/
  locks : List (RowLock × ι)
  /-- Codes compared against each challenge so far, with the verdict: a record of the run that no function reads. -/
  compared : List (Nat × Bool)

structure NewSession where
  userId : Nat
  tokenHash : String
  activeOrgId : Option Nat
  now : Int

inductive Stmt where
  | updateTotpSecret (userId : Nat) (totpSecretEnc : String)
  | findUser (userId : Nat)
  | confirm (userId : Nat) (codeHashes : List String) (now : Int)
  | findEmailFailures (email : String) (now : Int)
  | findIpFailures (ip : Option String) (now : Int)
  | recordLoginAttempt (email : String) (ip : Option String) (success : Bool) (now : Int)
  | disable (userId : Nat)
  | regenerate (userId : Nat) (codeHashes : List String)
  | createChallenge (userId : Nat) (tokenHash : String) (nextPath : Option String) (now : Int)
  | findChallenge (tokenHash : String)
  | findRecoveryCode (challengeId : Nat) (codeHash : String)
  /-- No statement: the moment a code is compared against a challenge. -/
  | compare (challengeId : Nat) (valid : Bool)
  | deleteChallenge (id : Nat)
  | setFailedAttempts (id attempts : Nat)
  | txDeleteChallenge (id : Nat)
  | txUseCode (id : Nat) (now : Int)
  | txFindMembership (userId : Nat)
  | txCommit (challengeId : Nat) (codeId : Option Nat) (now : Int) (session : NewSession)

/-! ## Queries and writes -/

def NewSession.expiresAt (session : NewSession) : Int :=
  min (session.now + sessionIdleSeconds * 1000) (session.now + sessionAbsoluteSeconds * 1000)

def NewSession.row (session : NewSession) (id : Nat) : Session where
  id := id
  userId := session.userId
  tokenHash := session.tokenHash
  activeOrgId := session.activeOrgId
  createdAt := session.now
  lastUsedAt := session.now
  expiresAt := session.expiresAt
  absoluteExpiresAt := session.now + sessionAbsoluteSeconds * 1000

theorem NewSession.key_row (session : NewSession) (id : Nat) : key (session.row id) = id := rfl

namespace Store

variable {ι : Type}

/-- The challenge with its user. -/
def findChallenge (s : Store ι) (tokenHash : String) : Option (TotpChallenge × User) :=
  (s.challenges.find? fun c => c.tokenHash == tokenHash).bind fun challenge =>
    (s.users.get? challenge.userId).map fun user => (challenge, user)

def findRecoveryCode (s : Store ι) (codeHash : String) : Option TotpRecoveryCode :=
  s.recoveryCodes.find? fun c => c.codeHash == codeHash

/-- The organization the user joined first. -/
def firstMembership (s : Store ι) (userId : Nat) : Option Nat :=
  ((s.memberships.rows.filter fun m => m.userId == userId).insertionSort fun a b => a.createdAt ≤ b.createdAt).head?.map
    Membership.orgId

/-- The unique index on `codeHash`: the hashes are distinct and nobody else's. -/
def codesFree (s : Store ι) (userId : Nat) (codeHashes : List String) : Bool :=
  decide codeHashes.Nodup && s.recoveryCodes.rows.all fun c => c.userId == userId || !codeHashes.contains c.codeHash

/-- `deleteMany` and `createMany` of the codes of a user. -/
def replaceCodes (s : Store ι) (userId : Nat) (codeHashes : List String) : Table TotpRecoveryCode :=
  codeHashes.foldl (fun t codeHash => t.insert (fun id => ⟨id, userId, codeHash, none⟩) fun _ => rfl)
    (s.recoveryCodes.deleteMany fun c => c.userId == userId)

variable [DecidableEq ι]

def lockedByOther (s : Store ι) (i : ι) (l : RowLock) : Bool := s.locks.any fun x => x.1 == l && x.2 != i

/-- Some recovery code of the user is locked by another transaction. -/
def codesLocked (s : Store ι) (i : ι) (userId : Nat) : Bool :=
  s.recoveryCodes.rows.any fun c => c.userId == userId && s.lockedByOther i (.recoveryCode c.id)

def challengesLocked (s : Store ι) (i : ι) (userId : Nat) : Bool :=
  s.challenges.rows.any fun c => c.userId == userId && s.lockedByOther i (.challenge c.id)

def release (s : Store ι) (i : ι) : Store ι := { s with locks := s.locks.filter fun x => x.2 != i }

end Store

section Semantics
variable {ι : Type} [DecidableEq ι]

/-- What statement `w` of caller `i` does. A write of a row that another transaction has locked waits. A write of a row that
does not exist throws and changes nothing but, inside a transaction, gives up its locks. -/
def sem (i : ι) : Stmt → Store ι → Option (Store ι)
  | .updateTotpSecret userId enc, s =>
    some { s with
      users := s.users.updateMany (fun u => u.id == userId) (fun u => { u with totpSecretEnc := some enc }) fun _ => rfl }
  | .confirm userId codeHashes now, s =>
    if s.codesLocked i userId then none
    else if (s.users.get? userId).isSome && s.codesFree userId codeHashes then
      some { s with
        users := s.users.updateMany (fun u => u.id == userId) (fun u => { u with totpEnabledAt := some now }) fun _ => rfl
        recoveryCodes := s.replaceCodes userId codeHashes }
    else some s
  | .recordLoginAttempt email ip success now, s =>
    some { s with loginAttempts := s.loginAttempts.insert (fun id => ⟨id, email, ip, success, now⟩) fun _ => rfl }
  | .disable userId, s =>
    if s.codesLocked i userId || s.challengesLocked i userId then none
    else
      some { s with
        users := s.users.updateMany (fun u => u.id == userId)
          (fun u => { u with totpSecretEnc := none, totpEnabledAt := none }) fun _ => rfl
        recoveryCodes := s.recoveryCodes.deleteMany fun c => c.userId == userId
        challenges := s.challenges.deleteMany fun c => c.userId == userId }
  | .regenerate userId codeHashes, s =>
    if s.codesLocked i userId then none
    else if (s.users.get? userId).isSome && s.codesFree userId codeHashes then
      some { s with recoveryCodes := s.replaceCodes userId codeHashes }
    else some s
  | .createChallenge userId tokenHash nextPath now, s =>
    if (s.users.get? userId).isSome && s.challenges.rows.all fun c => c.tokenHash != tokenHash then
      some { s with
        challenges := s.challenges.insert
          (fun id => ⟨id, userId, tokenHash, nextPath, 0, now + totpChallengeTtlSeconds * 1000, now⟩) fun _ => rfl }
    else some s
  | .compare challengeId valid, s => some { s with compared := (challengeId, valid) :: s.compared }
  | .deleteChallenge id, s =>
    if s.lockedByOther i (.challenge id) then none
    else some { s with challenges := s.challenges.deleteMany fun c => c.id == id }
  | .setFailedAttempts id attempts, s =>
    if s.lockedByOther i (.challenge id) then none
    else
      some { s with
        challenges := s.challenges.updateMany (fun c => c.id == id) (fun c => { c with failedAttempts := attempts })
          fun _ => rfl }
  | .txDeleteChallenge id, s =>
    if s.lockedByOther i (.challenge id) then none
    else if (s.challenges.get? id).isSome then some { s with locks := (.challenge id, i) :: s.locks }
    else some (s.release i)
  | .txUseCode id _, s =>
    if s.lockedByOther i (.recoveryCode id) then none
    else if (s.recoveryCodes.get? id).isSome then some { s with locks := (.recoveryCode id, i) :: s.locks }
    else some (s.release i)
  | .txCommit challengeId codeId now session, s =>
    -- the unique index on the session's token
    if s.sessions.rows.any fun x => x.tokenHash == session.tokenHash then some (s.release i)
    else
      some { s.release i with
        challenges := s.challenges.deleteMany fun c => c.id == challengeId
        recoveryCodes := s.recoveryCodes.updateMany (fun c => codeId == some c.id)
          (fun c => { c with usedAt := some now }) fun _ => rfl
        sessions := s.sessions.insert session.row session.key_row }
  | _, s => some s

end Semantics

/-! ## The functions -/

inductive ConfirmTotpError where
  | noPendingSetup | invalidCode
  deriving DecidableEq, Repr

inductive TotpCredentialError where
  | invalidPassword | throttled | notEnabled
  deriving DecidableEq, Repr

inductive VerifyTotpError where
  | totpChallengeExpired | invalidCode | tooManyAttempts
  deriving DecidableEq, Repr

structure VerifiedTotpChallenge where
  token : String
  expiresAt : Int
  userId : Nat
  email : String
  locale : Locale
  nextPath : Option String
  usedRecoveryCode : Bool
  deriving DecidableEq, Repr

inductive Outcome where
  | setup (secret : String)
  | confirmed (result : Except ConfirmTotpError (List String))
  | disabled (result : Except TotpCredentialError Unit)
  | regenerated (result : Except TotpCredentialError (List String))
  | challenged (token : String) (expiresAt : Int)
  /-- A session, with the challenge and the recovery code it was opened with. -/
  | signedIn (challengeId : Nat) (codeId : Option Nat) (verified : VerifiedTotpChallenge)
  | refused (error : VerifyTotpError)
  /-- A statement or a decryption threw. -/
  | thrown

abbrev Call (ι : Type) := Prog Stmt (Store ι) Outcome

structure PasswordInput where
  userId : Nat
  password : String
  ip : Option String
  now : Int

structure VerifyInput where
  token : String
  code : String
  now : Int
  /-- The token of the session, freshly generated. -/
  sessionToken : String

section Functions
variable (prim : Primitives) {ι : Type}

def totpSecretAad (userId : Nat) : String := s!"user:{userId}:totp"

def startTotpSetup (userId : Nat) (random iv : List UInt8) : Call ι :=
  let secret := generateTotpSecret random
  .stmt (.updateTotpSecret userId (prim.encryptSecret secret (totpSecretAad userId) iv)) fun s =>
    if (s.users.get? userId).isSome then .ret (.setup secret) else .ret .thrown

/-- The hashes stored for freshly generated recovery codes. -/
def codeHashes (recoveryCodes : List String) : List String :=
  recoveryCodes.map fun code => prim.hashToken (normalizeRecoveryCode code)

def confirmTotpSetup (userId : Nat) (code : String) (now : Int) (random : List (List UInt8)) : Call ι :=
  .stmt (.findUser userId) fun s =>
    match (s.users.get? userId).bind User.totpSecretEnc with
    | none => .ret (.confirmed (.error .noPendingSetup))
    | some enc =>
      match prim.decryptSecret enc (totpSecretAad userId) with
      | none => .ret .thrown
      | some secret =>
        if !verifyTotpCode prim.hmacSha1 secret (Text.trim code) now then .ret (.confirmed (.error .invalidCode))
        else
          let recoveryCodes := random.map generateRecoveryCode
          .stmt (.confirm userId (codeHashes prim recoveryCodes) now) fun s =>
            if (s.users.get? userId).isSome && s.codesFree userId (codeHashes prim recoveryCodes) then
              .ret (.confirmed (.ok recoveryCodes))
            else .ret .thrown

/-- `verifyCurrentPassword`: goes on with `k` when the password is right, and with `failed` otherwise. -/
def verifyCurrentPassword (input : PasswordInput) (failed : TotpCredentialError → Call ι) (k : Call ι) : Call ι :=
  .stmt (.findUser input.userId) fun s =>
    match s.users.get? input.userId with
    | none => failed .invalidPassword
    | some user =>
      .stmt (.findEmailFailures user.email input.now) fun s₁ =>
        .stmt (.findIpFailures input.ip input.now) fun s₂ =>
          if 0 < throttleWait (emailFailures s₁.loginAttempts user.email input.now)
              (ipFailures s₂.loginAttempts input.ip input.now) input.now then failed .throttled
          else if 1024 < Text.utf16Length input.password || !prim.verifyPassword input.password user.passwordHash then
            .stmt (.recordLoginAttempt user.email input.ip false input.now) fun _ => failed .invalidPassword
          else k

def disableTotp (input : PasswordInput) : Call ι :=
  verifyCurrentPassword prim input (fun e => .ret (.disabled (.error e)))
    (.stmt (.findUser input.userId) fun s =>
      if ((s.users.get? input.userId).bind User.totpEnabledAt).isNone then .ret (.disabled (.error .notEnabled))
      else
        .stmt (.disable input.userId) fun s =>
          if (s.users.get? input.userId).isSome then .ret (.disabled (.ok ())) else .ret .thrown)

def regenerateRecoveryCodes (input : PasswordInput) (random : List (List UInt8)) : Call ι :=
  verifyCurrentPassword prim input (fun e => .ret (.regenerated (.error e)))
    (.stmt (.findUser input.userId) fun s =>
      if ((s.users.get? input.userId).bind User.totpEnabledAt).isNone then .ret (.regenerated (.error .notEnabled))
      else
        let recoveryCodes := random.map generateRecoveryCode
        .stmt (.regenerate input.userId (codeHashes prim recoveryCodes)) fun s =>
          if (s.users.get? input.userId).isSome && s.codesFree input.userId (codeHashes prim recoveryCodes) then
            .ret (.regenerated (.ok recoveryCodes))
          else .ret .thrown)

def createTotpChallenge (userId : Nat) (nextPath : Option String) (now : Int) (token : String) : Call ι :=
  .stmt (.createChallenge userId (prim.hashToken token) nextPath now) fun s =>
    if (s.users.get? userId).isSome && s.challenges.rows.all fun c => c.tokenHash != prim.hashToken token then
      .ret (.challenged token (now + totpChallengeTtlSeconds * 1000))
    else .ret .thrown

/-- The end of the transaction that opens the session: `createSession` and the commit. -/
def openSession (input : VerifyInput) (challenge : TotpChallenge) (user : User) (codeId : Option Nat) : Call ι :=
  .stmt (.txFindMembership user.id) fun s =>
    let session : NewSession := ⟨user.id, prim.hashToken input.sessionToken, s.firstMembership user.id, input.now⟩
    .stmt (.txCommit challenge.id codeId input.now session) fun s =>
      if s.sessions.rows.any fun x => x.tokenHash == session.tokenHash then .ret .thrown
      else
        .ret (.signedIn challenge.id codeId
          ⟨input.sessionToken, session.expiresAt, user.id, user.email, user.locale, challenge.nextPath, codeId.isSome⟩)

/-- What follows the comparison: the transaction, or the count of a wrong code. -/
def settleChallenge (input : VerifyInput) (challenge : TotpChallenge) (user : User) (codeId : Option Nat) (valid : Bool) :
    Call ι :=
  .stmt (.compare challenge.id valid) fun _ =>
    if valid then
      .stmt (.txDeleteChallenge challenge.id) fun s =>
        if (s.challenges.get? challenge.id).isNone then .ret .thrown
        else
          match codeId with
          | none => openSession prim input challenge user none
          | some codeId =>
            .stmt (.txUseCode codeId input.now) fun s =>
              if (s.recoveryCodes.get? codeId).isNone then .ret .thrown
              else openSession prim input challenge user (some codeId)
    else
      let attempts := challenge.failedAttempts + 1
      if totpMaxChallengeAttempts ≤ attempts then
        .stmt (.deleteChallenge challenge.id) fun s =>
          if (s.challenges.get? challenge.id).isSome then .ret (.refused .tooManyAttempts) else .ret .thrown
      else
        .stmt (.setFailedAttempts challenge.id attempts) fun s =>
          if (s.challenges.get? challenge.id).isSome then .ret (.refused .invalidCode) else .ret .thrown

/-- The comparison of a code: with the user's secret when it has the shape of one, with the recovery codes otherwise. -/
def compareCode (input : VerifyInput) (challenge : TotpChallenge) (user : User) : Call ι :=
  let code := Text.trim input.code
  if isTotpShaped code then
    match user.totpSecretEnc with
    | none => settleChallenge prim input challenge user none false
    | some enc =>
      match prim.decryptSecret enc (totpSecretAad user.id) with
      | none => .ret .thrown
      | some secret => settleChallenge prim input challenge user none (verifyTotpCode prim.hmacSha1 secret code input.now)
  else
    let codeHash := prim.hashToken (normalizeRecoveryCode code)
    .stmt (.findRecoveryCode challenge.id codeHash) fun s =>
      match s.findRecoveryCode codeHash with
      | none => settleChallenge prim input challenge user none false
      | some recoveryCode =>
        if recoveryCode.userId = challenge.userId ∧ recoveryCode.usedAt = none then
          settleChallenge prim input challenge user (some recoveryCode.id) true
        else settleChallenge prim input challenge user none false

def verifyTotpChallenge (input : VerifyInput) : Call ι :=
  if input.token = "" ∨ 256 < Text.utf16Length input.token then .ret (.refused .totpChallengeExpired)
  else
    .stmt (.findChallenge (prim.hashToken input.token)) fun s =>
      match s.findChallenge (prim.hashToken input.token) with
      | none => .ret (.refused .totpChallengeExpired)
      | some (challenge, user) =>
        if challenge.expiresAt ≤ input.now ∨ user.disabledAt.isSome then .ret (.refused .totpChallengeExpired)
        else compareCode prim input challenge user

inductive Op where
  | startTotpSetup (userId : Nat) (random iv : List UInt8)
  | confirmTotpSetup (userId : Nat) (code : String) (now : Int) (random : List (List UInt8))
  | disableTotp (input : PasswordInput)
  | regenerateRecoveryCodes (input : PasswordInput) (random : List (List UInt8))
  | createTotpChallenge (userId : Nat) (nextPath : Option String) (now : Int) (token : String)
  | verifyTotpChallenge (input : VerifyInput)

def Op.call : Op → Call ι
  | .startTotpSetup userId random iv => Auth.startTotpSetup prim userId random iv
  | .confirmTotpSetup userId code now random => Auth.confirmTotpSetup prim userId code now random
  | .disableTotp input => Auth.disableTotp prim input
  | .regenerateRecoveryCodes input random => Auth.regenerateRecoveryCodes prim input random
  | .createTotpChallenge userId nextPath now token => Auth.createTotpChallenge prim userId nextPath now token
  | .verifyTotpChallenge input => Auth.verifyTotpChallenge prim input

end Functions

end IkelyaneMonitor.Auth
