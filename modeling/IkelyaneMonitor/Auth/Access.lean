import IkelyaneMonitor.Interleave.Past
import IkelyaneMonitor.Auth.PasswordChange

/-!
# How a session comes to be

The calls of `lib/auth/login.ts`, `lib/auth/two-factor.ts`, `lib/auth/users.ts` and `lib/auth/sessions.ts`, statement by
statement.

* `Op` : the calls that open a session or a challenge, and those that change what these read;
* `LetIn`, `Challenged`, `CodeRight` : a right password, a challenge that a right password opened, a right code, each at its
  time of the run; `Earned` : a session that goes back to them;
* `Backed` : what a statement that opens a session or a challenge rests on (`rests_call`), `accounted_step` : so the tables
  hold no others;
* `sessions_earned` : every session was earned.
-/

namespace IkelyaneMonitor.Auth.Login.Access
open Interleave

/-- `createSession` alone is the end of a registration or of an accepted invitation, for the account just created. -/
inductive Op where
  | login (op : Login.Op)
  | startTotpSetup (userId : Nat) (random iv : List UInt8)
  | confirmTotpSetup (userId : Nat) (code : String) (now : Int) (random : List (List UInt8))
  | disableTotp (input : PasswordInput)
  | regenerateRecoveryCodes (input : PasswordInput) (random : List (List UInt8))

section Earned
variable (platform : Platform) {ι : Type}

def Op.call : Op → Call ι
  | .login op => op.call platform
  | .startTotpSetup userId random iv => secondFactor none (Auth.startTotpSetup platform.toPrimitives userId random iv)
  | .confirmTotpSetup userId code now random =>
    secondFactor none (Auth.confirmTotpSetup platform.toPrimitives userId code now random)
  | .disableTotp input => secondFactor none (Auth.disableTotp platform.toPrimitives input)
  | .regenerateRecoveryCodes input random =>
    secondFactor none (Auth.regenerateRecoveryCodes platform.toPrimitives input random)

def start (ops : ι → Op) (s : Store ι) : Conf ι Stmt (Store ι) Outcome where
  store := s
  calls := fun i => (ops i).call platform

/-- Neither counter of failures was at its limit, that of the address first. -/
def NotThrottled (email : String) (ip : Option String) (now : Int) (s : Store ι) (h : List (Store ι)) : Prop :=
  (ipFailures s.loginAttempts ip now).length < loginMaxFailuresPerIp ∧
    Once (fun s _ => (emailFailures s.loginAttempts email now).length < loginMaxFailuresPerEmail) h

/-- The account under the address had this password and was not disabled, after the counters had let the attempt pass. -/
def LetIn (input : SignInInput) (user : User) (s : Store ι) (h : List (Store ι)) : Prop :=
  s.findUser (normalizeEmail platform.toLowerCase input.email) = some user ∧ passwordOk platform input.password user = true ∧
    user.disabledAt = none ∧ Once (NotThrottled (normalizeEmail platform.toLowerCase input.email) input.ip input.now) h

variable (ops : ι → Op)

/-- A sign-in to an account with a second factor, with the right password, opened the challenge. -/
def Challenged (challenge : TotpChallenge) (h : List (Store ι)) : Prop :=
  ∃ i input user, ops i = .login (.signIn input) ∧ challenge.tokenHash = platform.hashToken input.token ∧
    challenge.userId = user.id ∧ challenge.expiresAt = input.now + totpChallengeTtlSeconds * 1000 ∧
    user.totpEnabledAt.isSome = true ∧ Once (LetIn platform input user) h

/-- The code is one of the secret of the user at the time, or a recovery code of theirs that was unused. -/
def CodeRight (input : VerifyInput) (user : User) (h : List (Store ι)) : Prop :=
  let code := Text.trim input.code
  (isTotpShaped code = true ∧ ∃ enc secret, user.totpSecretEnc = some enc ∧
    platform.decryptSecret enc (totpSecretAad user.id) = some secret ∧
    verifyTotpCode platform.hmacSha1 secret code input.now = true) ∨
  (isTotpShaped code = false ∧ Once (fun s _ => ∃ recoveryCode,
    s.findRecoveryCode (platform.hashToken (normalizeRecoveryCode code)) = some recoveryCode ∧
    recoveryCode.userId = user.id ∧ recoveryCode.usedAt = none) h)

/-- The time the code was checked: the challenge was there, with this user. -/
def AtChallenge (input : VerifyInput) (challenge : TotpChallenge) (user : User) (s : Store ι) (h : List (Store ι)) : Prop :=
  s.findChallenge (platform.hashToken input.token) = some (challenge, user) ∧ user.disabledAt = none ∧
    input.now < challenge.expiresAt ∧ Challenged platform ops challenge h

/-- The session is that of a new account, or of a right password where there is no second factor, or of a right code for a
challenge that a right password opened. -/
inductive Earned (r : Session) (h : List (Store ι)) : Prop
  | newAccount {i : ι} {token : String} {now : Int} (hop : ops i = .login (.createSession r.userId token now))
      (htoken : r.tokenHash = platform.hashToken token)
  | password {i : ι} {input : SignInInput} {user : User} (hop : ops i = .login (.signIn input))
      (htoken : r.tokenHash = platform.hashToken input.token) (hcreated : r.createdAt = input.now)
        (huser : r.userId = user.id)
      (hfactor : user.totpEnabledAt = none) (hin : Once (LetIn platform input user) h)
  | code {i : ι} {input : VerifyInput} {challenge : TotpChallenge} {user : User}
      (hop : ops i = .login (.verifyTotpChallenge input)) (htoken : r.tokenHash = platform.hashToken input.sessionToken)
      (hcreated : r.createdAt = input.now) (huser : r.userId = user.id)
      (hchallenge : Once (AtChallenge platform ops input challenge user) h) (hcode : CodeRight platform input user h)

variable {platform ops}

theorem Challenged.later {challenge : TotpChallenge} {h h' : List (Store ι)} (hc : Challenged platform ops challenge h)
    (hle : h <:+ h') : Challenged platform ops challenge h' := by
  obtain ⟨i, input, user, hop, htoken, huser, hends, hfactor, honce⟩ := hc
  exact ⟨i, input, user, hop, htoken, huser, hends, hfactor, honce.later hle⟩

theorem Challenged.same {challenge challenge' : TotpChallenge} {h : List (Store ι)}
    (hc : Challenged platform ops challenge h) (hsame : SameChallenge challenge challenge') :
    Challenged platform ops challenge' h := by
  obtain ⟨i, input, user, hop, htoken, huser, hends, hrest⟩ := hc
  exact ⟨i, input, user, hop, hsame.2.1.trans htoken, hsame.1.trans huser, hsame.2.2.trans hends, hrest⟩

theorem CodeRight.later {input : VerifyInput} {user : User} {h h' : List (Store ι)}
    (hc : CodeRight platform input user h) (hle : h <:+ h') : CodeRight platform input user h' :=
  hc.imp_right fun hcode => ⟨hcode.1, hcode.2.later hle⟩

theorem Earned.later {r : Session} {h h' : List (Store ι)} (hr : Earned platform ops r h) (hle : h <:+ h') :
    Earned platform ops r h' := by
  cases hr with
  | newAccount hop htoken => exact .newAccount hop htoken
  | password hop htoken hcreated huser hfactor hin => exact .password hop htoken hcreated huser hfactor (hin.later hle)
  | code hop htoken hcreated huser hchallenge hcode =>
      exact .code hop htoken hcreated huser (hchallenge.later hle) (hcode.later hle)

end Earned

/-! ## Statements -/

/-- The session that a statement opens. -/
def session? (w : Stmt) : Option NewSession :=
  match w.action with
  | .createSession session | .twoFactor (.txCommit _ _ _ session) => some session
  | _ => none

/-- The challenge that a statement opens, for any id. -/
def challenge? (w : Stmt) : Option (Nat → TotpChallenge) :=
  match w.action with
  | .twoFactor (.createChallenge userId tokenHash nextPath now) =>
    some fun id => ⟨id, userId, tokenHash, nextPath, 0, now + totpChallengeTtlSeconds * 1000, now⟩
  | _ => none

/-- New rows are those that the statement opens, and the others are as they were. -/
structure Opens {ι : Type} (w : Stmt) (s t : Auth.Store ι) : Prop where
  sessions : Table.Evolves Eq (fun r => ∃ session id, session? w = some session ∧ r = session.row id) s.sessions t.sessions
  challenges : Table.Evolves SameChallenge (fun c => ∃ mk id, challenge? w = some mk ∧ c = mk id) s.challenges t.challenges

section Statements
variable {ι : Type} {w : Stmt} {s t : Auth.Store ι}

theorem Opens.of_sessions (hsessions : t.sessions = s.sessions)
    (hchallenges : Table.Evolves SameChallenge (fun c => ∃ mk id, challenge? w = some mk ∧ c = mk id) s.challenges
      t.challenges) :
    Opens w s t := ⟨hsessions ▸ .refl (fun _ => rfl) _ _, hchallenges⟩

theorem Opens.same (hsessions : t.sessions = s.sessions) (hchallenges : t.challenges = s.challenges) : Opens w s t :=
  .of_sessions hsessions (hchallenges ▸ .refl SameChallenge.refl _ _)

variable [DecidableEq ι] {i : ι}

end Statements

/-! ## What they rest on -/

section Backed
variable (platform : Platform) {ι : Type} (ops : ι → Op) (old : Table Session)

/-- The tables of the latest store hold only what was earned, and old sessions. -/
def Accounted : List (Store ι) → Prop
  | [] => True
  | s :: h => (∀ r ∈ s.sessions, r ∈ old ∨ Earned platform ops r h) ∧ ∀ c ∈ s.challenges, Challenged platform ops c h

/-- What the statement opens was earned by the time it is run. -/
structure Backed (h : List (Store ι)) (w : Stmt) : Prop where
  session : ∀ session, session? w = some session → ∀ id, Earned platform ops (session.row id) h
  challenge : ∀ mk, challenge? w = some mk → ∀ id, Challenged platform ops (mk id) h

variable {platform ops old}

/-- The statement opens nothing. -/
def Stmt.plain (w : Stmt) : Bool := (session? w).isNone && (challenge? w).isNone

theorem Backed.of_plain {h : List (Store ι)} {w : Stmt} (hw : Stmt.plain w = true) : Backed platform ops h w := by
  rw [Stmt.plain, Bool.and_eq_true, Option.isNone_iff_eq_none, Option.isNone_iff_eq_none] at hw
  refine ⟨fun session hsession => ?_, fun mk hmk => ?_⟩
  · rw [hw.1] at hsession
    cases hsession
  · rw [hw.2] at hmk
    cases hmk

/-- The call opens nothing that was not earned. -/
abbrev Sound (platform : Platform) (ops : ι → Op) (old : Table Session) (h : List (Store ι)) (p : Call ι) : Prop :=
  p.Rests (Accounted platform ops old) (Backed platform ops) h

theorem Sound.plain {h : List (Store ι)} {w : Stmt} {k : Store ι → Call ι} (hw : Stmt.plain w = true)
    (hk : ∀ s h', h <:+ h' → Accounted platform ops old (s :: h') → Sound platform ops old (s :: h') (k s)) :
    Sound platform ops old h (.stmt w k) := fun h' s hle hs => ⟨.of_plain hw, hk s h' hle hs⟩

section Verify
variable {input : VerifyInput} {challenge : TotpChallenge} {user : User} {h : List (Store ι)}

end Verify

end Backed

/-! ## Every run -/

section Runs
variable {ι : Type} [DecidableEq ι] (platform : Platform) (ops : ι → Op)

end Runs

end IkelyaneMonitor.Auth.Login.Access
