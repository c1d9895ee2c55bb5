import Mathlib
import IkelyaneMonitor.Auth.TwoFactor

/-!
# Replacing a second factor

What a sequence of two-factor calls leaves of a user's secret and recovery codes.

* `Kept u s s'` : the secret of `u` and the set of recovery codes are the same, and used codes stay used;
* `sem_kept` : every statement keeps them but the four that write them (`Stmt.safe`);
* `secondFactor_kept` : so does every sequence of calls made without the password, as long as none of them is a
  `startTotpSetup` of the user or a `confirmTotpSetup` that goes through. Those two need no password
  (`secondFactor_replaced`).
-/

namespace IkelyaneMonitor.Auth
open Interleave

/-- Calls made one after another are alone in the system. -/
abbrev Solo := Store Unit

/-- The recovery codes of a user, used or not. -/
def codesOf (u : Nat) (t : Table TotpRecoveryCode) : List (Nat × String) :=
  (t.rows.filter fun c => c.userId == u).map fun c => (c.id, c.codeHash)

/-- The stored secret and the stored password of a user. -/
def credentialsOf (u : Nat) (t : Table User) : Option (Option String × Option String) :=
  (t.get? u).map fun user => (user.totpSecretEnc, user.passwordHash)

structure Kept (u : Nat) (s s' : Solo) : Prop where
  credentials : credentialsOf u s'.users = credentialsOf u s.users
  codes : codesOf u s'.recoveryCodes = codesOf u s.recoveryCodes
  used : ∀ c ∈ s.recoveryCodes, c.userId = u → c.usedAt.isSome = true →
    ∀ c' ∈ s'.recoveryCodes, c'.id = c.id → c'.usedAt.isSome = true

theorem mem_codesOf {u : Nat} {t : Table TotpRecoveryCode} {x : Nat × String} :
    x ∈ codesOf u t ↔ ∃ c ∈ t, c.userId = u ∧ (c.id, c.codeHash) = x := by
  simp [codesOf, Table.mem_def, and_assoc]

theorem Kept.refl (u : Nat) (s : Solo) : Kept u s s where
  credentials := rfl
  codes := rfl
  used := by
    intro c hc _ hused c' hc' hid
    rwa [Table.eq_of_key hc' hc hid]

theorem Kept.trans {u : Nat} {s s' s'' : Solo} (h : Kept u s s') (h' : Kept u s' s'') : Kept u s s'' where
  credentials := h'.credentials.trans h.credentials
  codes := h'.codes.trans h.codes
  used := by
    intro c hc hu hused c'' hc'' hid
    have hmem : (c.id, c.codeHash) ∈ codesOf u s'.recoveryCodes := h.codes ▸ mem_codesOf.mpr ⟨c, hc, hu, rfl⟩
    obtain ⟨c', hc', hu', heq⟩ := mem_codesOf.mp hmem
    have hid' : c'.id = c.id := congrArg Prod.fst heq
    exact h'.used c' hc' hu' (h.used c hc hu hused c' hc' hid') c'' hc'' (hid.trans hid'.symm)

/-! ## Statements -/

/-- The statement does not write the secret or the recovery codes of `u`. -/
def Stmt.safe (u : Nat) : Stmt → Bool
  | .updateTotpSecret userId _ | .confirm userId _ _ | .disable userId | .regenerate userId _ => userId != u
  | _ => true

theorem credentialsOf_updateMany {u : Nat} (t : Table User) {p : User → Bool} {f : User → User}
    (hf : ∀ r, key (f r) = key r) (h : ∀ user, p user = true → user.id ≠ u) :
    credentialsOf u (t.updateMany p f hf) = credentialsOf u t := by
  rw [credentialsOf, Table.get?_updateMany, credentialsOf, Option.map_map]
  refine Option.map_congr fun user hu => ?_
  have hid : user.id = u := (Table.get?_eq_some.mp hu).2
  simp only [Function.comp]
  split
  · rename_i hp
    exact absurd hid (h user hp)
  · rfl

theorem codesOf_updateMany {u : Nat} (t : Table TotpRecoveryCode) {p : TotpRecoveryCode → Bool}
    {f : TotpRecoveryCode → TotpRecoveryCode} (hf : ∀ r, key (f r) = key r)
    (h : ∀ c, (f c).userId = c.userId ∧ (f c).codeHash = c.codeHash) : codesOf u (t.updateMany p f hf) = codesOf u t := by
  have hsame : ∀ c, (if p c then f c else c).userId = c.userId ∧ ((if p c then f c else c).id,
      (if p c then f c else c).codeHash) = (c.id, c.codeHash) := by
    intro c
    split
    · exact ⟨(h c).1, by rw [(h c).2, show (f c).id = c.id from hf c]⟩
    · exact ⟨rfl, rfl⟩
  rw [codesOf, Table.updateMany, List.filter_map, List.map_map, codesOf]
  simp only [Function.comp_def, fun c => (hsame c).1, fun c => (hsame c).2]

theorem codesOf_deleteMany {u userId : Nat} (t : Table TotpRecoveryCode) (h : userId ≠ u) :
    codesOf u (t.deleteMany fun c => c.userId == userId) = codesOf u t := by
  rw [codesOf, Table.deleteMany, List.filter_filter, codesOf]
  congr 1
  refine List.filter_congr fun c _ => ?_
  by_cases hc : c.userId = u
  · simp [hc, Ne.symm h]
  · simp [hc]

theorem codesOf_foldl_insert {u userId : Nat} (h : userId ≠ u) (codeHashes : List String) (t : Table TotpRecoveryCode) :
    codesOf u (codeHashes.foldl (fun t codeHash => t.insert (fun id => ⟨id, userId, codeHash, none⟩) fun _ => rfl) t) =
      codesOf u t := by
  induction codeHashes generalizing t with
  | nil => rfl
  | cons codeHash codeHashes ih =>
      rw [List.foldl_cons, ih, codesOf, Table.insert, List.filter_append, codesOf]
      simp [h]

theorem mem_replaceCodes {s : Solo} {userId : Nat} {codeHashes : List String} {c : TotpRecoveryCode}
    (h : c ∈ s.replaceCodes userId codeHashes) : c ∈ s.recoveryCodes ∨ s.recoveryCodes.next ≤ c.id := by
  have hgen : ∀ (l : List String) (t : Table TotpRecoveryCode), s.recoveryCodes.next ≤ t.next →
      (∀ c ∈ t, c ∈ s.recoveryCodes ∨ s.recoveryCodes.next ≤ c.id) →
      ∀ c ∈ l.foldl (fun t codeHash => t.insert (fun id => ⟨id, userId, codeHash, none⟩) fun _ => rfl) t,
        c ∈ s.recoveryCodes ∨ s.recoveryCodes.next ≤ c.id := by
    intro l
    induction l with
    | nil => exact fun t _ ht => ht
    | cons codeHash l ih =>
        intro t hle ht
        refine ih _ (Nat.le_succ_of_le hle) fun c hc => ?_
        rcases Table.mem_insert.mp hc with hc | rfl
        · exact ht c hc
        · exact .inr hle
  exact hgen codeHashes (s.recoveryCodes.deleteMany fun c => c.userId == userId) (Nat.le_refl _)
    (fun c hc => .inl (Table.mem_deleteMany.mp hc).1) c h

/-- A user's codes replaced leave the others' as they are. -/
theorem Kept.replaceCodes {u userId : Nat} (h : userId ≠ u) (s : Solo) (codeHashes : List String) {users : Table User}
    (husers : credentialsOf u users = credentialsOf u s.users) :
    Kept u s { s with users := users, recoveryCodes := s.replaceCodes userId codeHashes } where
  credentials := husers
  codes := (codesOf_foldl_insert h codeHashes _).trans (codesOf_deleteMany _ h)
  used := by
    intro c hc _ hused c' hc' hid
    rcases mem_replaceCodes hc' with hmem | hnew
    · rwa [Table.eq_of_key hmem hc hid]
    · rw [hid] at hnew
      exact absurd (s.recoveryCodes.lt_next c hc) (Nat.not_lt.mpr hnew)

/-- **What a statement keeps.** -/
theorem sem_kept {u : Nat} {w : Stmt} {s s' : Solo} (hw : w.safe u = true) (h : sem () w s = some s') : Kept u s s' := by
  have hsame : ∀ s' : Solo, s'.users = s.users → s'.recoveryCodes = s.recoveryCodes → Kept u s s' := by
    intro s' hu hc
    have hk := Kept.refl u s
    exact ⟨by rw [hu], by rw [hc], by rw [hc]; exact hk.used⟩
  cases w with
  | updateTotpSecret userId enc =>
      have hne : userId ≠ u := by simpa [Stmt.safe] using hw
      cases h
      exact ⟨credentialsOf_updateMany _ (by intro _; rfl) fun user hp => (beq_iff_eq.mp hp).trans_ne hne, rfl,
        (Kept.refl u s).used⟩
  | confirm userId codeHashes now =>
      have hne : userId ≠ u := by simpa [Stmt.safe] using hw
      simp only [sem] at h
      split at h
      · cases h
      · split at h <;> cases h
        · exact Kept.replaceCodes hne s codeHashes
            (credentialsOf_updateMany _ (by intro _; rfl) fun user hp => (beq_iff_eq.mp hp).trans_ne hne)
        · exact Kept.refl u s
  | disable userId =>
      have hne : userId ≠ u := by simpa [Stmt.safe] using hw
      simp only [sem] at h
      split at h <;> cases h
      refine ⟨credentialsOf_updateMany _ (by intro _; rfl) fun user hp => (beq_iff_eq.mp hp).trans_ne hne,
        codesOf_deleteMany _ hne, ?_⟩
      intro c hc _ hused c' hc' hid
      rwa [Table.eq_of_key (Table.mem_deleteMany.mp hc').1 hc hid]
  | regenerate userId codeHashes =>
      have hne : userId ≠ u := by simpa [Stmt.safe] using hw
      simp only [sem] at h
      split at h
      · cases h
      · split at h <;> cases h
        · exact Kept.replaceCodes hne s codeHashes rfl
        · exact Kept.refl u s
  | txCommit challengeId codeId now session =>
      simp only [sem] at h
      split at h <;> cases h
      · exact hsame _ rfl rfl
      · refine ⟨rfl, codesOf_updateMany _ (by intro _; rfl) fun _ => ⟨rfl, rfl⟩, ?_⟩
        intro c hc _ hused c' hc' hid
        obtain ⟨c₀, hc₀, rfl⟩ := List.mem_map.mp hc'
        have hid₀ : c₀.id = c.id := by
          split at hid <;> exact hid
        rw [Table.eq_of_key hc₀ hc hid₀]
        split
        · rfl
        · exact hused
  | createChallenge | deleteChallenge | setFailedAttempts =>
      simp only [sem] at h
      split at h <;> cases h <;> exact hsame _ rfl rfl
  | txDeleteChallenge | txUseCode =>
      simp only [sem] at h
      split at h
      · cases h
      · split at h <;> cases h <;> exact hsame _ rfl rfl
  | _ =>
      cases h
      exact hsame _ rfl rfl

/-! ## Calls -/

section Calls
variable (prim : Primitives)

/-- The password given is not that of the user. -/
def wrongPassword (input : PasswordInput) (s : Solo) : Bool :=
  decide (1024 < Text.utf16Length input.password) ||
    (s.users.get? input.userId).all fun user => !prim.verifyPassword input.password user.passwordHash

/-- The calls that ask for the password are made with a wrong one. -/
def guessing : Op → Solo → Bool
  | .disableTotp input, s | .regenerateRecoveryCodes input _, s => wrongPassword prim input s
  | _, _ => true

/-- The call does not set up user `u`: it asks for no new secret, and confirms none with a code that verifies. -/
def noSetup (u : Nat) : Op → Solo → Bool
  | .startTotpSetup userId _ _, _ => userId != u
  | .confirmTotpSetup userId code now _, s => userId != u ||
      ((s.users.get? u).bind User.totpSecretEnc).all fun enc => (prim.decryptSecret enc (totpSecretAad u)).all fun secret =>
        !verifyTotpCode prim.hmacSha1 secret (Text.trim code) now
  | _, _ => true

variable {prim} {u : Nat}

theorem secret_of_credentials {s s₀ : Solo} (h : credentialsOf u s.users = credentialsOf u s₀.users) :
    (s.users.get? u).bind User.totpSecretEnc = (s₀.users.get? u).bind User.totpSecretEnc := by
  have hbind : ∀ o : Option User, o.bind User.totpSecretEnc =
      (o.map fun user => (user.totpSecretEnc, user.passwordHash)).bind Prod.fst := by
    intro o
    cases o <;> rfl
  rw [hbind, hbind]
  exact congrArg (Option.bind · Prod.fst) h

theorem password_of_credentials {s s₀ : Solo} (h : credentialsOf u s.users = credentialsOf u s₀.users) {user : User}
    (hu : s.users.get? u = some user) : ∃ user₀, s₀.users.get? u = some user₀ ∧ user₀.passwordHash = user.passwordHash := by
  rw [credentialsOf, hu, Option.map_some, eq_comm, credentialsOf, Option.map_eq_some_iff] at h
  obtain ⟨user₀, hu₀, heq⟩ := h
  exact ⟨user₀, hu₀, congrArg Prod.snd heq⟩

section All
variable {P : Solo → Prop}

theorem openSession_safe (input : VerifyInput) (challenge : TotpChallenge) (user : User) (codeId : Option Nat) :
    (openSession prim input challenge user codeId).All P (Stmt.safe u · = true) fun _ => True := by
  refine ⟨rfl, fun s _ => ⟨rfl, fun s' _ => ?_⟩⟩
  beta_reduce
  split <;> trivial

theorem settleChallenge_safe (input : VerifyInput) (challenge : TotpChallenge) (user : User) (codeId : Option Nat)
    (valid : Bool) : (settleChallenge prim input challenge user codeId valid).All P (Stmt.safe u · = true) fun _ => True := by
  refine ⟨rfl, fun s _ => ?_⟩
  beta_reduce
  split
  · refine ⟨rfl, fun s _ => ?_⟩
    beta_reduce
    split
    · trivial
    · cases codeId with
      | none => exact openSession_safe ..
      | some codeId =>
          refine ⟨rfl, fun s _ => ?_⟩
          beta_reduce
          split
          · trivial
          · exact openSession_safe ..
  · simp only
    split
    · refine ⟨rfl, fun s _ => ?_⟩
      beta_reduce
      split <;> trivial
    · refine ⟨rfl, fun s _ => ?_⟩
      beta_reduce
      split <;> trivial

theorem compareCode_safe (input : VerifyInput) (challenge : TotpChallenge) (user : User) :
    (compareCode prim input challenge user).All P (Stmt.safe u · = true) fun _ => True := by
  unfold compareCode
  simp only
  split
  · split
    · exact settleChallenge_safe ..
    · split
      · trivial
      · exact settleChallenge_safe ..
  · refine ⟨rfl, fun s _ => ?_⟩
    beta_reduce
    split
    · exact settleChallenge_safe ..
    · split <;> exact settleChallenge_safe ..

theorem verifyTotpChallenge_safe (input : VerifyInput) :
    (verifyTotpChallenge prim input).All P (Stmt.safe u · = true) fun _ => True := by
  unfold verifyTotpChallenge
  split
  · trivial
  · refine ⟨rfl, fun s _ => ?_⟩
    beta_reduce
    split
    · trivial
    · split
      · trivial
      · exact compareCode_safe ..

/-- Only the right password leads on to `k`. -/
theorem verifyCurrentPassword_safe {Q : Outcome → Prop} {input : PasswordInput} {failed : TotpCredentialError → Call Unit}
    {k : Call Unit} (hfailed : ∀ e, (failed e).All P (Stmt.safe u · = true) Q)
    (hk : ∀ s user, P s → s.users.get? input.userId = some user → ¬ 1024 < Text.utf16Length input.password →
      prim.verifyPassword input.password user.passwordHash = true → k.All P (Stmt.safe u · = true) Q) :
    (verifyCurrentPassword prim input failed k).All P (Stmt.safe u · = true) Q := by
  refine ⟨rfl, fun s hs => ?_⟩
  beta_reduce
  cases hu : s.users.get? input.userId with
  | none => exact hfailed _
  | some user =>
      refine ⟨rfl, fun s₁ _ => ⟨rfl, fun s₂ _ => ?_⟩⟩
      beta_reduce
      split
      · exact hfailed _
      · split
        · exact ⟨rfl, fun _ _ => hfailed _⟩
        · rename_i hright
          simp only [Bool.or_eq_true, decide_eq_true_eq, Bool.not_eq_true', not_or, Bool.not_eq_false] at hright
          exact hk s user hs hu hright.1 hright.2

end All

/-- A call made without the password and setting up nothing runs only safe statements. -/
theorem call_safe {op : Op} {s₀ : Solo} (hguess : guessing prim op s₀ = true) (hsetup : noSetup prim u op s₀ = true) :
    (op.call prim).All (fun s : Solo => credentialsOf u s.users = credentialsOf u s₀.users) (Stmt.safe u · = true)
      fun _ => True := by
  -- a password call on `u` with a wrong password goes nowhere
  have hwrong : ∀ input : PasswordInput, wrongPassword prim input s₀ = true → input.userId = u → ∀ (s : Solo) (user : User),
      credentialsOf u s.users = credentialsOf u s₀.users → s.users.get? input.userId = some user →
      ¬ 1024 < Text.utf16Length input.password → prim.verifyPassword input.password user.passwordHash = true → False := by
    rintro input hwrong rfl s user hs hu hshort hok
    obtain ⟨user₀, hu₀, hpw⟩ := password_of_credentials hs hu
    simp only [wrongPassword, hshort, decide_false, Bool.false_or, hu₀, Option.all_some, hpw, hok] at hwrong
    cases hwrong
  cases op with
  | startTotpSetup userId random iv =>
      refine ⟨hsetup, fun s _ => ?_⟩
      beta_reduce
      split <;> trivial
  | confirmTotpSetup userId code now random =>
      refine ⟨rfl, fun s hs => ?_⟩
      beta_reduce
      split
      · trivial
      · rename_i enc henc
        split
        · trivial
        · rename_i secret hsecret
          split
          · trivial
          · rename_i hverified
            have hne : userId ≠ u := by
              rintro rfl
              rw [secret_of_credentials hs] at henc
              simp only [noSetup, bne_self_eq_false, Bool.false_or, henc, Option.all_some, hsecret] at hsetup
              exact hverified hsetup
            refine ⟨by simpa [Stmt.safe] using hne, fun s _ => ?_⟩
            beta_reduce
            split <;> trivial
  | disableTotp input =>
      rw [Op.call, disableTotp]
      refine verifyCurrentPassword_safe (fun _ => trivial) fun s user hs hu hshort hok => ?_
      have hne : input.userId ≠ u := fun hid => hwrong input hguess hid s user hs hu hshort hok
      refine ⟨rfl, fun s _ => ?_⟩
      beta_reduce
      split
      · trivial
      · refine ⟨by simpa [Stmt.safe] using hne, fun s _ => ?_⟩
        beta_reduce
        split <;> trivial
  | regenerateRecoveryCodes input random =>
      rw [Op.call, regenerateRecoveryCodes]
      refine verifyCurrentPassword_safe (fun _ => trivial) fun s user hs hu hshort hok => ?_
      have hne : input.userId ≠ u := fun hid => hwrong input hguess hid s user hs hu hshort hok
      refine ⟨rfl, fun s _ => ?_⟩
      beta_reduce
      split
      · trivial
      · refine ⟨by simpa [Stmt.safe] using hne, fun s _ => ?_⟩
        beta_reduce
        split <;> trivial
  | createTotpChallenge userId nextPath now token =>
      refine ⟨rfl, fun s _ => ?_⟩
      beta_reduce
      split <;> trivial
  | verifyTotpChallenge input => exact verifyTotpChallenge_safe input

/-- **A second factor is kept** by every sequence of calls made without the password that sets up nothing for the user. -/
theorem secondFactor_kept {s s' : Solo}
    (h : Seq sem () (Op.call prim) (fun op s => guessing prim op s = true ∧ noSetup prim u op s = true) s s') :
    Kept u s s' := by
  refine h.rel (Kept.refl u) (fun _ _ _ => Kept.trans) fun op s₀ s₁ a hok hx => ?_
  refine (call_safe hok.1 hok.2).exec (Kept.refl u) (fun _ _ _ => Kept.trans) (fun w s s' hw hs hsem => ?_) rfl hx
  have hkept := sem_kept hw hsem
  exact ⟨hkept.credentials.trans hs, hkept⟩

end Calls

/-! ## A sample account -/

/-- Tokens, secrets and passwords stand for their own hashes; the HMAC has its true value for the key 1, 2, .., 20 at step
59666666, where the code is 365545. -/
def samplePrim : Primitives where
  hashToken := fun token => token
  hmacSha1 := fun key message =>
    if key = (List.range 20).map (fun n => UInt8.ofNat (n + 1)) ∧ message = counterBuffer 59666666 then
      [71, 99, 73, 142, 88, 167, 101, 169, 87, 52, 155, 80, 190, 201, 249, 5, 231, 87, 248, 180]
    else List.replicate 20 0
  encryptSecret := fun plaintext _ _ => plaintext
  decryptSecret := fun payload _ => some payload
  verifyPassword := fun password stored => stored == some password

/-- User 0 with two-factor authentication on, a recovery code and an open challenge. -/
def sampleAccount : Solo where
  users := Table.empty.insert (fun id => ⟨id, "ana@example.org", some "secret", .en, none, some "MFRGG", some 1⟩) fun _ => rfl
  challenges := Table.empty.insert (fun id => ⟨id, 0, "token", none, 0, 1790000300000, 1790000000000⟩) fun _ => rfl
  recoveryCodes := Table.empty.insert (fun id => ⟨id, 0, "AAAABBBBCCCCDDDD", none⟩) fun _ => rfl
  sessions := .empty
  memberships := .empty
  loginAttempts := .empty
  locks := []
  compared := []

/-- Ten buffers of random bytes. -/
def sampleRandom : List (List UInt8) := (List.range 10).map fun n => List.replicate 10 (UInt8.ofNat n)

/-- A wrong password, a wrong code, and a sign-in with the recovery code. -/
theorem secondFactor_kept_sample : ∃ s', execAll sem () (Op.call samplePrim)
      [.disableTotp ⟨0, "guess", none, 1790000000000⟩, .confirmTotpSetup 0 "123456" 1790000000000 sampleRandom,
        .verifyTotpChallenge ⟨"token", "aaaa-bbbb-cccc-dddd", 1790000000000, "session"⟩] sampleAccount = some s' ∧
    s'.recoveryCodes.rows.map (fun c => (c.codeHash, c.usedAt)) = [("AAAABBBBCCCCDDDD", some 1790000000000)] ∧
    Kept 0 sampleAccount s' := by
  have hrun : (execAll sem () (Op.call samplePrim)
      [.disableTotp ⟨0, "guess", none, 1790000000000⟩, .confirmTotpSetup 0 "123456" 1790000000000 sampleRandom,
        .verifyTotpChallenge ⟨"token", "aaaa-bbbb-cccc-dddd", 1790000000000, "session"⟩] sampleAccount).any (fun s' =>
      s'.recoveryCodes.rows.map (fun c => (c.codeHash, c.usedAt)) = [("AAAABBBBCCCCDDDD", some 1790000000000)]) = true := by
    decide +kernel
  obtain ⟨s', hs', hused⟩ := (Option.any_eq_true _ _).mp hrun
  have hseq : Seq sem () (Op.call samplePrim)
      (fun op s => guessing samplePrim op s = true ∧ noSetup samplePrim 0 op s = true) sampleAccount s' :=
    Seq.of_execAll (fun op s h => Bool.and_eq_true_iff.mp h) (by decide +kernel) hs'
  exact ⟨s', hs', of_decide_eq_true hused, secondFactor_kept hseq⟩

/-- **A second factor replaced without the password.** Restarting the set-up overwrites the secret of the enabled factor, and
confirming it replaces the recovery codes. -/
theorem secondFactor_replaced : ∃ s', Seq sem () (Op.call samplePrim) (fun op s => guessing samplePrim op s = true)
      sampleAccount s' ∧
    ((sampleAccount.users.get? 0).bind User.totpEnabledAt).isSome = true ∧ ¬ Kept 0 sampleAccount s' := by
  have hrun : (execAll sem () (Op.call samplePrim)
      [.startTotpSetup 0 ((List.range 20).map fun n => UInt8.ofNat (n + 1)) [],
        .confirmTotpSetup 0 "365545" 1790000000000 sampleRandom] sampleAccount).any (fun s' =>
      credentialsOf 0 s'.users != credentialsOf 0 sampleAccount.users &&
        (codesOf 0 s'.recoveryCodes).length == 10) = true := by
    decide +kernel
  obtain ⟨s', hs', hnew⟩ := (Option.any_eq_true _ _).mp hrun
  simp only [Bool.and_eq_true, bne_iff_ne] at hnew
  refine ⟨s', Seq.of_execAll (fun op s h => h) (by decide +kernel) hs', by decide, fun hkept => ?_⟩
  exact hnew.1 hkept.credentials

end IkelyaneMonitor.Auth
