import IkelyaneMonitor.Interleave.History
import IkelyaneMonitor.Auth.Login

/-!
# The limit per source address

`checkLoginThrottle` counts the failures of an address in the rows of `login_attempts`, from which a successful sign-in
deletes those of its e-mail.

* `failures ip since s` : the failures from `ip` on record; `Counted` : they cover the sign-ins that failed, `counted_call` :
  a call keeps that when it clears no failure from `ip` that is still in the window (`ClearsNothing`);
* `failures_le` : so at most `LOGIN_MAX_FAILURES_PER_IP` sign-ins from `ip` fail within the window, in any run of such calls
  one after another (`failures_over_limit` : not in every run).
-/

namespace IkelyaneMonitor.Auth.Login
open Interleave

/-- Calls made one after another are alone in the system. -/
abbrev Solo := Store Unit

abbrev Log := List (SignInInput × Outcome)

def window : Int := loginWindowSeconds * 1000

def Outcome.refused : Outcome → Bool
  | .invalidCredentials => true
  | _ => false

/-- A sign-in from `ip`, since then, that got to the verification of the password and failed. -/
def failedSince (ip : String) (since : Int) (entry : SignInInput × Outcome) : Bool :=
  entry.1.ip == some ip && entry.2.refused && decide (since ≤ entry.1.now)

/-- The failures from `ip` since then that are on record. -/
def failures (ip : String) (since : Int) (s : Auth.Store Unit) : List LoginAttempt :=
  s.loginAttempts.rows.filter fun a => a.ipAddress == some ip && !a.success && decide (since ≤ a.createdAt)

/-- The call is made no earlier than the ones before it. -/
def InOrder (h : Log) (input : SignInInput) : Prop := ∀ entry ∈ h, entry.1.now ≤ input.now

section Calls
variable (platform : Platform)

def signInAlone (input : SignInInput) (s : Solo) : Option (Solo × Outcome) := (signIn platform input).exec sem () s

def throttled (input : SignInInput) (s : Solo) : Int :=
  let email := normalizeEmail platform.toLowerCase input.email
  throttleWait (emailFailures s.loginAttempts email input.now) (ipFailures s.loginAttempts input.ip input.now) input.now

/-- The account whose credentials the sign-in brings. -/
def account (input : SignInInput) (s : Solo) : Option User :=
  (s.findUser (normalizeEmail platform.toLowerCase input.email)).filter fun user =>
    passwordOk platform input.password user && user.disabledAt.isNone

/-- If the sign-in gets through, no failure from `ip` under its e-mail is in the window. -/
def ClearsNothing (ip : String) (input : SignInInput) (s : Solo) : Prop :=
  throttled platform input s ≤ 0 → (account platform input s).isSome = true →
    ∀ a ∈ failures ip (input.now - window) s.toStore, a.email ≠ normalizeEmail platform.toLowerCase input.email

/-! ## What a call does to the failures -/

variable {platform}

/-- Throttled, refused, or let in. -/
theorem signInAlone_eq (input : SignInInput) (s : Solo) : signInAlone platform input s =
    if 0 < throttled platform input s then some (s, .throttled (throttled platform input s))
    else
      match account platform input s with
      | none => (failSignIn input (normalizeEmail platform.toLowerCase input.email)).exec sem () s
      | some user =>
        (passSignIn platform input (normalizeEmail platform.toLowerCase input.email) user ⟨user.id, s.password user.id⟩).exec
          sem () s := by
  simp only [signInAlone, signIn, checkLoginThrottle, Prog.exec, sem_query (w := .findEmailFailures _ _) rfl,
    sem_query (w := .findIpFailures _ _) rfl, Option.bind_some]
  change Prog.exec sem () (if 0 < throttled platform input s then Prog.ret (Outcome.throttled (throttled platform input s))
    else _) s = _
  by_cases hwait : 0 < throttled platform input s
  · rw [if_pos hwait, if_pos hwait]
    rfl
  · rw [if_neg hwait, if_neg hwait, Prog.exec, sem, Option.bind_some, account]
    cases hfound : s.findUser (normalizeEmail platform.toLowerCase input.email) with
    | none => rfl
    | some user =>
        simp only [Option.filter_some]
        cases passwordOk platform input.password user <;> cases user.disabledAt <;> simp

/-! ## A call that gets through -/

/-- The statement deletes no failure from `ip` since then but those of `email`, and adds none. -/
def Stmt.Passing (email : String) (since : Int) (w : Stmt) : Prop :=
  match w.action with
  | .twoFactor (.recordLoginAttempt _ _ success _) => success = true
  | .clearEmailFailures e => e = email
  | .purgeOldAttempts now => now - window ≤ since
  | _ => True

/-- No failure from `ip` since then is under `email`. -/
def Others (ip email : String) (since : Int) (s : Auth.Store Unit) : Prop := ∀ a ∈ failures ip since s, a.email ≠ email

/-- Only `recordLoginAttempt` writes the attempts. -/
theorem sem_loginAttempts {w : Auth.Stmt} {s s' : Auth.Store Unit} (h : Auth.sem () w s = some s') :
    s'.loginAttempts = s.loginAttempts ∨ ∃ email ip success now, w = .recordLoginAttempt email ip success now ∧
      s'.loginAttempts = s.loginAttempts.insert (fun id => ⟨id, email, ip, success, now⟩) fun _ => rfl := by
  cases w with
  | recordLoginAttempt email ip success now =>
      cases h
      exact .inr ⟨email, ip, success, now, rfl, rfl⟩
  | _ =>
      refine .inl ?_
      simp only [Auth.sem] at h
      first
        | (cases h <;> rfl)
        | (split at h <;> first | (cases h <;> rfl) | (split at h <;> cases h <;> rfl))

theorem failures_deleteMany {ip : String} {since : Int} {s s' : Auth.Store Unit} {p : LoginAttempt → Bool}
    (hs : s'.loginAttempts = s.loginAttempts.deleteMany p) (hp : ∀ a ∈ failures ip since s, p a = false) :
    failures ip since s' = failures ip since s := by
  unfold failures
  rw [hs]
  change (s.loginAttempts.rows.filter fun a => !p a).filter _ = _
  rw [List.filter_filter]
  refine List.filter_congr fun a ha => ?_
  cases hfail : (a.ipAddress == some ip && !a.success && decide (since ≤ a.createdAt)) with
  | false => rfl
  | true => rw [hp a (List.mem_filter.mpr ⟨ha, hfail⟩)]; rfl

theorem failures_insert {ip : String} {since : Int} {s s' : Auth.Store Unit} {mk : Nat → LoginAttempt}
    {hmk : ∀ n, (mk n).id = n} (hs : s'.loginAttempts = s.loginAttempts.insert mk hmk) :
    failures ip since s' = failures ip since s ++ [mk s.loginAttempts.next].filter fun a =>
      a.ipAddress == some ip && !a.success && decide (since ≤ a.createdAt) := by
  unfold failures
  rw [hs]
  exact List.filter_append _ _

theorem sem_failures {ip email : String} {since : Int} {w : Stmt} {s s' : Solo} (hw : w.Passing email since)
    (hothers : Others ip email since s.toStore) (h : sem () w s = some s') :
    failures ip since s'.toStore = failures ip since s.toStore := by
  obtain ⟨verified, action⟩ := w
  cases action with
  | twoFactor w =>
      obtain ⟨t, ht, rfl⟩ := Option.map_eq_some_iff.mp h
      rcases sem_loginAttempts ht with heq | ⟨email', ip', success, now, rfl, heq⟩
      · exact congrArg (List.filter _) (congrArg Table.rows heq)
      · change success = true at hw
        change failures ip since t = _
        rw [failures_insert (s := s.toStore) heq, List.filter_singleton, hw]
        simp
  | clearEmailFailures e =>
      cases h
      change e = email at hw
      refine failures_deleteMany rfl fun a ha => ?_
      rw [hw, beq_eq_false_iff_ne.mpr (hothers a ha), Bool.false_and]
  | purgeOldAttempts now =>
      cases h
      change now - window ≤ since at hw
      refine failures_deleteMany rfl fun a ha => decide_eq_false ?_
      have hsince : since ≤ a.createdAt := by
        have := (List.mem_filter.mp ha).2
        simp only [Bool.and_eq_true, decide_eq_true_eq] at this
        exact this.2
      have : window = 900000 := rfl
      omega
  | _ =>
      simp only [sem] at h
      first
        | (cases h <;> rfl)
        | (split at h <;> first | (cases h <;> rfl) | (split at h <;> cases h <;> rfl))

theorem passing_secondFactor {email : String} {since : Int} (verified : Option Verified) (userId : Nat)
    (nextPath : Option String) (now : Int) (token : String) {P : Solo → Prop} :
    (secondFactor verified (createTotpChallenge platform.toPrimitives userId nextPath now token) : Call Unit).All P
      (Stmt.Passing email since) fun a => a.refused = false := by
  refine ⟨trivial, fun s _ => ?_⟩
  beta_reduce
  split <;> exact rfl

theorem passing_openSession (input : SignInInput) (user : User) (verified : Verified) {email : String} {since : Int}
    (hsince : input.now - window ≤ since) {P : Solo → Prop} :
    (openSession platform input user verified : Call Unit).All P (Stmt.Passing email since) fun a => a.refused = false := by
  refine ⟨trivial, fun s _ => ⟨trivial, fun s' _ => ?_⟩⟩
  beta_reduce
  split
  · dsimp only
    split
    · exact ⟨hsince, fun _ _ => ⟨trivial, fun _ _ => rfl⟩⟩
    · exact rfl
  · exact rfl

theorem passing_passSignIn (input : SignInInput) (email : String) (user : User) (verified : Verified) {since : Int}
    (hsince : input.now - window ≤ since) {P : Solo → Prop} :
    (passSignIn platform input email user verified : Call Unit).All P (Stmt.Passing email since)
      fun a => a.refused = false := by
  refine ⟨rfl, fun _ _ => ⟨rfl, fun _ _ => ⟨trivial, fun s _ => ?_⟩⟩⟩
  beta_reduce
  split
  · exact rfl
  · split
    · exact passing_secondFactor _ _ _ _ _
    · exact passing_openSession input user verified hsince

/-- A sign-in that gets through leaves the failures of the window, unless it clears some of them. -/
theorem exec_passSignIn {ip : String} {input : SignInInput} {email : String} {user : User} {verified : Verified}
    {since : Int} (hsince : input.now - window ≤ since) {s s' : Solo} {a : Outcome}
    (hothers : Others ip email since s.toStore)
    (h : (passSignIn platform input email user verified).exec sem () s = some (s', a)) :
    a.refused = false ∧ failures ip since s'.toStore = failures ip since s.toStore := by
  have hkeep : ∀ (w : Stmt) (s s' : Solo), w.Passing email since → Others ip email since s.toStore → sem () w s = some s' →
      Others ip email since s'.toStore ∧ failures ip since s'.toStore = failures ip since s.toStore := by
    intro w s s' hw hs hsem
    have heq := sem_failures hw hs hsem
    refine ⟨?_, heq⟩
    unfold Others
    rw [heq]
    exact hs
  have hall : (passSignIn platform input email user verified : Call Unit).All (fun s => Others ip email since s.toStore)
      (Stmt.Passing email since) fun a => a.refused = false := passing_passSignIn input email user verified hsince
  refine ⟨hall.value (fun w s s' hw hs hsem => (hkeep w s s' hw hs hsem).1) hothers h, ?_⟩
  exact hall.exec (R := fun s s' : Solo => failures ip since s'.toStore = failures ip since s.toStore) (fun _ => rfl)
    (fun _ _ _ h h' => h'.trans h) hkeep hothers h

/-! ## Runs -/

/-- The failures on record since then cover the sign-ins that failed. -/
def Counted (ip : String) (h : Log) (s : Solo) : Prop :=
  ∀ since, (∀ entry ∈ h, entry.1.now - window ≤ since) → h.countP (failedSince ip since) ≤
    (failures ip since s.toStore).length

/-- At most `LOGIN_MAX_FAILURES_PER_IP` sign-ins from `ip` got to the verification and failed, within any 15 minutes. -/
def WithinLimit (ip : String) (h : Log) : Prop :=
  ∀ since, (h.countP fun entry => failedSince ip since entry && decide (entry.1.now ≤ since + window)) ≤ loginMaxFailuresPerIp

/-- An attempt from `ip` that is let through finds fewer failures than the limit. -/
theorem failures_lt {ip : String} {input : SignInInput} {s : Solo} (hip : input.ip = some ip)
    (h : throttled platform input s ≤ 0) : (failures ip (input.now - window) s.toStore).length < loginMaxFailuresPerIp := by
  by_contra hge
  have hlength : (ipFailures s.loginAttempts (some ip) input.now).length =
      min 500 (failures ip (input.now - window) s.toStore).length := by
    rw [ipFailures, failuresSince, List.length_take, List.length_insertionSort, List.length_map]
    rfl
  have hpos : 0 < secondsUntilUnblocked (ipFailures s.loginAttempts (some ip) input.now) loginMaxFailuresPerIp input.now := by
    refine secondsUntilUnblocked_pos_iff.mpr ?_
    rw [hlength]
    have : loginMaxFailuresPerIp = 30 := rfl
    omega
  rw [throttled, hip, throttleWait] at h
  exact absurd (lt_of_lt_of_le hpos (le_max_right _ _)) (not_lt.mpr h)

theorem failures_mono (ip : String) {since since' : Int} (h : since' ≤ since) (s : Auth.Store Unit) :
    (failures ip since s).length ≤ (failures ip since' s).length := by
  unfold failures
  rw [← List.countP_eq_length_filter, ← List.countP_eq_length_filter]
  refine List.countP_mono_left fun a _ ha => ?_
  simp only [Bool.and_eq_true, decide_eq_true_eq] at ha ⊢
  exact ⟨ha.1, h.trans ha.2⟩

/-- What a call that failed leaves on record. -/
theorem exec_failSignIn (ip : String) (since : Int) {input : SignInInput} {email : String} {s s' : Solo} {a : Outcome}
    (h : (failSignIn input email).exec sem () s = some (s', a)) : a = .invalidCredentials ∧
      (failures ip since s'.toStore).length =
        (failures ip since s.toStore).length + if input.ip == some ip && decide (since ≤ input.now) then 1 else 0 := by
  cases h
  refine ⟨rfl, ?_⟩
  change (failures ip since { s.toStore with loginAttempts := _ }).length = _
  rw [@failures_insert ip since s.toStore _ (fun id => ⟨id, email, input.ip, false, input.now⟩) (fun _ => rfl) rfl,
    List.length_append, List.filter_singleton]
  simp only [Bool.not_false, Bool.and_true]
  cases (input.ip == some ip && decide (since ≤ input.now)) <;> rfl

/-- **A call**: what failed stays covered by what is on record. -/
theorem counted_call {ip : String} {h : Log} {input : SignInInput} {s s' : Solo} {a : Outcome}
    (hclears : ClearsNothing platform ip input s) (hs : Counted ip h s)
    (hcall : signInAlone platform input s = some (s', a)) : Counted ip ((input, a) :: h) s' := by
  intro since hsince
  have hnow : input.now - window ≤ since := hsince _ (List.mem_cons_self ..)
  have hold := hs since fun entry he => hsince entry (List.mem_cons_of_mem _ he)
  rw [List.countP_cons]
  rw [signInAlone_eq] at hcall
  split at hcall
  · cases hcall
    simpa [failedSince, Outcome.refused] using hold
  · rename_i hthrottle
    cases haccount : account platform input s with
    | none =>
        rw [haccount] at hcall
        obtain ⟨rfl, hlength⟩ := exec_failSignIn ip since hcall
        rw [hlength]
        simp only [failedSince, Outcome.refused, Bool.and_true]
        omega
    | some user =>
        rw [haccount] at hcall
        have hothers : Others ip (normalizeEmail platform.toLowerCase input.email) since s.toStore := by
          intro a ha
          have hmem : a ∈ failures ip (input.now - window) s.toStore := by
            unfold failures at ha ⊢
            simp only [List.mem_filter, Bool.and_eq_true, decide_eq_true_eq] at ha ⊢
            exact ⟨ha.1, ha.2.1, hnow.trans ha.2.2⟩
          exact hclears (not_lt.mp hthrottle) (by rw [haccount]; rfl) a hmem
        obtain ⟨hrefused, heq⟩ := exec_passSignIn hnow hothers hcall
        rw [heq, failedSince, hrefused]
        simpa using hold

/-- In a run of calls one after another that clear no failure from `ip` that is still in the window, the limit holds. -/
theorem failures_le (platform : Platform) (ip : String) (s : Solo) {h : Log} {s' : Solo}
    (hr : History (signInAlone platform) (fun h input s => InOrder h input ∧ ClearsNothing platform ip input s) s h s') :
    WithinLimit ip h := by
  have hboth : Counted ip h s' ∧ WithinLimit ip h := by
    induction hr with
    | start => exact ⟨fun _ _ => Nat.zero_le _, fun _ => Nat.zero_le _⟩
    | @call h s₁ s₂ input a _ hok hcall ih =>
        refine ⟨counted_call hok.2 ih.1 hcall, fun since => ?_⟩
        rw [List.countP_cons]
        split
        · rename_i hfailed
          simp only [failedSince, Bool.and_eq_true, beq_iff_eq, decide_eq_true_eq] at hfailed
          obtain ⟨⟨⟨hip, hrefused⟩, hsince⟩, huntil⟩ := hfailed
          -- it was let through, so the ones before it in the window are fewer than the limit
          have hlet : throttled platform input s₁ ≤ 0 := by
            by_contra hwait
            rw [signInAlone_eq, if_pos (not_le.mp hwait)] at hcall
            cases hcall
            cases hrefused
          have hwindow : input.now - window ≤ since := by omega
          have hbefore : (h.countP fun entry => failedSince ip since entry && decide (entry.1.now ≤ since + window)) ≤
              (failures ip since s₁.toStore).length := by
            refine le_trans (List.countP_mono_left fun entry _ he => (Bool.and_eq_true_iff.mp he).1) (ih.1 since ?_)
            intro entry he
            have := hok.1 entry he
            omega
          have := failures_mono ip hwindow s₁.toStore
          have := failures_lt hip hlet
          omega
        · exact ih.2 since
  exact hboth.2

end Calls

/-! ## Guesses between sign-ins of one's own -/

def plain : Platform where
  hashToken := id
  hmacSha1 := fun _ _ => List.replicate 20 0
  encryptSecret := fun plaintext _ _ => plaintext
  decryptSecret := fun payload _ => some payload
  verifyPassword := fun password stored => stored == some password
  toLowerCase := id
  needsRehash := fun _ => false
  hashPassword := fun password _ => password

def oneAccount : Solo where
  users := Table.empty.insert (fun id => ⟨id, "me@example.org", some "right", .en, none, none, none⟩) fun _ => rfl
  challenges := .empty
  recoveryCodes := .empty
  sessions := .empty
  memberships := .empty
  loginAttempts := .empty
  locks := []
  compared := []
  revokedAt := fun _ => none
  changing := fun _ => none
  password := fun _ => 0
  challengePassword := fun _ => 0
  sessionPassword := fun _ => some 0
  changes := []

/-- The `n`th call from one address, a second after the one before it. -/
def attempt (email password : String) (n : Nat) : SignInInput where
  email := email
  password := password
  ip := some "203.0.113.9"
  nextPath := none
  now := 1000 * n
  token := String.ofList (List.replicate n 'a')
  salt := ""
  purges := false

def inOrder (h : Log) (input : SignInInput) (_ : Solo) : Bool := h.all fun entry => decide (entry.1.now ≤ input.now)

theorem inOrder_iff {h : Log} {input : SignInInput} {s : Solo} : inOrder h input s = true ↔ InOrder h input := by
  simp [inOrder, InOrder]

instance (platform : Platform) (ip : String) (input : SignInInput) (s : Solo) :
    Decidable (ClearsNothing platform ip input s) :=
  inferInstanceAs (Decidable (_ → _ → _))

/-- Nine guesses at another account, the last of them throttled, and a sign-in to one's own. -/
def guesses : List SignInInput :=
  (List.range 9).map (attempt "you@example.org" "guess") ++ [attempt "me@example.org" "right" 9]

theorem failures_le_guesses : ∃ h s', History (signInAlone plain)
      (fun h input s => InOrder h input ∧ ClearsNothing plain "203.0.113.9" input s) oneAccount h s' ∧
    h.countP (failedSince "203.0.113.9" 0) = 8 ∧ WithinLimit "203.0.113.9" h := by
  have hrun : (runAll (signInAlone plain)
      (fun h input s => inOrder h input s && decide (ClearsNothing plain "203.0.113.9" input s)) guesses [] oneAccount).any
        (fun r => r.1.countP (failedSince "203.0.113.9" 0) == 8) = true := by decide +kernel
  obtain ⟨⟨h, s'⟩, hrun, hcount⟩ := (Option.any_eq_true _ _).mp hrun
  have hhistory : History (signInAlone plain)
      (fun h input s => InOrder h input ∧ ClearsNothing plain "203.0.113.9" input s) oneAccount h s' := by
    refine History.of_runAll (fun h op s hp => ?_) .start hrun
    obtain ⟨horder, hclears⟩ := Bool.and_eq_true_iff.mp hp
    exact ⟨inOrder_iff.mp horder, of_decide_eq_true hclears⟩
  exact ⟨h, s', hhistory, beq_iff_eq.mp hcount, failures_le plain "203.0.113.9" oneAccount hhistory⟩

/-- Seven wrong passwords and the right one, over and over. -/
def ownAccount : List SignInInput :=
  (List.range 35).map fun n => attempt "me@example.org" (if n % 8 = 7 then "right" else "wrong") n

/-- **More failures than the limit**: each sign-in clears the failures before it. -/
theorem failures_over_limit : ∃ h s', History (signInAlone plain) (fun h input _ => InOrder h input) oneAccount h s' ∧
    ¬ WithinLimit "203.0.113.9" h := by
  have hrun : (runAll (signInAlone plain) inOrder ownAccount [] oneAccount).any (fun r =>
      (r.1.countP fun entry => failedSince "203.0.113.9" 0 entry && decide (entry.1.now ≤ 0 + window)) == 31) = true := by
    decide +kernel
  obtain ⟨⟨h, s'⟩, hrun, hcount⟩ := (Option.any_eq_true _ _).mp hrun
  refine ⟨h, s', History.of_runAll (fun h op s hp => inOrder_iff.mp hp) .start hrun, fun hlimit => ?_⟩
  have hle := hlimit 0
  rw [beq_iff_eq.mp hcount] at hle
  exact absurd hle (by decide)

end IkelyaneMonitor.Auth.Login
