import IkelyaneMonitor.Interleave.History
import IkelyaneMonitor.Auth.Sessions

/-!
# How long a session lives

Calls run one after another; creations and validations at times that do not decrease.

* `Creates`, `Uses`, `Revokes` : the calls of a log that open, use or revoke the session of a token; tokens are told apart by
  their hashes;
* `Moved` : what a call does to a row, `step_sessions` : a call moves every row, or opens one; `Tracked` : what the log says
  of a row, `Inv` : of every row, `inv_step` : a call keeps it;
* `Lifetime` : the bounds on a session from both sides, `session_lifetime` : they hold after every run.
-/

namespace IkelyaneMonitor.Auth.Sessions
open Interleave

abbrev Log := List (Op × Outcome)

/-- The time of a creation or a validation. -/
def Op.now : Op → Option Int
  | .createSession _ _ now | .validateSession _ now => some now
  | _ => none

def Op.validates : Op → Bool
  | .validateSession _ _ => true
  | _ => false

/-- The call is made no earlier than the creations and validations before it. -/
def InOrder (h : Log) (op : Op) : Prop :=
  ∀ now, op.now = some now → ∀ entry ∈ h, ∀ now', entry.1.now = some now' → now' ≤ now

section Runs
variable (hashToken : String → String)

/-- The call opened session `id` of a token. -/
def Creates (tokenHash : String) (userId : Nat) (now : Int) (id : Nat) (entry : Op × Outcome) : Prop :=
  ∃ token expiresAt activeOrgId, entry = (.createSession userId token now, .created id expiresAt activeOrgId) ∧
    hashToken token = tokenHash

/-- The call validated a token. -/
def Validates (tokenHash : String) (now : Int) (entry : Op × Outcome) : Prop :=
  ∃ token context, entry = (.validateSession token now, .validated (some context)) ∧ hashToken token = tokenHash

def Uses (tokenHash : String) (now : Int) (entry : Op × Outcome) : Prop :=
  (∃ userId id, Creates hashToken tokenHash userId now id entry) ∨ Validates hashToken tokenHash now entry

/-- The call revokes session `id` of a user. -/
def Revokes (tokenHash : String) (userId id : Nat) : Op → Prop
  | .revokeSessionByToken token _ => hashToken token = tokenHash
  | .revokeAllSessions userId' exceptSessionId _ => userId' = userId ∧ exceptSessionId ≠ some id
  | _ => False

/-- The token is accepted at that time. -/
def Valid (token : String) (now : Int) (s : Store) : Prop := (validateSession hashToken token now s).2.isSome = true

structure Lifetime (h : Log) (s : Store) : Prop where
  capped : ∀ r ∈ s.sessions, r.expiresAt ≤ r.absoluteExpiresAt
  /-- Never 7 days or more after the creation. -/
  young : ∀ token now, Valid hashToken token now s → ∀ entry ∈ h, ∀ userId created id,
    Creates hashToken (hashToken token) userId created id entry → now < created + sessionAbsoluteSeconds * 1000
  /-- Never after a revocation. -/
  unrevoked : ∀ token now, Valid hashToken token now s → ∀ newer older op outcome, h = newer ++ (op, outcome) :: older →
    ∀ entry ∈ older, ∀ userId created id, Creates hashToken (hashToken token) userId created id entry →
      ¬ Revokes hashToken (hashToken token) userId id op
  /-- Never while the user is disabled. -/
  enabled : ∀ token now, Valid hashToken token now s → ∀ r ∈ s.sessions, r.tokenHash = hashToken token →
    ∀ u ∈ s.users, u.id = r.userId → u.disabledAt = none
  /-- Never when the last use is 12 hours or more in the past. -/
  recent : ∀ token now, Valid hashToken token now s → ∃ entry ∈ h, ∃ used, Uses hashToken (hashToken token) used entry ∧
    now < used + sessionIdleSeconds * 1000
  /-- Always within 12 hours, less 5 minutes, of a validation, until the absolute end. -/
  lasting : ∀ token now used context,
    (Op.validateSession token used, Outcome.validated (some context)) ∈ h → ∀ r ∈ s.sessions, r.tokenHash = hashToken token →
      r.revokedAt = none → (∃ u ∈ s.users, u.id = r.userId ∧ u.disabledAt = none) →
        now < min (used + sessionIdleSeconds * 1000 - sessionRefreshIntervalSeconds * 1000) r.absoluteExpiresAt →
          Valid hashToken token now s
  /-- The active organization is one of the user's. -/
  activeOrg : ∀ token now context org, (validateSession hashToken token now s).2 = some context →
    context.activeOrg = some org → ∃ m ∈ s.memberships, m.userId = context.user.id ∧ m.orgId = org.orgId

/-! ## What a call does to the rows -/

/-- A row before and after a call. -/
structure Moved (entry : Op × Outcome) (r r' : Session) : Prop where
  userId : r'.userId = r.userId
  tokenHash : r'.tokenHash = r.tokenHash
  createdAt : r'.createdAt = r.createdAt
  absoluteExpiresAt : r'.absoluteExpiresAt = r.absoluteExpiresAt
  revokedAt : r.revokedAt.isSome = true → r'.revokedAt.isSome = true
  /-- The idle expiry stays, or moves with a validation. -/
  idle : r'.lastUsedAt = r.lastUsedAt ∧ r'.expiresAt = r.expiresAt ∨
    Validates hashToken r.tokenHash r'.lastUsedAt entry ∧
      r'.expiresAt = min (r'.lastUsedAt + sessionIdleSeconds * 1000) r.absoluteExpiresAt
  /-- A validation leaves a last use that is at most 5 minutes old. -/
  used : ∀ now, Validates hashToken r.tokenHash now entry → now ≤ r'.lastUsedAt + sessionRefreshIntervalSeconds * 1000

/-- A row that a call opened. -/
structure Opened (entry : Op × Outcome) (s : Store) (r : Session) : Prop where
  creates : Creates hashToken r.tokenHash r.userId r.createdAt r.id entry
  absoluteExpiresAt : r.absoluteExpiresAt = r.createdAt + sessionAbsoluteSeconds * 1000
  lastUsedAt : r.lastUsedAt = r.createdAt
  expiresAt : r.expiresAt = min (r.lastUsedAt + sessionIdleSeconds * 1000) r.absoluteExpiresAt
  unique : ∀ r₀ ∈ s.sessions, r₀.tokenHash ≠ r.tokenHash

/-- The unique index on the hash of the token. -/
def Unique (s : Store) : Prop := ∀ r ∈ s.sessions, ∀ r' ∈ s.sessions, r.tokenHash = r'.tokenHash → r = r'

variable {hashToken}

theorem not_validates {op : Op} {outcome : Outcome} (hop : op.validates = false) {tokenHash : String} {now : Int} :
    ¬ Validates hashToken tokenHash now (op, outcome) := by
  rintro ⟨token, context, h, -⟩
  cases h
  cases hop

/-- A call that is not a validation, for a row it leaves or whose revocation or active organization it writes. -/
theorem Moved.quiet {op : Op} {outcome : Outcome} (hop : op.validates = false) {r r' : Session}
    (h : r'.toSession = { r.toSession with activeOrgId := r'.activeOrgId })
    (hrevoked : r.revokedAt.isSome = true → r'.revokedAt.isSome = true) : Moved hashToken (op, outcome) r r' where
  userId := by rw [h]
  tokenHash := by rw [h]
  createdAt := by rw [h]
  absoluteExpiresAt := by rw [h]
  revokedAt := hrevoked
  idle := .inl ⟨by rw [h], by rw [h]⟩
  used := fun _ hv => absurd hv (not_validates hop)

theorem findSession_some {s : Store} {tokenHash : String} {r : Session} (h : s.findSession tokenHash = some r) :
    r ∈ s.sessions ∧ r.tokenHash = tokenHash := by
  obtain ⟨hmem, heq⟩ := Table.find?_mem h
  exact ⟨hmem, beq_iff_eq.mp heq⟩

theorem findSession_none {s : Store} {tokenHash : String} (h : s.findSession tokenHash = none) :
    ∀ r ∈ s.sessions, r.tokenHash ≠ tokenHash := by
  intro r hr heq
  exact List.find?_eq_none.mp h r hr (beq_iff_eq.mpr heq)

/-- What a usable token says of its session and its user. -/
theorem usable_some {token : String} {now : Int} {s : Store} {session : Session} {user : User}
    (h : usable hashToken token now s = some (session, user)) :
    ¬ (token = "" ∨ 256 < Text.utf16Length token) ∧ s.findSession (hashToken token) = some session ∧
      s.users.get? session.userId = some user ∧ session.revokedAt = none ∧ now < session.expiresAt ∧
        now < session.absoluteExpiresAt ∧ user.disabledAt = none := by
  unfold usable at h
  split at h
  · cases h
  · rename_i htoken
    obtain ⟨session', hsession, h⟩ := Option.bind_eq_some_iff.mp h
    obtain ⟨user', huser, h⟩ := Option.bind_eq_some_iff.mp h
    split at h
    · cases h
    · rename_i hrevoked
      split at h
      · cases h
      · rename_i hexpired
        split at h
        · cases h
        · rename_i hdisabled
          cases h
          rw [not_or, not_le, not_le] at hexpired
          exact ⟨htoken, hsession, huser, Option.not_isSome_iff_eq_none.mp hrevoked, hexpired.1, hexpired.2,
            Option.not_isSome_iff_eq_none.mp hdisabled⟩

theorem usable_of {token : String} {now : Int} {s : Store} {session : Session} {user : User}
    (htoken : ¬ (token = "" ∨ 256 < Text.utf16Length token)) (hsession : s.findSession (hashToken token) = some session)
    (huser : s.users.get? session.userId = some user) (hrevoked : session.revokedAt = none) (hidle : now < session.expiresAt)
    (habsolute : now < session.absoluteExpiresAt) (hdisabled : user.disabledAt = none) :
    usable hashToken token now s = some (session, user) := by
  rw [usable, if_neg htoken, hsession, Option.bind_some, huser, Option.bind_some, hrevoked, hdisabled]
  simp [not_le.mpr hidle, not_le.mpr habsolute]

/-- What a call does to the sessions: it moves each one, or opens it, and deletes none. -/
structure Steps (hashToken : String → String) (entry : Op × Outcome) (s s' : Store) : Prop where
  old : ∀ r' ∈ s'.sessions, (∃ r ∈ s.sessions, r'.id = r.id ∧ Moved hashToken entry r r') ∨ Opened hashToken entry s r'
  kept : ∀ r ∈ s.sessions, ∃ r' ∈ s'.sessions, r'.id = r.id ∧ Moved hashToken entry r r'

theorem Steps.updateMany {entry : Op × Outcome} {s s' : Store} {p : Session → Bool} {f : Session → Session}
    (hf : ∀ r, key (f r) = key r) (h : s'.sessions = s.sessions.updateMany p f hf)
    (hp : ∀ r ∈ s.sessions, p r = true → Moved hashToken entry r (f r))
    (hn : ∀ r ∈ s.sessions, p r = false → Moved hashToken entry r r) : Steps hashToken entry s s' := by
  have hrow : ∀ r ∈ s.sessions, (if p r then f r else r).id = r.id ∧ Moved hashToken entry r (if p r then f r else r) := by
    intro r hr
    cases hpr : p r with
    | true => exact ⟨hf r, hp r hr hpr⟩
    | false => exact ⟨rfl, hn r hr hpr⟩
  refine ⟨fun r' hr' => ?_, fun r hr => ?_⟩
  · rw [h] at hr'
    obtain ⟨r, hr, rfl⟩ := Table.mem_updateMany.mp hr'
    exact .inl ⟨r, hr, hrow r hr⟩
  · rw [h]
    exact ⟨_, Table.mem_updateMany.mpr ⟨r, hr, rfl⟩, hrow r hr⟩

theorem Steps.same {entry : Op × Outcome} {s s' : Store} (h : s'.sessions = s.sessions)
    (hmoved : ∀ r ∈ s.sessions, Moved hashToken entry r r) : Steps hashToken entry s s' :=
  ⟨fun r hr => .inl ⟨r, h ▸ hr, rfl, hmoved r (h ▸ hr)⟩, fun r hr => ⟨r, h ▸ hr, rfl, hmoved r hr⟩⟩

/-- A validation of the token whose session `r` is. -/
theorem validates_eq {token : String} {now : Int} {s : Store} (hunique : Unique s) {session r : Session}
    (hsession : s.findSession (hashToken token) = some session) (hr : r ∈ s.sessions) {context : Option SessionContext}
    {now' : Int} (h : Validates hashToken r.tokenHash now' (.validateSession token now, .validated context)) :
    r = session ∧ now' = now := by
  obtain ⟨token', context', heq, hhash⟩ := h
  cases heq
  obtain ⟨hmem, hfound⟩ := findSession_some hsession
  exact ⟨hunique r hr session hmem (hhash.symm.trans hfound.symm), rfl⟩

/-- A validation: the row of the token is used, the others rest. -/
theorem steps_touch {token : String} {now : Int} {s : Store} {session : Session} {user : User} (hunique : Unique s)
    (h : usable hashToken token now s = some (session, user)) :
    Steps hashToken (.validateSession token now, .validated (some (touch session user now s).2)) s
      (touch session user now s).1 := by
  obtain ⟨-, hsession, -⟩ := usable_some h
  obtain ⟨hmem, hfound⟩ := findSession_some hsession
  generalize hcontext : (touch session user now s).2 = context
  have hvalidates : Validates hashToken session.tokenHash now (.validateSession token now, .validated (some context)) :=
    ⟨token, context, rfl, hfound.symm⟩
  have hrest : ∀ r ∈ s.sessions, (r = session → now ≤ r.lastUsedAt + sessionRefreshIntervalSeconds * 1000) →
      Moved hashToken (.validateSession token now, .validated (some context)) r r := by
    refine fun r hr hfresh => ⟨rfl, rfl, rfl, rfl, id, .inl ⟨rfl, rfl⟩, fun now' hv => ?_⟩
    obtain ⟨heq, rfl⟩ := validates_eq hunique hsession hr hv
    exact hfresh heq
  unfold touch
  dsimp only
  split
  · refine Steps.updateMany ?_ rfl (fun r hr hid => ?_) fun r hr hid => hrest r hr fun heq => ?_
    · exact fun _ => rfl
    · have heq : r = session := Table.eq_of_key hr hmem (beq_iff_eq.mp hid)
      subst heq
      refine ⟨rfl, rfl, rfl, rfl, id, .inr ⟨hvalidates, rfl⟩, fun now' hv => ?_⟩
      obtain ⟨-, rfl⟩ := validates_eq hunique hsession hr hv
      exact Int.le_add_of_nonneg_right (by decide)
    · rw [heq, beq_self_eq_true] at hid
      cases hid
  · rename_i hidle
    rw [Bool.or_eq_true, not_or, decide_eq_true_eq, not_lt] at hidle
    refine Steps.same rfl fun r hr => hrest r hr fun heq => ?_
    rw [heq]
    omega

theorem steps_quiet {op : Op} {outcome : Outcome} {s s' : Store} (hop : op.validates = false)
    (h : s'.sessions = s.sessions) : Steps hashToken (op, outcome) s s' :=
  Steps.same h fun _ _ => .quiet hop rfl id

/-- **What a call does to the sessions.** -/
theorem steps_step {op : Op} {s s' : Store} {outcome : Outcome} (hunique : Unique s)
    (h : step hashToken op s = (s', outcome)) : Steps hashToken (op, outcome) s s' := by
  cases op with
  | createSession userId token now =>
      rw [step, createSession] at h
      split at h
      · rename_i hcreate
        split at hcreate
        · cases hcreate
        · rename_i hfree
          rw [Bool.or_eq_true, not_or, Option.not_isSome_iff_eq_none] at hfree
          cases hcreate
          cases h
          refine ⟨fun r hr => ?_, fun r hr => ⟨r, Table.mem_insert.mpr (.inl hr), rfl, .quiet rfl rfl id⟩⟩
          rcases Table.mem_insert.mp hr with hold | rfl
          · exact .inl ⟨r, hold, rfl, .quiet rfl rfl id⟩
          · exact .inr ⟨⟨token, _, _, rfl, rfl⟩, rfl, rfl, rfl, findSession_none hfree.2⟩
      · rename_i hcreate
        cases h
        split at hcreate
        · cases hcreate
          exact steps_quiet rfl rfl
        · cases hcreate
  | validateSession token now =>
      rw [step, validateSession] at h
      cases husable : usable hashToken token now s with
      | none =>
          rw [husable] at h
          cases h
          refine Steps.same rfl fun r hr => ⟨rfl, rfl, rfl, rfl, id, .inl ⟨rfl, rfl⟩, fun now' hv => ?_⟩
          obtain ⟨_, _, heq, -⟩ := hv
          cases heq
      | some found =>
          obtain ⟨session, user⟩ := found
          rw [husable] at h
          cases h
          exact steps_touch hunique husable
  | setActiveOrg sessionId userId orgId =>
      rw [step, setActiveOrg] at h
      split at h
      · cases h
        exact steps_quiet rfl rfl
      · cases h
        refine Steps.updateMany ?_ rfl (fun _ _ _ => .quiet rfl rfl id) fun _ _ _ => .quiet rfl rfl id
        exact fun _ => rfl
  | revokeSessionByToken token now =>
      cases h
      refine Steps.updateMany ?_ rfl (fun _ _ _ => .quiet rfl rfl fun _ => rfl) fun _ _ _ => .quiet rfl rfl id
      exact fun _ => rfl
  | revokeAllSessions userId exceptSessionId now =>
      cases h
      refine Steps.updateMany ?_ rfl (fun _ _ _ => .quiet rfl rfl fun _ => rfl) fun _ _ _ => .quiet rfl rfl id
      exact fun _ => rfl
  | addMember | removeMember | disableUser | enableUser =>
      cases h
      exact steps_quiet rfl rfl

/-! ## What the log says of a row -/

variable (hashToken) in
structure Tracked (h : Log) (r : Session) : Prop where
  absolute : r.absoluteExpiresAt = r.createdAt + sessionAbsoluteSeconds * 1000
  idle : r.expiresAt = min (r.lastUsedAt + sessionIdleSeconds * 1000) r.absoluteExpiresAt
  /-- The last use on record is one, -/
  used : ∃ entry ∈ h, Uses hashToken r.tokenHash r.lastUsedAt entry
  /-- and none came more than 5 minutes after it. -/
  uses : ∀ entry ∈ h, ∀ now, Uses hashToken r.tokenHash now entry →
    now ≤ r.lastUsedAt + sessionRefreshIntervalSeconds * 1000
  created : ∀ entry ∈ h, ∀ userId now id, Creates hashToken r.tokenHash userId now id entry →
    r.createdAt = now ∧ r.userId = userId ∧ r.id = id

variable (hashToken) in
structure Inv (h : Log) (s : Store) : Prop where
  unique : Unique s
  known : ∀ entry ∈ h, ∀ tokenHash now, Uses hashToken tokenHash now entry → ∃ r ∈ s.sessions, r.tokenHash = tokenHash
  tracked : ∀ r ∈ s.sessions, Tracked hashToken h r

theorem creates_outcome {tokenHash : String} {userId id : Nat} {now : Int} {op : Op} {outcome : Outcome}
    (h : Creates hashToken tokenHash userId now id (op, outcome)) :
    op.now = some now ∧ op.validates = false ∧ ∃ expiresAt activeOrgId, outcome = .created id expiresAt activeOrgId := by
  obtain ⟨token, expiresAt, activeOrgId, heq, -⟩ := h
  cases heq
  exact ⟨rfl, rfl, expiresAt, activeOrgId, rfl⟩

theorem uses_now {tokenHash : String} {now : Int} {op : Op} {outcome : Outcome}
    (h : Uses hashToken tokenHash now (op, outcome)) : op.now = some now := by
  rcases h with ⟨userId, id, h⟩ | ⟨token, context, h, -⟩
  · exact (creates_outcome h).1
  · cases h
    rfl

/-- A call that opens a session finds none with that hash, and leaves one. -/
theorem creates_step {tokenHash : String} {userId id : Nat} {now : Int} {op : Op} {outcome : Outcome} {s s' : Store}
    (hc : Creates hashToken tokenHash userId now id (op, outcome)) (h : step hashToken op s = (s', outcome)) :
    (∀ r ∈ s.sessions, r.tokenHash ≠ tokenHash) ∧ ∃ r ∈ s'.sessions, r.tokenHash = tokenHash := by
  obtain ⟨token, expiresAt, activeOrgId, heq, hhash⟩ := hc
  cases heq
  rw [step, createSession] at h
  split at h
  · rename_i hcreate
    split at hcreate
    · cases hcreate
    · rename_i hfree
      rw [Bool.or_eq_true, not_or, Option.not_isSome_iff_eq_none] at hfree
      cases hcreate
      cases h
      rw [← hhash]
      exact ⟨findSession_none hfree.2, _, Table.mem_insert.mpr (.inr rfl), rfl⟩
  · cases h

theorem validates_step {tokenHash : String} {now : Int} {op : Op} {outcome : Outcome} {s s' : Store}
    (hv : Validates hashToken tokenHash now (op, outcome)) (h : step hashToken op s = (s', outcome)) :
    ∃ r ∈ s.sessions, r.tokenHash = tokenHash := by
  obtain ⟨token, context, heq, rfl⟩ := hv
  cases heq
  rw [step, validateSession] at h
  cases husable : usable hashToken token now s with
  | none =>
      rw [husable] at h
      cases h
  | some found =>
      obtain ⟨session, user⟩ := found
      exact ⟨session, findSession_some (usable_some husable).2.1⟩

/-- A row that the call moved. -/
theorem Tracked.moved {h : Log} {op : Op} {outcome : Outcome} {r r' : Session} (hr : Tracked hashToken h r)
    (horder : InOrder h op) (hid : r'.id = r.id) (hmoved : Moved hashToken (op, outcome) r r')
    (hnot : ∀ userId now id, ¬ Creates hashToken r'.tokenHash userId now id (op, outcome)) :
    Tracked hashToken ((op, outcome) :: h) r' := by
  refine ⟨?_, ?_, ?_, ?_, ?_⟩
  · rw [hmoved.absoluteExpiresAt, hmoved.createdAt]
    exact hr.absolute
  · rcases hmoved.idle with ⟨hused, hexpires⟩ | ⟨-, hexpires⟩
    · rw [hused, hexpires, hmoved.absoluteExpiresAt]
      exact hr.idle
    · rw [hexpires, hmoved.absoluteExpiresAt]
  · rw [hmoved.tokenHash]
    rcases hmoved.idle with ⟨hused, -⟩ | ⟨hv, -⟩
    · rw [hused]
      obtain ⟨entry, hentry, huses⟩ := hr.used
      exact ⟨entry, List.mem_cons_of_mem _ hentry, huses⟩
    · exact ⟨_, List.mem_cons_self .., .inr hv⟩
  · intro entry hentry now huses
    rcases List.mem_cons.mp hentry with rfl | hentry
    · rcases huses with ⟨userId, id, hc⟩ | hv
      · exact absurd hc (hnot userId now id)
      · exact hmoved.used now (hmoved.tokenHash ▸ hv)
    · have hold := hr.uses entry hentry now (hmoved.tokenHash ▸ huses)
      rcases hmoved.idle with ⟨hused, -⟩ | ⟨hv, -⟩
      · rw [hused]
        exact hold
      · -- the validation that moved it came after all the uses so far
        have hle := horder _ (uses_now (.inr hv)) entry hentry now (uses_now huses)
        exact hle.trans (Int.le_add_of_nonneg_right (by decide))
  · intro entry hentry userId now id hc
    rcases List.mem_cons.mp hentry with rfl | hentry
    · exact absurd hc (hnot userId now id)
    · rw [hmoved.createdAt, hmoved.userId, hid]
      exact hr.created entry hentry userId now id (hmoved.tokenHash ▸ hc)

/-- A row that the call opened, under a hash that the log did not know. -/
theorem Opened.tracked {h : Log} {op : Op} {outcome : Outcome} {s : Store} {r : Session}
    (hr : Opened hashToken (op, outcome) s r) (hnone : ∀ entry ∈ h, ∀ now, ¬ Uses hashToken r.tokenHash now entry) :
    Tracked hashToken ((op, outcome) :: h) r := by
  refine ⟨hr.absoluteExpiresAt, hr.expiresAt, ?_, ?_, ?_⟩
  · rw [hr.lastUsedAt]
    exact ⟨_, List.mem_cons_self .., .inl ⟨_, _, hr.creates⟩⟩
  · intro entry hentry now huses
    rcases List.mem_cons.mp hentry with rfl | hentry
    · have heq : now = r.createdAt := Option.some.inj ((uses_now huses).symm.trans (creates_outcome hr.creates).1)
      rw [heq, hr.lastUsedAt]
      exact Int.le_add_of_nonneg_right (by decide)
    · exact absurd huses (hnone entry hentry now)
  · intro entry hentry userId now id hc
    rcases List.mem_cons.mp hentry with rfl | hentry
    · obtain ⟨token, _, _, heq, -⟩ := hr.creates
      obtain ⟨token', _, _, heq', -⟩ := hc
      rw [heq] at heq'
      cases heq'
      exact ⟨rfl, rfl, rfl⟩
    · exact absurd (.inl ⟨userId, id, hc⟩) (hnone entry hentry now)

theorem Steps.unique {entry : Op × Outcome} {s s' : Store} (h : Steps hashToken entry s s') (hs : Unique s) : Unique s' := by
  intro r₁ hr₁ r₂ hr₂ heq
  rcases h.old r₁ hr₁ with ⟨r₁', hr₁', hid₁, hm₁⟩ | ho₁ <;> rcases h.old r₂ hr₂ with ⟨r₂', hr₂', hid₂, hm₂⟩ | ho₂
  · have hrows := hs r₁' hr₁' r₂' hr₂' (hm₁.tokenHash.symm.trans (heq.trans hm₂.tokenHash))
    exact Table.eq_of_key hr₁ hr₂ (hid₁.trans ((congrArg (fun r : Session => r.id) hrows).trans hid₂.symm))
  · exact absurd (hm₁.tokenHash.symm.trans heq) (ho₂.unique r₁' hr₁')
  · exact absurd (hm₂.tokenHash.symm.trans heq.symm) (ho₁.unique r₂' hr₂')
  · -- one call opens one session
    obtain ⟨-, -, _, _, hout₁⟩ := creates_outcome ho₁.creates
    obtain ⟨-, -, _, _, hout₂⟩ := creates_outcome ho₂.creates
    exact Table.eq_of_key hr₁ hr₂ (Outcome.created.inj (hout₁.symm.trans hout₂)).1

/-- **A call** keeps what the log says of every row. -/
theorem inv_step {h : Log} {op : Op} {s s' : Store} {outcome : Outcome} (hs : Inv hashToken h s) (horder : InOrder h op)
    (hstep : step hashToken op s = (s', outcome)) : Inv hashToken ((op, outcome) :: h) s' := by
  have hsteps := steps_step hs.unique hstep
  have hkept : ∀ tokenHash, (∃ r ∈ s.sessions, r.tokenHash = tokenHash) → ∃ r ∈ s'.sessions, r.tokenHash = tokenHash := by
    rintro _ ⟨r, hr, rfl⟩
    obtain ⟨r', hr', -, hmoved⟩ := hsteps.kept r hr
    exact ⟨r', hr', hmoved.tokenHash⟩
  refine ⟨hsteps.unique hs.unique, fun entry hentry tokenHash now huses => ?_, fun r' hr' => ?_⟩
  · rcases List.mem_cons.mp hentry with rfl | hentry
    · rcases huses with ⟨userId, id, hc⟩ | hv
      · exact (creates_step hc hstep).2
      · exact hkept tokenHash (validates_step hv hstep)
    · exact hkept tokenHash (hs.known entry hentry tokenHash now huses)
  · rcases hsteps.old r' hr' with ⟨r, hr, hid, hmoved⟩ | hopened
    · refine (hs.tracked r hr).moved horder hid hmoved fun userId now id hc => ?_
      exact (creates_step hc hstep).1 r hr hmoved.tokenHash.symm
    · refine hopened.tracked fun entry hentry now huses => ?_
      obtain ⟨r, hr, heq⟩ := hs.known entry hentry _ now huses
      exact hopened.unique r hr heq

/-! ## Runs -/

variable (hashToken) in
/-- The calls one after another, with their values. -/
abbrev Run (s : Store) (h : Log) (s' : Store) : Prop :=
  History (fun op s => some (step hashToken op s)) (fun h op _ => InOrder h op) s h s'

theorem Run.inv {s s' : Store} {h : Log} (hempty : s.sessions = .empty) (hr : Run hashToken s h s') :
    Inv hashToken h s' := by
  induction hr with
  | start =>
      have hnone : ∀ r, r ∉ s.sessions := by
        rw [hempty]
        exact Table.not_mem_empty
      exact ⟨fun r hr => absurd hr (hnone r), fun _ h => absurd h List.not_mem_nil, fun r hr => absurd hr (hnone r)⟩
  | call _ horder hstep ih => exact inv_step ih horder (Option.some.inj hstep)

/-- A session that is revoked stays so. -/
theorem revoked_kept {ok : Log → Op → Store → Prop} {s s' : Store} {h : Log} (hs : Unique s)
    (hr : History (fun op s => some (step hashToken op s)) ok s h s') {r : Session} (hmem : r ∈ s.sessions)
    (hrevoked : r.revokedAt.isSome = true) :
    Unique s' ∧ ∃ r' ∈ s'.sessions, r'.tokenHash = r.tokenHash ∧ r'.revokedAt.isSome = true := by
  induction hr with
  | start => exact ⟨hs, r, hmem, rfl, hrevoked⟩
  | call _ _ hstep ih =>
      obtain ⟨hunique, r₁, hr₁, hhash, hrevoked₁⟩ := ih
      have hsteps := steps_step hunique (Option.some.inj hstep)
      obtain ⟨r₂, hr₂, -, hmoved⟩ := hsteps.kept r₁ hr₁
      exact ⟨hsteps.unique hunique, r₂, hr₂, hmoved.tokenHash.trans hhash, hmoved.revokedAt hrevoked₁⟩

/-- A call that revokes a session finds its row and writes it. -/
theorem revokes_step {op : Op} {outcome : Outcome} {s s' : Store} {r : Session} (hr : r ∈ s.sessions)
    (hrevokes : Revokes hashToken r.tokenHash r.userId r.id op) (h : step hashToken op s = (s', outcome)) :
    ∃ r' ∈ s'.sessions, r'.tokenHash = r.tokenHash ∧ r'.revokedAt.isSome = true := by
  have hrow : ∀ (p : Session → Bool) (now : Int) (hf : ∀ r : Session, key { r with revokedAt := some now } = key r),
      (p r = false → r.revokedAt.isSome = true) →
      ∃ r' ∈ s.sessions.updateMany p (fun r => { r with revokedAt := some now }) hf,
        r'.tokenHash = r.tokenHash ∧ r'.revokedAt.isSome = true := by
    intro p now hf hp
    refine ⟨_, Table.mem_updateMany.mpr ⟨r, hr, rfl⟩, ?_⟩
    split
    · exact ⟨rfl, rfl⟩
    · rename_i hnot
      exact ⟨rfl, hp (Bool.eq_false_iff.mpr hnot)⟩
  cases op with
  | revokeSessionByToken token now =>
      cases h
      refine hrow _ now (fun _ => rfl) fun hnot => ?_
      have heq : r.tokenHash = hashToken token := hrevokes.symm
      rw [heq, beq_self_eq_true, Bool.true_and, Option.isNone_eq_false_iff] at hnot
      exact hnot
  | revokeAllSessions userId exceptSessionId now =>
      cases h
      refine hrow _ now (fun _ => rfl) fun hnot => ?_
      obtain ⟨huser, hexcept⟩ := hrevokes
      rw [huser, beq_self_eq_true, Bool.true_and, Bool.and_eq_false_iff] at hnot
      rcases hnot with hnot | hnot
      · rwa [Option.isNone_eq_false_iff] at hnot
      · exact absurd hnot (by rw [bne_iff_ne.mpr hexcept]; exact Bool.noConfusion)
  | _ => exact hrevokes.elim

theorem valid_iff {token : String} {now : Int} {s : Store} :
    Valid hashToken token now s ↔ ∃ session user, usable hashToken token now s = some (session, user) := by
  unfold Valid validateSession
  cases usable hashToken token now s with
  | none =>
      constructor
      · intro h
        cases h
      · rintro ⟨session, user, h⟩
        cases h
  | some found => exact ⟨fun _ => ⟨found.1, found.2, rfl⟩, fun _ => rfl⟩

/-- A validation in the log was of a token that is neither empty nor too long. -/
theorem Run.shaped {s s' : Store} {h : Log} (hr : Run hashToken s h s') {token : String} {now : Int}
    {context : SessionContext} (hmem : (Op.validateSession token now, Outcome.validated (some context)) ∈ h) :
    ¬ (token = "" ∨ 256 < Text.utf16Length token) := by
  induction hr with
  | start => exact absurd hmem List.not_mem_nil
  | @call h s₁ s₂ op outcome _ _ hstep ih =>
      rcases List.mem_cons.mp hmem with heq | hmem
      · cases heq
        rw [step, validateSession] at hstep
        cases husable : usable hashToken token now s₁ with
        | none =>
            rw [husable] at hstep
            cases hstep
        | some found => exact (usable_some husable).1
      · exact ih hmem

/-- The active organization is one of the memberships, each of which is a row of the user's. -/
theorem active_mem {s : Store} {session : Session} {user : User} {now : Int} {org : SessionMembership}
    (h : (touch session user now s).2.activeOrg = some org) :
    ∃ m ∈ s.memberships, m.userId = (touch session user now s).2.user.id ∧ m.orgId = org.orgId := by
  have hboth : (touch session user now s).2.activeOrg = activeMembership (s.sessionMemberships user.id) session.activeOrgId ∧
      (touch session user now s).2.user.id = user.id := by
    unfold touch
    dsimp only
    split <;> exact ⟨rfl, rfl⟩
  rw [hboth.1, activeMembership] at h
  rw [hboth.2]
  have hmem : org ∈ s.sessionMemberships user.id := by
    cases hfind : (s.sessionMemberships user.id).find? fun m => session.activeOrgId == some m.orgId with
    | some m =>
        rw [hfind] at h
        cases h
        exact List.mem_of_find?_eq_some hfind
    | none =>
        rw [hfind] at h
        exact List.mem_of_mem_head? h
  obtain ⟨m, hm, horg⟩ := List.mem_filterMap.mp hmem
  obtain ⟨o, ho, rfl⟩ := Option.map_eq_some_iff.mp horg
  have hrow := List.mem_filter.mp ((List.mem_insertionSort _).mp hm)
  exact ⟨m, hrow.1, beq_iff_eq.mp hrow.2, (Table.get?_eq_some.mp ho).2.symm⟩

/-- The session of a token that is accepted. -/
theorem Valid.found {token : String} {now : Int} {s : Store} (h : Valid hashToken token now s) :
    ∃ session ∈ s.sessions, ∃ user, session.tokenHash = hashToken token ∧
      usable hashToken token now s = some (session, user) := by
  obtain ⟨session, user, husable⟩ := valid_iff.mp h
  obtain ⟨hmem, hhash⟩ := findSession_some (usable_some husable).2.1
  exact ⟨session, hmem, user, hhash, husable⟩

theorem Inv.young {h : Log} {s : Store} (hs : Inv hashToken h s) {token : String} {now : Int}
    (hvalid : Valid hashToken token now s) {entry : Op × Outcome} (hentry : entry ∈ h) {userId id : Nat} {created : Int}
    (hc : Creates hashToken (hashToken token) userId created id entry) :
    now < created + sessionAbsoluteSeconds * 1000 := by
  obtain ⟨session, hmem, user, hhash, husable⟩ := hvalid.found
  obtain ⟨-, -, -, -, -, habsolute, -⟩ := usable_some husable
  have htracked := hs.tracked session hmem
  rw [htracked.absolute, (htracked.created entry hentry userId created id (hhash ▸ hc)).1] at habsolute
  exact habsolute

theorem Inv.recent {h : Log} {s : Store} (hs : Inv hashToken h s) {token : String} {now : Int}
    (hvalid : Valid hashToken token now s) : ∃ entry ∈ h, ∃ used, Uses hashToken (hashToken token) used entry ∧
      now < used + sessionIdleSeconds * 1000 := by
  obtain ⟨session, hmem, user, hhash, husable⟩ := hvalid.found
  obtain ⟨-, -, -, -, hidle, -, -⟩ := usable_some husable
  have htracked := hs.tracked session hmem
  obtain ⟨entry, hentry, huses⟩ := htracked.used
  rw [htracked.idle] at hidle
  exact ⟨entry, hentry, session.lastUsedAt, hhash ▸ huses, lt_of_lt_of_le hidle (min_le_left _ _)⟩

theorem Unique.enabled {s : Store} (hs : Unique s) {token : String} {now : Int} (hvalid : Valid hashToken token now s)
    {r : Session} (hr : r ∈ s.sessions) (hhash : r.tokenHash = hashToken token) {u : User} (hu : u ∈ s.users)
    (hid : u.id = r.userId) : u.disabledAt = none := by
  obtain ⟨session, hmem, user, hhash', husable⟩ := hvalid.found
  obtain ⟨-, -, huser, -, -, -, hdisabled⟩ := usable_some husable
  obtain ⟨huser, huserId⟩ := Table.get?_eq_some.mp huser
  have heq : r = session := hs r hr session hmem (hhash.trans hhash'.symm)
  have hsame : u = user :=
    Table.eq_of_key hu huser (hid.trans ((congrArg (fun r : Session => r.userId) heq).trans huserId.symm))
  rw [hsame]
  exact hdisabled

/-- What was revoked after its creation is not accepted any more. -/
theorem Run.unrevoked {s s' : Store} {newer older : Log} {op : Op} {outcome : Outcome} (hempty : s.sessions = .empty)
    (hr : Run hashToken s (newer ++ (op, outcome) :: older) s') {token : String} {now : Int}
    (hvalid : Valid hashToken token now s') {entry : Op × Outcome} (hentry : entry ∈ older) {userId id : Nat} {created : Int}
    (hc : Creates hashToken (hashToken token) userId created id entry) :
    ¬ Revokes hashToken (hashToken token) userId id op := by
  intro hrevokes
  obtain ⟨session, hmem, user, hhash, husable⟩ := hvalid.found
  obtain ⟨mid, hold, hnew⟩ := hr.split
  cases hold with
  | @call _ s₁ _ _ _ hold horder hstep =>
      -- the row was there when the revocation ran, which wrote it
      have hinv₁ := Run.inv hempty hold
      obtain ⟨r, hr₁, hhash₁⟩ := hinv₁.known entry hentry _ created (.inl ⟨userId, id, hc⟩)
      obtain ⟨-, huser, hid⟩ := (hinv₁.tracked r hr₁).created entry hentry userId created id (hhash₁ ▸ hc)
      obtain ⟨r₂, hr₂, hhash₂, hrevoked₂⟩ :=
        revokes_step hr₁ (by rw [hhash₁, huser, hid]; exact hrevokes) (Option.some.inj hstep)
      have hinv₂ := inv_step hinv₁ horder (Option.some.inj hstep)
      obtain ⟨hunique, r₃, hr₃, hhash₃, hrevoked₃⟩ := revoked_kept hinv₂.unique hnew hr₂ hrevoked₂
      have heq : r₃ = session := hunique r₃ hr₃ session hmem (hhash₃.trans (hhash₂.trans (hhash₁.trans hhash.symm)))
      rw [heq, (usable_some husable).2.2.2.1] at hrevoked₃
      cases hrevoked₃

/-- What was validated is accepted for another 12 hours, less the 5 minutes in which a use is not written. -/
theorem Run.lasting {s s' : Store} {h : Log} (hr : Run hashToken s h s') (hs : Inv hashToken h s') {token : String}
    {now used : Int} {context : SessionContext}
    (hentry : (Op.validateSession token used, Outcome.validated (some context)) ∈ h) {r : Session} (hmem : r ∈ s'.sessions)
    (hhash : r.tokenHash = hashToken token) (hrevoked : r.revokedAt = none)
    (huser : ∃ u ∈ s'.users, u.id = r.userId ∧ u.disabledAt = none)
    (hnow : now < min (used + sessionIdleSeconds * 1000 - sessionRefreshIntervalSeconds * 1000) r.absoluteExpiresAt) :
    Valid hashToken token now s' := by
  obtain ⟨u, hu, hid, hdisabled⟩ := huser
  obtain ⟨hidle, habsolute⟩ := lt_min_iff.mp hnow
  have htracked := hs.tracked r hmem
  have hused := htracked.uses _ hentry used (.inr ⟨token, context, rfl, hhash.symm⟩)
  have hsession : s'.findSession (hashToken token) = some r := by
    cases hfind : s'.findSession (hashToken token) with
    | none => exact absurd hhash (findSession_none hfind r hmem)
    | some r' =>
        obtain ⟨hmem', hhash'⟩ := findSession_some hfind
        rw [hs.unique r' hmem' r hmem (hhash'.trans hhash.symm)]
  refine valid_iff.mpr ⟨r, u, usable_of (hr.shaped hentry) hsession (Table.get?_eq_some.mpr ⟨hu, hid⟩) hrevoked ?_ habsolute
    hdisabled⟩
  rw [htracked.idle]
  exact lt_min (by omega) habsolute

/-- In every run from a store without sessions, the sessions live as long as they should. -/
theorem session_lifetime (hashToken : String → String) (s : Store) (hempty : s.sessions = .empty) {h : Log} {s' : Store}
    (hr : Run hashToken s h s') : Lifetime hashToken h s' := by
  have hinv := hr.inv hempty
  refine ⟨fun r hmem => ?_, fun token now hvalid entry hentry userId created id hc => hinv.young hvalid hentry hc, ?_,
    fun token now hvalid r hmem hhash u hu hid => hinv.unique.enabled hvalid hmem hhash hu hid,
    fun token now hvalid => hinv.recent hvalid,
    fun token now used context hentry r hmem hhash hrevoked huser hnow =>
      hr.lasting hinv hentry hmem hhash hrevoked huser hnow, ?_⟩
  · rw [(hinv.tracked r hmem).idle]
    exact min_le_right _ _
  · rintro token now hvalid newer older op outcome rfl entry hentry userId created id hc
    exact hr.unrevoked hempty hvalid hentry hc
  · intro token now context org hvalid hactive
    unfold validateSession at hvalid
    cases husable : usable hashToken token now s' with
    | none =>
        rw [husable] at hvalid
        cases hvalid
    | some found =>
        rw [husable] at hvalid
        cases hvalid
        exact active_mem hactive

end Runs

/-! ## A session that is used -/

def oneUser : Store where
  users := Table.empty.insert (fun id => ⟨id, "me@example.org", none, .en, "UTC", none, none⟩) fun _ => rfl
  organizations := Table.empty.insert (fun id => ⟨id, "Org", "org"⟩) fun _ => rfl
  memberships := Table.empty.insert (fun id => ⟨id, 0, 0, .viewer, 0⟩) fun _ => rfl
  sessions := .empty

def inOrder (h : Log) (op : Op) (_ : Store) : Bool :=
  h.all fun entry =>
    match op.now, entry.1.now with
    | some now, some now' => decide (now' ≤ now)
    | _, _ => true

theorem inOrder_of {h : Log} {op : Op} {s : Store} (hp : inOrder h op s = true) : InOrder h op := by
  intro now hnow entry hentry now' hnow'
  have := List.all_eq_true.mp hp entry hentry
  rw [hnow, hnow'] at this
  exact of_decide_eq_true this

/-- Used after 11 hours, the session is accepted after 22. -/
theorem session_lifetime_refreshed : ∃ h s', Run id oneUser h s' ∧ Valid id "token" (22 * 3600000) s' ∧ Lifetime id h s' := by
  have hrun : (runAll (fun op s => some (step id op s)) inOrder
      [.createSession 0 "token" 0, .validateSession "token" (11 * 3600000)] [] oneUser).any (fun r =>
      (validateSession id "token" (22 * 3600000) r.2).2.isSome) = true := by decide +kernel
  obtain ⟨⟨h, s'⟩, hrun, hvalid⟩ := (Option.any_eq_true _ _).mp hrun
  have hrun : Run id oneUser h s' := History.of_runAll (fun h op s hp => inOrder_of hp) .start hrun
  exact ⟨h, s', hrun, hvalid, session_lifetime id oneUser rfl hrun⟩

end IkelyaneMonitor.Auth.Sessions
