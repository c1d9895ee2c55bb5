import IkelyaneMonitor.Interleave.RelyGuarantee
import IkelyaneMonitor.Auth.LoginThrottle

/-!
# What a change of password cuts off

The verification of a password and the session it opens are apart: statements of `signIn` lie between them, or a challenge
that waits for its second factor.

* `Store.Open`, `Store.Pending` : the unrevoked sessions and the challenges of a user, with the password each goes back to;
  `CutOff` : of those that go back to a password before a change, only the kept session is unrevoked;
* `Uninterrupted` : while a change goes through the sessions and commits, no sign-in of the user is on its way and none of
  their challenges will be redeemed;
* `cutting` : what a call promises; `sem_opened`, `sem_pending` : what a statement adds, `step_ordinary` : so most statements
  keep the promise; `call_goes` : every call does;
* `change_cuts_off` : in the runs of `Uninterrupted` every change cuts off what came before it, which the code does not see
  to (`sign_in_survives_change`).
-/

namespace IkelyaneMonitor.Auth.Login
open Interleave

variable {ι : Type}

namespace Store

/-- The user has an unrevoked session `id` that was opened with their password number `v`. -/
def Open (s : Store ι) (u v id : Nat) : Prop :=
  (∃ r ∈ s.sessions, r.id = id ∧ r.userId = u) ∧ s.revokedAt id = none ∧ s.sessionPassword id = some v

/-- The user has a challenge with this hash and end, opened with their password number `v`. -/
def Pending (s : Store ι) (u v : Nat) (tokenHash : String) (expiresAt : Int) : Prop :=
  ∃ c ∈ s.challenges, c.userId = u ∧ c.tokenHash = tokenHash ∧ c.expiresAt = expiresAt ∧ s.challengePassword c.id = v

/-- An open change of the user's password has gone through their sessions. -/
def Closing (s : Store ι) (u : Nat) : Prop := ∃ j, s.changing u = some (j, true)

end Store

/-- Of the sessions opened with a password before a change, only the kept one is unrevoked, and none was opened after it. -/
def CutOff (s : Store ι) : Prop :=
  ∀ change ∈ s.changes, ∀ v id, s.Open change.userId v id → v < change.password →
    id = change.keepSessionId ∧ id < change.nextSessionId

/-! ## What a statement adds -/

/-- The user a statement opens a session for. -/
def Stmt.sessionFor (w : Stmt) : Option Nat :=
  match w.action with
  | .createSession session | .twoFactor (.txCommit _ _ _ session) => some session.userId
  | _ => none

/-- The user a statement opens a challenge for. -/
def Stmt.challengeFor (w : Stmt) : Option Nat :=
  match w.action with
  | .twoFactor (.createChallenge userId _ _ _) => some userId
  | _ => none

/-- The challenge stays the one it was. -/
def SameChallenge (c c' : TotpChallenge) : Prop :=
  c'.userId = c.userId ∧ c'.tokenHash = c.tokenHash ∧ c'.expiresAt = c.expiresAt

section Statements
variable [DecidableEq ι] {i : ι}

theorem SameChallenge.refl (c : TotpChallenge) : SameChallenge c c := ⟨rfl, rfl, rfl⟩

theorem twoFactor_sessions (verified : Option Verified) {w : Auth.Stmt} {s t : Auth.Store ι} (h : Auth.sem i w s = some t) :
    Table.Evolves Eq (fun r => Stmt.sessionFor ⟨verified, .twoFactor w⟩ = some r.userId) s.sessions t.sessions := by
  cases w with
  | txCommit challengeId codeId now session =>
      simp only [Auth.sem] at h
      split at h
      · cases h
        exact .refl (fun _ => rfl) _ _
      · cases h
        exact .insert (fun _ => rfl) _ (fun _ => rfl) (by rfl)
  | _ =>
      have heq : t.sessions = s.sessions := by
        simp only [Auth.sem] at h
        first
          | (cases h <;> rfl)
          | (split at h <;> first | (cases h <;> rfl) | (split at h <;> cases h <;> rfl))
      rw [heq]
      exact .refl (fun _ => rfl) _ _

theorem twoFactor_challenges (verified : Option Verified) {w : Auth.Stmt} {s t : Auth.Store ι}
    (h : Auth.sem i w s = some t) :
    Table.Evolves SameChallenge (fun c => Stmt.challengeFor ⟨verified, .twoFactor w⟩ = some c.userId) s.challenges
      t.challenges := by
  cases w with
  | createChallenge userId tokenHash nextPath now =>
      simp only [Auth.sem] at h
      split at h
      · cases h
        have hrow : Table.Evolves SameChallenge (fun c => c.userId = userId) s.challenges (s.challenges.insert (fun id =>
            ⟨id, userId, tokenHash, nextPath, 0, now + totpChallengeTtlSeconds * 1000, now⟩) fun _ => rfl) :=
          .insert SameChallenge.refl _ (fun _ => rfl) rfl
        exact hrow.mono (fun _ _ h => h) fun c hc => congrArg some hc.symm
      · cases h
        exact .refl SameChallenge.refl _ _
  | disable userId =>
      simp only [Auth.sem] at h
      split at h
      · cases h
      · cases h
        exact .deleteMany SameChallenge.refl _ _
  | deleteChallenge id =>
      simp only [Auth.sem] at h
      split at h
      · cases h
      · cases h
        exact .deleteMany SameChallenge.refl _ _
  | setFailedAttempts id attempts =>
      simp only [Auth.sem] at h
      split at h
      · cases h
      · cases h
        refine .updateMany SameChallenge.refl _ ?_ fun c _ _ => ?_
        · exact fun _ => rfl
        · exact ⟨rfl, rfl, rfl⟩
  | txCommit challengeId codeId now session =>
      simp only [Auth.sem] at h
      split at h
      · cases h
        exact .refl SameChallenge.refl _ _
      · cases h
        exact .deleteMany SameChallenge.refl _ _
  | _ =>
      have heq : t.challenges = s.challenges := by
        simp only [Auth.sem] at h
        first
          | (cases h; rfl)
          | (split at h <;> first | cases h | (split at h <;> cases h <;> rfl))
      rw [heq]
      exact .refl SameChallenge.refl _ _

theorem fill_old {β : Type} {old new id : Nat} {v : β} {f : Nat → β} (h : id < old) : fill old new v f id = f id := by
  unfold fill
  rw [if_neg (by omega)]

theorem fill_new {β : Type} {old new id : Nat} {v : β} {f : Nat → β} (h : old ≤ id) (h' : id < new) :
    fill old new v f id = v := if_pos ⟨h, h'⟩

omit [DecidableEq ι] in
theorem open_write {s : Store ι} {verified : Option Verified} {t : Auth.Store ι} {N : Session → Prop}
    (hsessions : Table.Evolves Eq N s.sessions t.sessions) {u v id : Nat} (h : (s.write verified t).Open u v id) :
    s.Open u v id ∨ ∃ r, N r ∧ r.userId = u ∧ verified.map Verified.password = some v := by
  obtain ⟨⟨r, hr, rfl, hu⟩, hrevoked, hpassword⟩ := h
  by_cases hlt : r.id < s.sessions.next
  · refine .inl ⟨?_, ?_, ?_⟩
    · obtain ⟨r₀, hr₀, -, rfl⟩ := hsessions.old r hr hlt
      exact ⟨r₀, hr₀, rfl, hu⟩
    · exact (fill_old hlt).symm.trans hrevoked
    · exact (fill_old hlt).symm.trans hpassword
  · have hge := Nat.not_lt.mp hlt
    exact .inr ⟨r, hsessions.new r hr hge, hu, (fill_new hge (t.sessions.lt_next r hr)).symm.trans hpassword⟩

omit [DecidableEq ι] in
theorem pending_write {s : Store ι} {verified : Option Verified} {t : Auth.Store ι} {N : TotpChallenge → Prop}
    (hchallenges : Table.Evolves SameChallenge N s.challenges t.challenges) {u v : Nat} {tokenHash : String}
    {expiresAt : Int} (h : (s.write verified t).Pending u v tokenHash expiresAt) :
    s.Pending u v tokenHash expiresAt ∨ ∃ c, N c ∧ c.userId = u ∧ (verified.map Verified.password).getD 0 = v := by
  obtain ⟨c, hc, hu, htoken, hends, hpassword⟩ := h
  by_cases hlt : c.id < s.challenges.next
  · obtain ⟨c₀, hc₀, hid, hsame⟩ := hchallenges.old c hc hlt
    have hid : c₀.id = c.id := hid
    refine .inl ⟨c₀, hc₀, hsame.1.symm.trans hu, hsame.2.1.symm.trans htoken, hsame.2.2.symm.trans hends, ?_⟩
    rw [hid]
    exact (fill_old hlt).symm.trans hpassword
  · have hge := Nat.not_lt.mp hlt
    exact .inr ⟨c, hchallenges.new c hc hge, hu, (fill_new hge (t.challenges.lt_next c hc)).symm.trans hpassword⟩

/-- A session that is open now was open before, or has just been opened by the statement. -/
theorem sem_opened {w : Stmt} {s s' : Store ι} (h : sem i w s = some s') {u v id : Nat} (hopen : s'.Open u v id) :
    s.Open u v id ∨ w.sessionFor = some u ∧ w.verified.map Verified.password = some v := by
  obtain ⟨verified, action⟩ := w
  cases action with
  | twoFactor w =>
      obtain ⟨t, ht, rfl⟩ := Option.map_eq_some_iff.mp h
      refine (open_write (twoFactor_sessions verified ht) hopen).imp_right ?_
      rintro ⟨r, hr, rfl, hv⟩
      exact ⟨hr, hv⟩
  | createSession session =>
      simp only [sem] at h
      split at h
      · cases h
        refine (open_write (N := fun r => r.userId = session.userId) (.insert (fun _ => rfl) _ (fun _ => rfl)
          (by rfl)) hopen).imp_right ?_
        rintro ⟨r, hr, rfl, hv⟩
        exact ⟨congrArg some hr.symm, hv⟩
      · cases h
        exact .inl hopen
  | purgeDeadSessions now =>
      cases h
      obtain ⟨⟨r, hr, hid⟩, hrest⟩ := hopen
      exact .inl ⟨⟨r, (Table.mem_deleteMany.mp hr).1, hid⟩, hrest⟩
  | txCommit userId passwordHash keepSessionId revoked now =>
      cases h
      obtain ⟨hr, hrevoked, hpassword⟩ := hopen
      refine .inl ⟨hr, ?_, hpassword⟩
      simp only at hrevoked
      split at hrevoked
      · cases hrevoked
      · exact hrevoked
  | _ =>
      simp only [sem] at h
      first
        | (cases h <;> exact .inl hopen)
        | (split at h <;> first | cases h | (split at h <;> cases h <;> exact .inl hopen))

/-- A challenge that is there now was there before, or has just been opened by the statement. -/
theorem sem_pending {w : Stmt} {s s' : Store ι} (h : sem i w s = some s') {u v : Nat} {tokenHash : String}
    {expiresAt : Int} (hpending : s'.Pending u v tokenHash expiresAt) :
    s.Pending u v tokenHash expiresAt ∨ w.challengeFor = some u ∧ (w.verified.map Verified.password).getD 0 = v := by
  obtain ⟨verified, action⟩ := w
  cases action with
  | twoFactor w =>
      obtain ⟨t, ht, rfl⟩ := Option.map_eq_some_iff.mp h
      refine (pending_write (twoFactor_challenges verified ht) hpending).imp_right ?_
      rintro ⟨r, hr, rfl, hv⟩
      exact ⟨hr, hv⟩
  | createSession session =>
      simp only [sem] at h
      split at h
      · cases h
        exact (pending_write (N := fun _ => False) (.refl SameChallenge.refl _ _) hpending).imp_right (by
          rintro ⟨c, hc, -⟩
          exact hc.elim)
      · cases h
        exact .inl hpending
  | _ =>
      simp only [sem] at h
      first
        | (cases h <;> exact .inl hpending)
        | (split at h <;> first | cases h | (split at h <;> cases h <;> exact .inl hpending))

/-- The statement is neither part of a change of password nor the write of an upgraded hash. -/
def Stmt.ordinary (w : Stmt) : Bool :=
  match w.action with
  | .updateLogin .. | .txUpdateUser _ | .txRevokeSessions .. | .txCommit .. => false
  | _ => true

/-- Who changes a password, and which one a user has, is left alone by an ordinary statement. -/
theorem sem_ordinary {w : Stmt} {s s' : Store ι} (hw : w.ordinary = true) (h : sem i w s = some s') :
    s'.changing = s.changing ∧ s'.password = s.password ∧ s'.changes = s.changes := by
  obtain ⟨verified, action⟩ := w
  cases action with
  | twoFactor w =>
      obtain ⟨t, ht, rfl⟩ := Option.map_eq_some_iff.mp h
      exact ⟨rfl, rfl, rfl⟩
  | createSession session =>
      simp only [sem] at h
      split at h <;> cases h <;> exact ⟨rfl, rfl, rfl⟩
  | updateLogin | txUpdateUser | txRevokeSessions | txCommit => cases hw
  | _ =>
      cases h
      exact ⟨rfl, rfl, rfl⟩

end Statements

/-! ## Promises -/

/-- The user whose sessions a change of password goes through, or whose new password it commits. -/
def Stmt.cuts (w : Stmt) : Option Nat :=
  match w.action with
  | .txRevokeSessions userId _ | .txCommit userId _ _ _ _ => some userId
  | _ => none

def Stmt.looksUp (w : Stmt) : Bool :=
  match w.action with
  | .twoFactor (.findChallenge _) => true
  | _ => false

def Op.verifies : Op → Option VerifyInput
  | .verifyTotpChallenge input => some input
  | _ => none

/-- The user still has the password the sign-in verified, and is not cut off. -/
def Current (v : Verified) (s : Store ι) : Prop := s.password v.userId = v.password ∧ ¬ s.Closing v.userId

section Promises
variable (platform : Platform) (ops : ι → Op)

/-- A challenge that call `i` brings the token of in time goes back to the password its user has. -/
def Fresh (i : ι) (s : Store ι) : Prop :=
  ∀ input, (ops i).verifies = some input → ∀ u v expiresAt, s.Pending u v (platform.hashToken input.token) expiresAt →
    input.now < expiresAt → Current ⟨u, v⟩ s

structure Rely (i : ι) (w : Option Stmt) (s s' : Store ι) : Prop where
  holds : ∀ u b, s.changing u = some (i, b) → s'.changing u = some (i, b) ∧
    (b = true → ∀ v id, s'.Open u v id → s.Open u v id)
  signing : ∀ v, w.bind Stmt.verified = some v → s'.password v.userId = s.password v.userId ∧
    (s'.Closing v.userId → s.Closing v.userId)
  fresh : w.any Stmt.looksUp = true → Fresh platform ops i s → Fresh platform ops i s'

structure Guarantee (i : ι) (s : Store ι) (w : Stmt) (s' : Store ι) : Prop where
  owner : ∀ u, s'.changing u = s.changing u ∨ s.changing u = none ∨ ∃ b, s.changing u = some (i, b)
  opened : ∀ u v id, s'.Open u v id → s.Open u v id ∨ ¬ s.Closing u
  kept : ∀ u, w.cuts ≠ some u → s'.password u = s.password u ∧ (s'.Closing u → s.Closing u)
  pending : ∀ u v tokenHash expiresAt, s'.Pending u v tokenHash expiresAt →
    s.Pending u v tokenHash expiresAt ∨ Current ⟨u, v⟩ s'

structure Inv (s : Store ι) : Prop where
  cutOff : CutOff s
  /-- The password a change set is the user's, or an earlier one; and changes are numbered. -/
  numbered : ∀ change ∈ s.changes, change.password ≤ s.password change.userId ∧ change.password ≤ s.changes.length

def cutting : Spec ι Stmt (Store ι) Outcome where
  inv := Inv
  rely := Rely platform ops
  guar := fun i s w s' _ => Guarantee i s w s'
  post := fun _ _ _ => True

/-- When a change of password goes through the sessions of its user and when it commits, no sign-in of that user is on its
way, and their challenges will have expired for every call that still brings the token of one. -/
def Uninterrupted (c : Conf ι Stmt (Store ι) Outcome) (i : ι) : Prop :=
  ∀ u, (c.calls i).next?.bind Stmt.cuts = some u →
    (∀ j v, (c.calls j).next?.bind Stmt.verified = some v → v.userId ≠ u) ∧
    ∀ j, (c.calls j).next?.any Stmt.looksUp = true → ∀ input, (ops j).verifies = some input →
      ∀ challenge ∈ c.store.challenges, challenge.userId = u → challenge.tokenHash = platform.hashToken input.token →
        challenge.expiresAt ≤ input.now

variable {platform ops} [DecidableEq ι]

theorem compatible : (cutting platform ops).Compatible sem (Uninterrupted platform ops) := by
  intro c i w k s' _ hok hw _ hguar j hji
  have hcuts : ∀ u, w.cuts = some u → (c.calls i).next?.bind Stmt.cuts = some u := fun u hu => by rw [hw]; exact hu
  refine ⟨fun u b hholds => ?_, fun v hv => ?_, fun hlooks hfresh input hinput u v expiresAt hpending hnow => ?_⟩
  · have hsame : s'.changing u = c.store.changing u := by
      rcases hguar.owner u with h | h | ⟨b', h⟩
      · exact h
      · rw [h] at hholds
        cases hholds
      · rw [h] at hholds
        cases hholds
        exact absurd rfl hji
    refine ⟨hsame.trans hholds, fun hb v id hopen => (hguar.opened u v id hopen).resolve_right fun hclosing => hclosing ?_⟩
    exact ⟨j, hb ▸ hholds⟩
  · exact hguar.kept v.userId fun hu => (hok _ (hcuts _ hu)).1 j v hv rfl
  · rcases hguar.pending u v _ _ hpending with hold | hnew
    · obtain ⟨hpassword, hclosing⟩ := hfresh input hinput u v expiresAt hold hnow
      have hkept := hguar.kept u fun hu => by
        obtain ⟨challenge, hc, huser, htoken, hends, -⟩ := hold
        have := (hok u (hcuts u hu)).2 j hlooks input hinput challenge hc huser htoken
        omega
      exact ⟨hkept.1.trans hpassword, fun h => hclosing (hkept.2 h)⟩
    · exact hnew

end Promises

/-! ## The calls -/

section Calls
variable {platform : Platform} {ops : ι → Op} {i : ι}

theorem stable_current {w : Stmt} {v : Verified} (hw : w.verified = some v) :
    (cutting platform ops).Stable i (some w) (Current v) := by
  intro s s' _ _ hrely hs
  obtain ⟨hpassword, hclosing⟩ := hrely.signing v hw
  exact ⟨hpassword.trans hs.1, fun h => hs.2 (hclosing h)⟩

/-- The user has the password the sign-in verified. -/
def Same (v : Verified) (s : Store ι) : Prop := s.password v.userId = v.password

theorem stable_same {w : Stmt} {v : Verified} (hw : w.verified = some v) :
    (cutting platform ops).Stable i (some w) (Same v) :=
  fun _ _ _ _ hrely hs => (hrely.signing v hw).1.trans hs

theorem stable_fresh {w : Stmt} (hw : w.looksUp = true) :
    (cutting platform ops).Stable i (some w) (Fresh platform ops i) :=
  fun _ _ _ _ hrely hs => hrely.fresh hw hs

/-- The call has written the row of the user. -/
def Written (i : ι) (u : Nat) (s : Store ι) : Prop := s.changing u = some (i, false)

theorem stable_written {w : Option Stmt} (u : Nat) : (cutting platform ops).Stable i w (Written i u) :=
  fun _ _ _ _ hrely hs => (hrely.holds u false hs).1

/-- The call has gone through the sessions of the user: what is open is among `revoked`, or kept. -/
def Revoked (i : ι) (u keep : Nat) (revoked : List Nat) (s : Store ι) : Prop :=
  s.changing u = some (i, true) ∧ ∀ v id, s.Open u v id → id ∈ revoked ∨ id = keep

theorem stable_revoked {w : Option Stmt} (u keep : Nat) (revoked : List Nat) :
    (cutting platform ops).Stable i w (Revoked i u keep revoked) := by
  intro s s' _ _ hrely hs
  obtain ⟨hchanging, hopen⟩ := hrely.holds u true hs.1
  exact ⟨hchanging, fun v id h => hs.2 v id (hopen rfl v id h)⟩

variable [DecidableEq ι]

variable (platform ops i) in
/-- What is left of the call keeps its promises from this store on. -/
def Goes (p : Call ι) (s : Store ι) : Prop :=
  ∃ P, (cutting platform ops).Stable i p.next? P ∧ P s ∧ (cutting platform ops).Sat sem i p P

theorem goes_ret (a : Outcome) (s : Store ι) : Goes platform ops i (.ret a) s :=
  ⟨fun _ => True, Spec.Stable.true i _, trivial, fun _ _ _ => trivial⟩

/-- One statement: what it adds goes back to a password that is current. -/
theorem step_ordinary {w : Stmt} {s s' : Store ι} (hs : Inv s) (hw : w.ordinary = true)
    (hsession : ∀ u p, w.sessionFor = some u → w.verified.map Verified.password = some p → Current ⟨u, p⟩ s)
    (hchallenge : ∀ u, w.challengeFor = some u → Current ⟨u, (w.verified.map Verified.password).getD 0⟩ s)
    (h : sem i w s = some s') : Inv s' ∧ Guarantee i s w s' := by
  obtain ⟨hchanging, hpassword, hchanges⟩ := sem_ordinary hw h
  have hclosing : ∀ u, s'.Closing u ↔ s.Closing u := by
    intro u
    unfold Store.Closing
    rw [hchanging]
  refine ⟨⟨?_, ?_⟩, ?_⟩
  · intro change hc v id hopen hlt
    rw [hchanges] at hc
    rcases sem_opened h hopen with hold | ⟨hu, hp⟩
    · exact hs.cutOff change hc v id hold hlt
    · have hcurrent : s.password change.userId = v := (hsession _ v hu hp).1
      have := (hs.numbered change hc).1
      omega
  · rw [hchanges, hpassword]
    exact hs.numbered
  · refine ⟨fun u => .inl (by rw [hchanging]), fun u v id hopen => ?_, fun u _ => ?_, fun u v tokenHash expiresAt hp => ?_⟩
    · exact (sem_opened h hopen).imp_right fun hnew => (hsession u v hnew.1 hnew.2).2
    · exact ⟨by rw [hpassword], (hclosing u).mp⟩
    · refine (sem_pending h hp).imp_right ?_
      rintro ⟨hu, rfl⟩
      obtain ⟨hsame, hnot⟩ := hchallenge u hu
      exact ⟨by rw [hpassword]; exact hsame, fun hc => hnot ((hclosing u).mp hc)⟩

/-- A statement that verified no password opens nothing that goes back to one. -/
theorem goes_quiet {w : Stmt} {k : Store ι → Call ι} (hw : w.ordinary = true) (hverified : w.verified = none)
    (hchallenge : w.challengeFor = none)
    (hk : ∀ s s', sem i w s = some s' → Goes platform ops i (k s) s') (s : Store ι) : Goes platform ops i (.stmt w k) s := by
  refine ⟨fun _ => True, Spec.Stable.true i _, trivial, fun s s' hs _ hsem => ?_⟩
  obtain ⟨hinv, hguar⟩ := step_ordinary hs hw (fun u p _ hp => by rw [hverified] at hp; cases hp)
    (fun u hu => by rw [hchallenge] at hu; cases hu) hsem
  exact ⟨hinv, hguar, hk s s' hsem⟩

/-- A statement of a sign-in that opens nothing yet. -/
theorem goes_same {w : Stmt} {k : Store ι → Call ι} {v : Verified} (hw : w.ordinary = true) (hverified : w.verified = some v)
    (hsession : w.sessionFor = none) (hchallenge : w.challengeFor = none)
    (hk : ∀ s s', Same v s' → Goes platform ops i (k s) s') {s : Store ι} (hs : Same v s) :
    Goes platform ops i (.stmt w k) s := by
  refine ⟨Same v, stable_same hverified, hs, fun s s' hinv hsame hsem => ?_⟩
  obtain ⟨hinv', hguar⟩ := step_ordinary hinv hw (fun u p hu _ => by rw [hsession] at hu; cases hu)
    (fun u hu => by rw [hchallenge] at hu; cases hu) hsem
  exact ⟨hinv', hguar, hk s s' (by rw [Same, (sem_ordinary hw hsem).2.1]; exact hsame)⟩

/-- A statement of a sign-in that opens a session or a challenge for its own user, if any. -/
theorem goes_current {w : Stmt} {k : Store ι → Call ι} {v : Verified} (hw : w.ordinary = true)
    (hverified : w.verified = some v) (hsession : ∀ u, w.sessionFor = some u → u = v.userId)
    (hchallenge : ∀ u, w.challengeFor = some u → u = v.userId)
    (hk : ∀ s s', Current v s' → Goes platform ops i (k s) s') {s : Store ι} (hs : Current v s) :
    Goes platform ops i (.stmt w k) s := by
  refine ⟨Current v, stable_current hverified, hs, fun s s' hinv hcurrent hsem => ?_⟩
  obtain ⟨hinv', hguar⟩ := step_ordinary hinv hw
    (fun u p hu hp => by
      rw [hverified] at hp
      cases hp
      rw [hsession u hu]
      exact hcurrent)
    (fun u hu => by
      rw [hverified, hchallenge u hu]
      exact hcurrent) hsem
  obtain ⟨hchanging, hpassword, -⟩ := sem_ordinary hw hsem
  refine ⟨hinv', hguar, hk s s' ⟨by rw [hpassword]; exact hcurrent.1, ?_⟩⟩
  unfold Store.Closing
  rw [hchanging]
  exact hcurrent.2

/-- The write of the sign-in waits for a change that is under way, and an upgraded hash is one of the current password. -/
theorem goes_updateLogin {v : Verified} {passwordHash : Option String} {k : Store ι → Call ι}
    (hk : ∀ s s', Current v s' → Goes platform ops i (k s) s') {s : Store ι} (hs : Same v s) :
    Goes platform ops i (.stmt ⟨some v, .updateLogin v.userId passwordHash⟩ k) s := by
  refine ⟨Same v, stable_same rfl, hs, fun s s' hinv hsame hsem => ?_⟩
  simp only [sem] at hsem
  split at hsem
  · cases hsem
  · rename_i hfree
    have hclosing : ¬ s.Closing v.userId := by
      rintro ⟨j, hj⟩
      rw [hj] at hfree
      exact hfree rfl
    cases passwordHash with
    | none =>
        cases hsem
        exact ⟨hinv, ⟨fun _ => .inl rfl, fun _ _ _ h => .inl h, fun _ _ => ⟨rfl, id⟩, fun _ _ _ _ h => .inl h⟩,
          hk s s ⟨hsame, hclosing⟩⟩
    | some passwordHash =>
        cases hsem
        have hpassword : Function.update s.password v.userId v.password = s.password := by
          rw [← hsame, Function.update_eq_self]
        refine ⟨⟨hinv.cutOff, ?_⟩, ⟨fun _ => .inl rfl, fun _ _ _ h => .inl h, fun u _ => ?_, fun _ _ _ _ h => .inl h⟩,
          hk s _ ⟨?_, hclosing⟩⟩
        · intro change hc
          exact ⟨le_of_le_of_eq (hinv.numbered change hc).1 (congrFun hpassword _).symm, (hinv.numbered change hc).2⟩
        · exact ⟨congrFun hpassword u, id⟩
        · exact (congrFun hpassword v.userId).trans hsame

/-- The statement opens nothing but for the user the sign-in is of. -/
def Within (v : Verified) (w : Auth.Stmt) : Prop :=
  ∀ u, Stmt.sessionFor ⟨some v, .twoFactor w⟩ = some u ∨ Stmt.challengeFor ⟨some v, .twoFactor w⟩ = some u → u = v.userId

/-- The call of a component, from where it goes back to a verified password. -/
theorem goes_secondFactor {v : Verified} {p : Auth.Call ι} (hp : p.All (fun _ => True) (Within v) fun _ => True)
    {s : Store ι} (hs : Current v s) :
    Goes platform ops i (secondFactor (some v) p) s := by
  induction p generalizing s with
  | ret a => exact goes_ret _ s
  | stmt w k ih =>
      exact goes_current rfl rfl (fun u hu => hp.1 u (.inl hu)) (fun u hu => hp.1 u (.inr hu))
        (fun s s' hs' => ih s.toStore (hp.2 _ trivial) hs') hs

theorem goes_createSession (v : Verified) (token : String) (now : Int) {k : NewSession → Call ι}
    (hk : ∀ session s, Goes platform ops i (k session) s) {s : Store ι} (hs : Current v s) :
    Goes platform ops i (createSession platform (some v) v.userId token now k) s := by
  refine goes_current rfl rfl (fun u hu => by cases hu) (fun u hu => by cases hu) (fun s₁ s₂ hs₂ => ?_) hs
  refine goes_current rfl rfl (fun u hu => by cases hu; rfl) (fun u hu => by cases hu) (fun s₃ s₄ _ => ?_) hs₂
  split
  · exact hk _ _
  · exact goes_ret _ _

theorem goes_passSignIn (input : SignInInput) (email : String) (user : User) {s : Store ι} (password : Nat)
    (hs : Same ⟨user.id, password⟩ s) :
    Goes platform ops i (passSignIn platform input email user ⟨user.id, password⟩) s := by
  refine goes_same rfl rfl rfl rfl (fun s₁ s₂ hs₂ => ?_) hs
  refine goes_same rfl rfl rfl rfl (fun s₃ s₄ hs₄ => ?_) hs₂
  refine goes_updateLogin (fun s₅ s₆ hs₆ => ?_) hs₄
  split
  · exact goes_ret _ _
  · split
    · refine goes_secondFactor ?_ hs₆
      refine ⟨?_, fun _ _ => ?_⟩
      · rintro u (h | h)
        · cases h
        · exact (Option.some.inj h).symm
      · beta_reduce
        split <;> trivial
    · refine goes_createSession _ _ _ (fun session s => ?_) hs₆
      split
      · exact goes_quiet rfl rfl rfl (fun _ _ _ => goes_quiet rfl rfl rfl (fun _ _ _ => goes_ret _ _) _) _
      · exact goes_ret _ _

theorem goes_checkLoginThrottle {email : String} {ip : Option String} {now : Int} {blocked : Int → Call ι} {k : Call ι}
    (hblocked : ∀ wait s, Goes platform ops i (blocked wait) s) (hk : ∀ s, Goes platform ops i k s) (s : Store ι) :
    Goes platform ops i (checkLoginThrottle email ip now blocked k) s := by
  refine goes_quiet rfl rfl rfl (fun s₁ s₂ _ => goes_quiet rfl rfl rfl (fun s₃ s₄ _ => ?_) _) s
  dsimp only
  split
  · exact hblocked _ _
  · exact hk _

theorem goes_signIn (input : SignInInput) (s : Store ι) : Goes platform ops i (signIn platform input) s := by
  have hfail : ∀ email (s : Store ι), Goes platform ops i (failSignIn input email) s :=
    fun email => goes_quiet rfl rfl rfl fun _ _ _ => goes_ret _ _
  refine goes_checkLoginThrottle (fun _ _ => goes_ret _ _) (fun s => ?_) s
  refine goes_quiet rfl rfl rfl (fun s₁ s₂ hsem => ?_) s
  cases hsem
  cases s₁.findUser (normalizeEmail platform.toLowerCase input.email) with
  | none => exact hfail _ _
  | some user =>
      dsimp only
      split
      · exact hfail _ _
      · exact goes_passSignIn input _ user _ rfl

theorem within_neither {v : Verified} {w : Auth.Stmt} (hsession : Stmt.sessionFor ⟨some v, .twoFactor w⟩ = none)
    (hchallenge : Stmt.challengeFor ⟨some v, .twoFactor w⟩ = none) : Within v w := by
  rintro u (h | h)
  · rw [hsession] at h
    cases h
  · rw [hchallenge] at h
    cases h

omit [DecidableEq ι] in
theorem within_openSession (prim : Primitives) (input : VerifyInput) (challenge : TotpChallenge) (user : User)
    (codeId : Option Nat) (password : Nat) :
    (Auth.openSession prim input challenge user codeId : Auth.Call ι).All (fun _ => True) (Within ⟨user.id, password⟩)
      fun _ => True := by
  refine ⟨within_neither rfl rfl, fun s _ => ⟨?_, fun s' _ => ?_⟩⟩
  · rintro u (h | h)
    · exact (Option.some.inj h).symm
    · cases h
  · dsimp only
    split <;> trivial

omit [DecidableEq ι] in
theorem within_settleChallenge (prim : Primitives) (input : VerifyInput) (challenge : TotpChallenge) (user : User)
    (codeId : Option Nat) (valid : Bool) (password : Nat) :
    (settleChallenge prim input challenge user codeId valid : Auth.Call ι).All (fun _ => True) (Within ⟨user.id, password⟩)
      fun _ => True := by
  refine ⟨within_neither rfl rfl, fun s _ => ?_⟩
  cases valid with
  | true =>
      refine ⟨within_neither rfl rfl, fun s _ => ?_⟩
      dsimp only
      split
      · trivial
      · cases codeId with
        | none => exact within_openSession prim input challenge user none password
        | some codeId =>
            refine ⟨within_neither rfl rfl, fun s _ => ?_⟩
            dsimp only
            split
            · trivial
            · exact within_openSession prim input challenge user (some codeId) password
  | false =>
      dsimp only
      rw [if_neg Bool.false_ne_true]
      split
      · refine ⟨within_neither rfl rfl, fun s _ => ?_⟩
        dsimp only
        split <;> trivial
      · refine ⟨within_neither rfl rfl, fun s _ => ?_⟩
        dsimp only
        split <;> trivial

omit [DecidableEq ι] in
theorem within_compareCode (prim : Primitives) (input : VerifyInput) (challenge : TotpChallenge) (user : User)
    (password : Nat) :
    (compareCode prim input challenge user : Auth.Call ι).All (fun _ => True) (Within ⟨user.id, password⟩)
      fun _ => True := by
  have hsettle := fun codeId valid => within_settleChallenge (ι := ι) prim input challenge user codeId valid password
  unfold compareCode
  dsimp only
  split
  · split
    · exact hsettle _ _
    · split
      · trivial
      · exact hsettle _ _
  · refine ⟨within_neither rfl rfl, fun s _ => ?_⟩
    dsimp only
    split
    · exact hsettle _ _
    · split
      · exact hsettle _ _
      · exact hsettle _ _

theorem goes_verifyTotpChallenge (input : VerifyInput) (hop : (ops i).verifies = some input) {s : Store ι}
    (hs : Fresh platform ops i s) :
    Goes platform ops i (secondFactor none (Auth.verifyTotpChallenge platform.toPrimitives input)) s := by
  unfold Auth.verifyTotpChallenge
  split
  · exact goes_ret _ _
  · refine ⟨Fresh platform ops i, stable_fresh rfl, hs, fun s s' hinv hfresh hsem => ?_⟩
    obtain ⟨hinv', hguar⟩ := step_ordinary hinv rfl (fun u p hu => by cases hu) (fun u hu => by cases hu) hsem
    refine ⟨hinv', hguar, ?_⟩
    rw [sem_query rfl] at hsem
    cases hsem
    dsimp only
    cases hfind : s.findChallenge (platform.hashToken input.token) with
    | none => exact goes_ret _ _
    | some found =>
        obtain ⟨challenge, user⟩ := found
        dsimp only
        split
        · exact goes_ret _ _
        · rename_i husable
          rw [not_or, not_le] at husable
          obtain ⟨challenge', hchallenge, huser⟩ := Option.bind_eq_some_iff.mp hfind
          obtain ⟨user', huser', heq⟩ := Option.map_eq_some_iff.mp huser
          cases heq
          obtain ⟨hmem, htoken⟩ := Table.find?_mem hchallenge
          obtain ⟨-, hid⟩ := Table.get?_eq_some.mp huser'
          have hid : user.id = challenge.userId := hid
          have hcurrent : Current ⟨user.id, s.challengePassword challenge.id⟩ s :=
            hfresh input hop _ _ _ ⟨challenge, hmem, hid.symm, beq_iff_eq.mp htoken, rfl, rfl⟩ husable.1
          have hverified : s.verifiedBy (.findChallenge (platform.hashToken input.token)) =
              some ⟨user.id, s.challengePassword challenge.id⟩ := by
            rw [Store.verifiedBy, hfind, Option.map_some]
          rw [hverified]
          exact goes_secondFactor (within_compareCode _ input challenge user _) hcurrent

omit [DecidableEq ι] in
theorem closing_of_update {s s' : Store ι} {u u' : Nat} {x : Option (ι × Bool)}
    (h : s'.changing = Function.update s.changing u x) (hx : u' = u → ∀ j, x ≠ some (j, true)) (hclosing : s'.Closing u') :
    s.Closing u' := by
  obtain ⟨j, hj⟩ := hclosing
  rw [h] at hj
  by_cases hu : u' = u
  · rw [hu, Function.update_self] at hj
    exact absurd hj (hx hu j)
  · rw [Function.update_of_ne hu] at hj
    exact ⟨j, hj⟩

omit [DecidableEq ι] in
theorem owner_of_update {s s' : Store ι} {u : Nat} {x : Option (ι × Bool)}
    (h : s'.changing = Function.update s.changing u x)
    (howner : s.changing u = none ∨ ∃ b, s.changing u = some (i, b)) (u' : Nat) :
    s'.changing u' = s.changing u' ∨ s.changing u' = none ∨ ∃ b, s.changing u' = some (i, b) := by
  by_cases hu : u' = u
  · rw [hu]
    exact .inr howner
  · rw [h]
    exact .inl (Function.update_of_ne hu _ _)

/-- The commit: the user gets a new password, and what was open before it is revoked or kept. -/
theorem goes_txCommit {u keep : Nat} {passwordHash : String} {revoked : List Nat} {now : Int} {a : Outcome} {s : Store ι}
    (hs : Revoked i u keep revoked s) :
    Goes platform ops i (.stmt ⟨none, .txCommit u passwordHash keep revoked now⟩ fun _ => .ret a) s := by
  refine ⟨Revoked i u keep revoked, stable_revoked u keep revoked, hs, fun s s' hinv hrevoked hsem => ?_⟩
  have hopened : ∀ u' v id, s'.Open u' v id → s.Open u' v id :=
    fun u' v id hopen => (sem_opened hsem hopen).resolve_right fun h => by cases h.1
  cases hsem
  refine ⟨⟨?_, ?_⟩, ⟨owner_of_update rfl (.inr ⟨true, hrevoked.1⟩), fun u' v id h => .inl (hopened u' v id h),
    fun u' hu' => ?_, fun _ _ _ _ h => .inl h⟩, goes_ret _ _⟩
  · intro change hc v id hopen hlt
    rcases List.mem_cons.mp hc with rfl | hc
    · have hold := hopened _ _ _ hopen
      have hnot : id ∉ revoked := fun hmem => by
        have hnone : (if id ∈ revoked then some now else s.revokedAt id) = none := hopen.2.1
        rw [if_pos hmem] at hnone
        cases hnone
      obtain ⟨⟨r, hr, hid, -⟩, -⟩ := hold
      have hlt : r.id < s.sessions.next := s.sessions.lt_next r hr
      rw [hid] at hlt
      exact ⟨(hrevoked.2 v id (hopened _ _ _ hopen)).resolve_left hnot, hlt⟩
    · exact hinv.cutOff change hc v id (hopened _ _ _ hopen) hlt
  · intro made hc
    rcases List.mem_cons.mp hc with rfl | hc
    · have hself : Function.update s.password u (s.changes.length + 1) u = s.changes.length + 1 := Function.update_self ..
      exact ⟨hself.ge, Nat.le_refl _⟩
    · obtain ⟨hpassword, hnumber⟩ := hinv.numbered made hc
      refine ⟨?_, Nat.le_succ_of_le hnumber⟩
      show made.password ≤ Function.update s.password u (s.changes.length + 1) made.userId
      by_cases hu : made.userId = u
      · rw [hu, Function.update_self]
        exact Nat.le_succ_of_le hnumber
      · rw [Function.update_of_ne hu]
        exact hpassword
  · have hne : u' ≠ u := fun h => hu' (congrArg some h.symm)
    exact ⟨Function.update_of_ne hne _ _, closing_of_update rfl fun h => absurd h hne⟩

omit [DecidableEq ι] in
theorem revoked_of_open {s : Store ι} {u keep v id : Nat} (h : s.Open u v id) : id ∈ s.revocable u keep ∨ id = keep := by
  obtain ⟨⟨r, hr, rfl, hu⟩, hnone, -⟩ := h
  by_cases hkeep : r.id = keep
  · exact .inr hkeep
  · refine .inl (List.mem_map.mpr ⟨r, List.mem_filter.mpr ⟨hr, ?_⟩, rfl⟩)
    simp [hu, hnone, hkeep]

theorem goes_changeTransaction (input : ChangePasswordInput) (user : User) (s : Store ι) :
    Goes platform ops i (changeTransaction platform input user) s := by
  refine ⟨fun _ => True, Spec.Stable.true i _, trivial, fun s s' hinv _ hsem => ?_⟩
  simp only [sem] at hsem
  split at hsem
  · cases hsem
  · rename_i hfree
    rw [Option.not_isSome_iff_eq_none] at hfree
    split at hsem
    · rename_i hthere
      cases hsem
      refine ⟨⟨hinv.cutOff, hinv.numbered⟩, ⟨owner_of_update rfl (.inl hfree), fun _ _ _ h => .inl h,
        fun u _ => ⟨rfl, closing_of_update rfl fun _ _ h => by simp at h⟩, fun _ _ _ _ h => .inl h⟩, ?_⟩
      dsimp only
      rw [if_neg (by rw [Option.isNone_iff_eq_none]; exact Option.isSome_iff_ne_none.mp hthere)]
      refine ⟨Written i user.id, stable_written user.id, Function.update_self .., fun s s' hinv hwritten hsem => ?_⟩
      cases hsem
      refine ⟨⟨hinv.cutOff, hinv.numbered⟩, ⟨owner_of_update rfl (.inr ⟨false, hwritten⟩), fun _ _ _ h => .inl h,
        fun u hu => ⟨rfl, closing_of_update rfl fun h => absurd (congrArg some h.symm) hu⟩, fun _ _ _ _ h => .inl h⟩,
        goes_txCommit ⟨Function.update_self .., fun v id => revoked_of_open⟩⟩
    · rename_i hgone
      cases hsem
      refine ⟨hinv, ⟨fun _ => .inl rfl, fun _ _ _ h => .inl h, fun _ _ => ⟨rfl, id⟩, fun _ _ _ _ h => .inl h⟩, ?_⟩
      dsimp only
      rw [if_pos (by rw [Option.isNone_iff_eq_none]; exact Option.not_isSome_iff_eq_none.mp hgone)]
      exact goes_ret _ _

theorem goes_changePassword (input : ChangePasswordInput) (s : Store ι) :
    Goes platform ops i (changePassword platform input) s := by
  refine goes_quiet rfl rfl rfl (fun s₁ s₂ _ => ?_) s
  cases s₁.users.get? input.userId with
  | none => exact goes_ret _ _
  | some user =>
      refine goes_checkLoginThrottle (fun _ _ => goes_ret _ _) (fun s => ?_) _
      split
      · exact goes_quiet rfl rfl rfl (fun _ _ _ => goes_ret _ _) _
      · split
        · exact goes_ret _ _
        · exact goes_changeTransaction input user _

/-- **Every call** keeps the promises. -/
theorem call_goes {s : Store ι} (hs : Fresh platform ops i s) : Goes platform ops i ((ops i).call platform) s := by
  cases hop : ops i with
  | signIn input => exact goes_signIn input s
  | verifyTotpChallenge input => exact goes_verifyTotpChallenge input (by rw [hop]; rfl) hs
  | createSession userId token now =>
      refine goes_quiet rfl rfl rfl (fun s₁ s₂ _ => goes_quiet rfl rfl rfl (fun s₃ s₄ _ => ?_) _) s
      dsimp only
      split <;> exact goes_ret _ _
  | changePassword input => exact goes_changePassword input s

end Calls

/-! ## Every run -/

section Runs
variable [DecidableEq ι] (platform : Platform)

/-- Any number of calls over some tables, none of them started. What is there goes back to the passwords the users have. -/
def unstarted (ops : ι → Op) (tables : Auth.Store ι) (revokedAt : Nat → Option Int) : Conf ι Stmt (Store ι) Outcome where
  store :=
    { tables with
      revokedAt := revokedAt
      changing := fun _ => none
      password := fun _ => 0
      challengePassword := fun _ => 0
      sessionPassword := fun _ => some 0
      changes := [] }
  calls := fun i => (ops i).call platform

/-- In the runs in which no change of password overlaps a sign-in of its user, and no challenge outlasts one, every change
cuts off what was signed in with the passwords before it, now and later. -/
theorem change_cuts_off (ops : ι → Op) (tables : Auth.Store ι) (revokedAt : Nat → Option Int)
    {c : Conf ι Stmt (Store ι) Outcome}
    (hr : Reach sem (Uninterrupted platform ops) (unstarted platform ops tables revokedAt) c) : CutOff c.store := by
  have hinit : (cutting platform ops).Good sem (unstarted platform ops tables revokedAt) := by
    refine ⟨⟨nofun, nofun⟩, fun i => call_goes fun input _ u v expiresAt hpending _ => ?_⟩
    obtain ⟨_, _, _, _, _, rfl⟩ := hpending
    exact ⟨rfl, fun hclosing => by obtain ⟨j, hj⟩ := hclosing; cases hj⟩
  exact (hinit.reach compatible hr).1.cutOff

end Runs

/-! ## Two schedules -/

theorem key_unusedCode (id : Nat) : key (⟨id, 0, "AAAABBBBCCCCDDDD", none⟩ : TotpRecoveryCode) = id := rfl

/-- A user with a session, and a recovery code for a second factor that may be enabled. -/
def signedIn (totpEnabledAt : Option Int) : Auth.Store ι where
  users := Table.empty.insert (fun id => ⟨id, "me@example.org", some "old", .en, none, some "MFRGG", totpEnabledAt⟩)
    fun _ => rfl
  challenges := .empty
  recoveryCodes := Table.empty.insert (fun id => ⟨id, 0, "AAAABBBBCCCCDDDD", none⟩) key_unusedCode
  sessions := Table.empty.insert (fun id => ⟨id, 0, "kept", none, 0, 0, 43200000, 604800000⟩) fun _ => rfl
  memberships := .empty
  loginAttempts := .empty
  locks := []
  compared := []

def signInOld : SignInInput := ⟨"me@example.org", "old", none, none, 1000, "token", "", false⟩

def changeOld : ChangePasswordInput := ⟨0, "old", "correct horse staple", 0, none, 2000, ""⟩

/-- A sign-in, and then a change of password. -/
def signInThenChange : Bool → Op
  | false => .signIn signInOld
  | true => .changePassword changeOld

/-- No other call is on its way where a change of password goes through the sessions or commits. -/
def aloneWhenCutting (c : Conf Bool Stmt (Store Bool) Outcome) (i : Bool) : Bool :=
  ((c.calls i).next?.bind Stmt.cuts).isNone ||
    [false, true].all fun j => ((c.calls j).next?.bind Stmt.verified).isNone && !(c.calls j).next?.any Stmt.looksUp

theorem uninterrupted_of_alone {platform : Platform} {ops : Bool → Op} {c : Conf Bool Stmt (Store Bool) Outcome} {i : Bool}
    (h : aloneWhenCutting c i = true) : Uninterrupted platform ops c i := by
  intro u hu
  rw [aloneWhenCutting, hu, Option.isNone_some, Bool.false_or, List.all_eq_true] at h
  have hj : ∀ j, ((c.calls j).next?.bind Stmt.verified).isNone = true ∧ (!(c.calls j).next?.any Stmt.looksUp) = true :=
    fun j => Bool.and_eq_true_iff.mp (h j (by cases j <;> simp))
  refine ⟨fun j v hv => ?_, fun j hlooks => ?_⟩
  · have := (hj j).1
    rw [hv] at this
    cases this
  · have := (hj j).2
    rw [hlooks] at this
    cases this

/-- The session of the sign-in goes with the change. -/
theorem change_cuts_off_signedIn : ∃ c, Reach sem (Uninterrupted plain signInThenChange)
      (unstarted plain signInThenChange (signedIn none) fun _ => none) c ∧
    c.store.changes = [⟨0, 1, 0, 2⟩] ∧ c.store.revokedAt 1 = some 2000 ∧ CutOff c.store := by
  have hrun : ((unstarted plain signInThenChange (signedIn none) fun _ => none).run sem
      (List.replicate 8 false ++ List.replicate 6 true)).any (fun c =>
      c.store.changes = [⟨0, 1, 0, 2⟩] ∧ c.store.revokedAt 1 = some 2000) = true := by decide +kernel
  obtain ⟨c, hc, hchanged⟩ := (Option.any_eq_true _ _).mp hrun
  obtain ⟨hchanges, hrevoked⟩ := of_decide_eq_true hchanged
  have hreach : Reach sem (Uninterrupted plain signInThenChange)
      (unstarted plain signInThenChange (signedIn none) fun _ => none) c :=
    Reach.of_allSteps (p := aloneWhenCutting) (fun _ _ => uninterrupted_of_alone) (by decide +kernel) hc
  exact ⟨c, hreach, hchanges, hrevoked, change_cuts_off plain signInThenChange (signedIn none) (fun _ => none) hreach⟩

/-- A sign-in that opens a challenge, a change of password, and the second factor of the sign-in. -/
def challengeThenChange : Fin 3 → Op
  | 0 => .signIn signInOld
  | 1 => .changePassword changeOld
  | 2 => .verifyTotpChallenge ⟨"token", "aaaa-bbbb-cccc-dddd", 3000, "session"⟩

/-- **A sign-in with the old password survives the change**: its challenge is redeemed afterwards. -/
theorem sign_in_survives_change : ∃ c, Reach sem anyStep
      (unstarted plain challengeThenChange (signedIn (some 0)) fun _ => none) c ∧ ¬ CutOff c.store := by
  have hrun : ((unstarted plain challengeThenChange (signedIn (some 0)) fun _ => none).run sem
      (List.replicate 7 0 ++ List.replicate 6 1 ++ List.replicate 7 2)).any (fun c =>
      c.store.changes = [⟨0, 1, 0, 1⟩] ∧ (∃ r ∈ c.store.sessions.rows, r.id = 1 ∧ r.userId = 0) ∧
        c.store.revokedAt 1 = none ∧ c.store.sessionPassword 1 = some 0) = true := by decide +kernel
  obtain ⟨c, hc, hchanged⟩ := (Option.any_eq_true _ _).mp hrun
  obtain ⟨hchanges, hopen⟩ := of_decide_eq_true hchanged
  refine ⟨c, .of_run hc, fun hcut => ?_⟩
  have hkept := hcut ⟨0, 1, 0, 1⟩ (by rw [hchanges]; exact List.mem_singleton_self _) 0 1 hopen Nat.one_pos
  exact absurd hkept.1 (by decide)

end IkelyaneMonitor.Auth.Login
