import IkelyaneMonitor.Auth.SingleUse

/-!
# The cap on wrong codes

`verifyTotpChallenge` reads `failedAttempts` with the challenge and writes it back, plus one, in a later statement.

* `wrongCodes` : the wrong codes compared against a challenge so far; `alone` : nobody reads a challenge while another call
  is between its own read and its write;
* `cap` : what a call promises; `Capped` : the invariant of the runs, `capped_step` : a step keeps it;
* `guess_cap` : five wrong codes at most in the runs of `alone`, which the code does not see to (`six_wrong_codes`).
-/

namespace IkelyaneMonitor.Auth
open Interleave

variable {ι : Type}

def wrongCodes (x : Nat) (s : Store ι) : Nat := s.compared.count (x, false)

/-- The challenge a statement of an attempt is about: from the comparison of a code to the write of the counter. -/
def Stmt.attempt? : Stmt → Option Nat
  | .findRecoveryCode ch _ | .compare ch _ | .deleteChallenge ch | .setFailedAttempts ch _ => some ch
  | _ => none

/-- The call has read challenge `x` and has its counter still to write. -/
def attempting (x : Nat) (p : Call ι) : Bool := p.next?.bind Stmt.attempt? == some x

/-- The statement reads challenge `x`. -/
def Stmt.reads (x : Nat) : Stmt → Store ι → Bool
  | .findChallenge tokenHash, s => (s.findChallenge tokenHash).any fun r => r.1.id == x
  | _, _ => false

/-- A call that reads challenge `x` finds no other in an attempt on it. -/
def alone (x : Nat) (c : Conf ι Stmt (Store ι) Outcome) (i : ι) : Prop :=
  (c.calls i).next?.any (fun w => w.reads x c.store) = true → ∀ j, j ≠ i → attempting x (c.calls j) = false

/-- The counter of challenge `x` covers the wrong codes so far. -/
def settled (x : Nat) (s : Store ι) : Bool :=
  s.challenges.rows.all fun c => c.id != x || wrongCodes x s ≤ min c.failedAttempts (totpMaxChallengeAttempts - 1)

/-- No code is compared against challenge `x`, whose row stays as it is unless it goes. -/
structure CounterKept (x : Nat) (s s' : Store ι) : Prop where
  wrongCodes : wrongCodes x s' = wrongCodes x s
  row : ∀ c' ∈ s'.challenges, c'.id = x → c' ∈ s.challenges

def cap (x : Nat) : Spec ι Stmt (Store ι) Outcome where
  inv := fun s => wrongCodes x s ≤ totpMaxChallengeAttempts
  rely := fun _ w s s' => w.bind Stmt.attempt? = some x → CounterKept x s s'
  guar := fun _ s w s' p => (w.attempt? ≠ some x → CounterKept x s s') ∧
    (attempting x p = true → w.attempt? = some x ∨ w.reads x s = true) ∧
    (w.attempt? = some x → attempting x p = false → settled x s' = true)
  post := fun _ _ _ => True

theorem settled_iff {x : Nat} {s : Store ι} : settled x s = true ↔ ∀ c ∈ s.challenges, c.id = x →
    wrongCodes x s ≤ min c.failedAttempts (totpMaxChallengeAttempts - 1) := by
  simp only [settled, List.all_eq_true, Bool.or_eq_true, bne_iff_ne, decide_eq_true_eq]
  refine forall₂_congr fun c _ => ⟨fun h hc => h.resolve_left fun hn => hn hc, fun h => ?_⟩
  exact or_iff_not_imp_left.mpr fun hn => h (not_not.mp hn)

theorem CounterKept.settled {x : Nat} {s s' : Store ι} (h : CounterKept x s s') (hs : settled x s = true) :
    settled x s' = true := by
  rw [settled_iff] at hs ⊢
  intro c hc hid
  rw [h.wrongCodes]
  exact hs c (h.row c hc hid) hid

/-! ## The calls -/

section Calls
variable {prim : Primitives} {x : Nat} {i : ι}

/-- Statements that neither read challenge `x` nor belong to an attempt on it. -/
def Stmt.calm (x : Nat) (w : Stmt) : Prop :=
  w.verifying = true ∧ w.attempt? ≠ some x ∧ ∀ tokenHash, w ≠ .findChallenge tokenHash

/-- A call all of whose statements are calm. -/
def Calm (x : Nat) (p : Call ι) : Prop := p.All (fun _ => True) (Stmt.calm x) fun _ => True

theorem Calm.attempting {p : Call ι} (h : Calm x p) : attempting x p = false := by
  cases p with
  | ret a => rfl
  | stmt w k => exact beq_false_of_ne h.1.2.1

theorem calm_openSession (input : VerifyInput) (challenge : TotpChallenge) (user : User) (code : Option Nat) :
    Calm x (openSession prim input challenge user code : Call ι) := by
  refine ⟨⟨rfl, nofun, nofun⟩, fun s _ => ⟨⟨rfl, nofun, nofun⟩, fun s _ => ?_⟩⟩
  beta_reduce
  split <;> trivial

/-- The transaction is no part of an attempt. -/
theorem calm_transaction (input : VerifyInput) (challenge : TotpChallenge) (user : User) (code : Option Nat) :
    Calm x (.stmt (.txDeleteChallenge challenge.id) fun s =>
      if (s.challenges.get? challenge.id).isNone then .ret .thrown
      else
        match code with
        | none => openSession prim input challenge user none
        | some codeId =>
          .stmt (.txUseCode codeId input.now) fun s =>
            if (s.recoveryCodes.get? codeId).isNone then .ret .thrown
            else openSession prim input challenge user (some codeId) : Call ι) := by
  refine ⟨⟨rfl, nofun, nofun⟩, fun s _ => ?_⟩
  beta_reduce
  split
  · trivial
  · cases code with
    | none => exact calm_openSession input challenge user none
    | some codeId =>
        refine ⟨⟨rfl, nofun, nofun⟩, fun s _ => ?_⟩
        beta_reduce
        split
        · trivial
        · exact calm_openSession input challenge user (some codeId)

/-- An attempt on another challenge. -/
theorem calm_settleChallenge (input : VerifyInput) {challenge : TotpChallenge} (hx : challenge.id ≠ x) (user : User)
    (code : Option Nat) (valid : Bool) : Calm x (settleChallenge prim input challenge user code valid : Call ι) := by
  have hother : ∀ {w : Stmt}, w.verifying = true → w.attempt? = some challenge.id →
      (∀ tokenHash, w ≠ .findChallenge tokenHash) → w.calm x :=
    fun hv hw hf => ⟨hv, by rw [hw]; simpa using hx, hf⟩
  refine ⟨hother rfl rfl nofun, fun s _ => ?_⟩
  cases valid with
  | true => exact calm_transaction input challenge user code
  | false =>
      simp only [Bool.false_eq_true, if_false]
      split
      · refine ⟨hother rfl rfl nofun, fun s _ => ?_⟩
        beta_reduce
        split <;> trivial
      · refine ⟨hother rfl rfl nofun, fun s _ => ?_⟩
        beta_reduce
        split <;> trivial

theorem compareCode_next (prim : Primitives) (input : VerifyInput) (challenge : TotpChallenge) (user : User) :
    (compareCode prim input challenge user : Call ι).next?.bind Stmt.attempt? = some challenge.id ∨
      (compareCode prim input challenge user : Call ι) = .ret .thrown := by
  unfold compareCode
  simp only
  split
  · split
    · exact .inl rfl
    · split
      · exact .inr rfl
      · exact .inl rfl
  · exact .inl rfl

theorem calm_compareCode (input : VerifyInput) {challenge : TotpChallenge} (hx : challenge.id ≠ x) (user : User) :
    Calm x (compareCode prim input challenge user : Call ι) := by
  unfold compareCode
  simp only
  split
  · split
    · exact calm_settleChallenge input hx user none false
    · split
      · trivial
      · exact calm_settleChallenge input hx user none _
  · refine ⟨⟨rfl, by simpa [Stmt.attempt?] using hx, nofun⟩, fun s _ => ?_⟩
    beta_reduce
    split
    · exact calm_settleChallenge input hx user none false
    · split
      · exact calm_settleChallenge input hx user _ true
      · exact calm_settleChallenge input hx user none false

/-- The call has read `f` as the counter of challenge `x`. -/
def HasRead (x f : Nat) (s : Store ι) : Prop :=
  wrongCodes x s ≤ min f (totpMaxChallengeAttempts - 1) ∧ ∀ c ∈ s.challenges, c.id = x → c.failedAttempts = f

/-- It has compared a wrong code since. -/
def HasCompared (x f : Nat) (s : Store ι) : Prop := wrongCodes x s ≤ min f (totpMaxChallengeAttempts - 1) + 1

theorem stable_hasRead {w : Option Stmt} (hw : w.bind Stmt.attempt? = some x) (f : Nat) :
    (cap x).Stable i w (HasRead x f) := by
  intro s s' _ _ hr h
  obtain ⟨hcount, hrow⟩ := hr hw
  exact ⟨hcount ▸ h.1, fun c hc hid => h.2 c (hrow c hc hid) hid⟩

theorem stable_hasCompared {w : Option Stmt} (hw : w.bind Stmt.attempt? = some x) (f : Nat) :
    (cap x).Stable i w (HasCompared x f) := by
  intro s s' _ _ hr h
  unfold HasCompared
  rw [(hr hw).wrongCodes]
  exact h

theorem HasRead.settled {f : Nat} {s : Store ι} (h : HasRead x f s) : settled x s = true :=
  settled_iff.mpr fun c hc hid => (h.2 c hc hid) ▸ h.1

theorem attempts_notAttempting (inputs : ι → VerifyInput) (s : Store ι) (i : ι) :
    attempting x ((attempts prim inputs s).calls i) = false := by
  simp only [attempts, verifyTotpChallenge]
  split <;> rfl

/-! ## The calls keep their promises -/

variable [DecidableEq ι]

/-- The statements as they run when challenge `x` is read only while it is settled. -/
def semSettled (x : Nat) : ι → Stmt → Store ι → Option (Store ι) :=
  restrict sem fun _ w s => !w.reads x s || settled x s

theorem sem_counterKept {x : Nat} {i : ι} {w : Stmt} {s s' : Store ι} (hw : w.verifying = true) (hx : w.attempt? ≠ some x)
    (h : sem i w s = some s') : CounterKept x s s' := by
  cases w with
  | findChallenge | findRecoveryCode | txFindMembership =>
      cases h
      exact ⟨rfl, fun c hc _ => hc⟩
  | compare ch valid =>
      cases h
      refine ⟨List.count_cons_of_ne fun h => hx ?_, fun c hc _ => hc⟩
      rw [Stmt.attempt?, (Prod.mk.inj h).1]
  | deleteChallenge id =>
      simp only [sem] at h
      split at h <;> cases h
      exact ⟨rfl, fun c hc _ => (Table.mem_deleteMany.mp hc).1⟩
  | setFailedAttempts id n =>
      simp only [sem] at h
      split at h <;> cases h
      refine ⟨rfl, fun c' hc' hid => ?_⟩
      obtain ⟨c, hc, rfl⟩ := List.mem_map.mp hc'
      by_cases hcid : c.id = id
      · rw [if_pos (beq_iff_eq.mpr hcid)] at hid
        exact absurd (congrArg some (hcid.symm.trans hid)) hx
      · rw [if_neg (by simpa using hcid)] at hid ⊢
        exact hc
  | txDeleteChallenge id | txUseCode id now =>
      simp only [sem] at h
      split at h
      · cases h
      · split at h <;> cases h <;> exact ⟨rfl, fun c hc _ => hc⟩
  | txCommit ch code now session =>
      simp only [sem] at h
      split at h <;> cases h
      · exact ⟨rfl, fun c hc _ => hc⟩
      · exact ⟨rfl, fun c hc _ => (Table.mem_deleteMany.mp hc).1⟩
  | _ => cases hw

theorem Calm.sat {p : Call ι} (h : Calm x p) : (cap x).Sat (semSettled x) i p fun _ => True := by
  have hkept : ∀ w s s', Stmt.calm x w → semSettled x i w s = some s' → CounterKept x s s' := fun w s s' hw hsem =>
    sem_counterKept hw.1 hw.2.1 (restrict_eq_some.mp hsem).2
  refine Spec.Sat.of_all (W := Stmt.calm x) (Q := fun _ => True) ?_ ?_ (fun _ _ _ _ => trivial)
    (h.mono (fun _ _ => trivial) (fun _ h => h) fun _ h => h)
  · intro w s s' hw hs hsem
    exact (hkept w s s' hw hsem).wrongCodes.le.trans hs
  · intro w s s' p hw hp hs hsem
    refine ⟨fun _ => hkept w s s' hw hsem, fun hatt => ?_, fun hx => absurd hx hw.2.1⟩
    cases p with
    | ret a => cases hatt
    | stmt w k => exact absurd (beq_iff_eq.mp hatt) hp.1.2.1

/-- A statement of an attempt on challenge `x`: it keeps the bound, and either goes on with the attempt or leaves the
challenge settled. -/
theorem sat_attempt {w : Stmt} {k : Store ι → Call ι} {P : Store ι → Prop} (hw : w.attempt? = some x)
    (h : ∀ s s', P s → sem i w s = some s' → wrongCodes x s' ≤ totpMaxChallengeAttempts ∧
      ((attempting x (k s) = true ∧
        ∃ P', (cap x).Stable i (k s).next? P' ∧ P' s' ∧ (cap x).Sat (semSettled x) i (k s) P') ∨
      (settled x s' = true ∧ Calm x (k s)))) :
    (cap x).Sat (semSettled x) i (.stmt w k) P := by
  intro s s' _ hP hsem
  obtain ⟨hbound, ⟨hatt, hnext⟩ | ⟨hsettled, hcalm⟩⟩ := h s s' hP (restrict_eq_some.mp hsem).2
  · exact ⟨hbound, ⟨fun hx => absurd hw hx, fun _ => .inl hw, fun _ hno => by rw [hatt] at hno; cases hno⟩, hnext⟩
  · exact ⟨hbound, ⟨fun hx => absurd hw hx, fun _ => .inl hw, fun _ _ => hsettled⟩, _, Spec.Stable.true i _, trivial,
      hcalm.sat⟩

theorem sat_settleChallenge_cap (input : VerifyInput) (challenge : TotpChallenge) (user : User) (code : Option Nat)
    (valid : Bool) : (cap challenge.id).Sat (semSettled challenge.id) i
      (settleChallenge prim input challenge user code valid) (HasRead challenge.id challenge.failedAttempts) := by
  refine sat_attempt rfl fun s s' hP hsem => ?_
  have hmax : min challenge.failedAttempts (totpMaxChallengeAttempts - 1) < totpMaxChallengeAttempts :=
    (Nat.min_le_right _ _).trans_lt (by decide)
  cases valid with
  | true =>
      cases hsem
      have hcount : wrongCodes challenge.id { s with compared := (challenge.id, true) :: s.compared } =
          wrongCodes challenge.id s := List.count_cons_of_ne (by simp)
      have hread : HasRead challenge.id challenge.failedAttempts
          { s with compared := (challenge.id, true) :: s.compared } := ⟨hcount ▸ hP.1, hP.2⟩
      exact ⟨(hread.1.trans_lt hmax).le, .inr ⟨hread.settled, calm_transaction input challenge user code⟩⟩
  | false =>
      cases hsem
      have hcount : wrongCodes challenge.id { s with compared := (challenge.id, false) :: s.compared } =
          wrongCodes challenge.id s + 1 := List.count_cons_self
      have hcompared : HasCompared challenge.id challenge.failedAttempts
          { s with compared := (challenge.id, false) :: s.compared } := hcount.trans_le (Nat.succ_le_succ hP.1)
      refine ⟨hcompared.trans hmax, .inl ?_⟩
      simp only [Bool.false_eq_true, if_false]
      split
      · refine ⟨by simp [attempting, Stmt.attempt?], _, stable_hasCompared rfl _, hcompared, ?_⟩
        refine sat_attempt rfl fun s s' hP hsem => ?_
        simp only [sem] at hsem
        split at hsem <;> cases hsem
        refine ⟨hP.trans hmax, .inr ⟨settled_iff.mpr fun c hc hid => ?_, ?_⟩⟩
        · have := (Table.mem_deleteMany.mp hc).2
          simp [hid] at this
        · split <;> trivial
      · rename_i hfew
        refine ⟨by simp [attempting, Stmt.attempt?], _, stable_hasCompared rfl _, hcompared, ?_⟩
        refine sat_attempt rfl fun s s' hP hsem => ?_
        simp only [sem] at hsem
        split at hsem <;> cases hsem
        refine ⟨hP.trans hmax, .inr ⟨settled_iff.mpr fun c' hc' hid => ?_, ?_⟩⟩
        · obtain ⟨c, hc, rfl⟩ := List.mem_map.mp hc'
          have hcid : c.id = challenge.id := by
            split at hid <;> exact hid
          rw [if_pos (beq_iff_eq.mpr hcid)]
          -- the write leaves the last attempt uncounted only when the challenge goes
          have hcovered : wrongCodes challenge.id s ≤ min challenge.failedAttempts (totpMaxChallengeAttempts - 1) + 1 := hP
          exact hcovered.trans (by simp only [totpMaxChallengeAttempts] at hfew ⊢; omega)
        · split <;> trivial

theorem sat_compareCode_cap (input : VerifyInput) (challenge : TotpChallenge) (user : User) :
    (cap challenge.id).Sat (semSettled challenge.id) i (compareCode prim input challenge user)
      (HasRead challenge.id challenge.failedAttempts) := by
  have hsettle : ∀ code valid, (cap challenge.id).Sat (semSettled challenge.id) i
      (settleChallenge prim input challenge user code valid) (HasRead challenge.id challenge.failedAttempts) :=
    fun code valid => sat_settleChallenge_cap input challenge user code valid
  have hatt : ∀ code valid, attempting challenge.id (settleChallenge prim input challenge user code valid : Call ι) = true :=
    fun _ _ => by simp [attempting, settleChallenge, Stmt.attempt?]
  unfold compareCode
  simp only
  split
  · split
    · exact hsettle none false
    · split
      · exact fun _ _ _ => trivial
      · exact hsettle none _
  · refine sat_attempt rfl fun s s' hP hsem => ?_
    cases hsem
    have hbound := (hP.1.trans_lt ((Nat.min_le_right _ _).trans_lt (by decide : _ < totpMaxChallengeAttempts))).le
    split
    · exact ⟨hbound, .inl ⟨hatt .., _, stable_hasRead rfl _, hP, hsettle none false⟩⟩
    · split
      · exact ⟨hbound, .inl ⟨hatt .., _, stable_hasRead rfl _, hP, hsettle _ true⟩⟩
      · exact ⟨hbound, .inl ⟨hatt .., _, stable_hasRead rfl _, hP, hsettle none false⟩⟩

/-- The read of a challenge: of another one, or of `x` while it is settled. -/
theorem sat_read {tokenHash : String} {k : Store ι → Call ι}
    (h : ∀ s, Calm x (k s) ∨ ((Stmt.findChallenge tokenHash).reads x s = true ∧ (settled x s = true →
      ∃ P', (cap x).Stable i (k s).next? P' ∧ P' s ∧ (cap x).Sat (semSettled x) i (k s) P'))) :
    (cap x).Sat (semSettled x) i (.stmt (.findChallenge tokenHash) k) fun _ => True := by
  intro s s' hs _ hsem
  obtain ⟨hallowed, hsem⟩ := restrict_eq_some.mp hsem
  cases hsem
  have hkept : CounterKept x s s := ⟨rfl, fun c hc _ => hc⟩
  obtain hcalm | ⟨hreads, hnext⟩ := h s
  · refine ⟨hs, ⟨fun _ => hkept, fun hatt => ?_, nofun⟩, _, Spec.Stable.true i _, trivial, hcalm.sat⟩
    rw [hcalm.attempting] at hatt
    cases hatt
  · rw [hreads, Bool.not_true, Bool.false_or] at hallowed
    exact ⟨hs, ⟨fun _ => hkept, fun _ => .inr hreads, nofun⟩, hnext hallowed⟩

/-- **Every call keeps its promises.** -/
theorem verify_sat_cap (input : VerifyInput) :
    (cap x).Sat (semSettled x) i (verifyTotpChallenge prim input) fun _ => True := by
  unfold verifyTotpChallenge
  split
  · exact fun _ _ _ => trivial
  · refine sat_read fun s => ?_
    split
    · exact .inl trivial
    · rename_i challenge user hfind
      split
      · exact .inl trivial
      · by_cases hx : challenge.id = x
        · subst hx
          refine .inr ⟨by simp [Stmt.reads, hfind], fun hsettled => ?_⟩
          have hmem : challenge ∈ s.challenges := by
            obtain ⟨c, hc, hu⟩ := Option.bind_eq_some_iff.mp hfind
            obtain ⟨u, _, hpair⟩ := Option.map_eq_some_iff.mp hu
            rw [← (Prod.mk.inj hpair).1]
            exact (Table.find?_mem hc).1
          have hread : HasRead challenge.id challenge.failedAttempts s :=
            ⟨settled_iff.mp hsettled challenge hmem rfl, fun c hc hid => by rw [Table.eq_of_key hc hmem hid]⟩
          have hnext : (compareCode prim input challenge user : Call ι).next?.bind Stmt.attempt? = some challenge.id ∨
              (compareCode prim input challenge user : Call ι) = .ret .thrown := compareCode_next prim input challenge user
          obtain hatt | hthrown := hnext
          · exact ⟨_, stable_hasRead hatt _, hread, sat_compareCode_cap input challenge user⟩
          · rw [hthrown]
            exact ⟨_, Spec.Stable.true i _, trivial, fun _ _ _ => trivial⟩
        · exact .inl (calm_compareCode input hx user)

end Calls

/-! ## Runs -/

section Runs
variable [DecidableEq ι] {prim : Primitives} {x : Nat}

/-- One call at a time is in an attempt on challenge `x`, which is settled while none is. -/
structure Capped (x : Nat) (c : Conf ι Stmt (Store ι) Outcome) : Prop where
  good : (cap x).Good (semSettled x) c
  one : ∀ i j, attempting x (c.calls i) = true → attempting x (c.calls j) = true → i = j
  settled : (∀ i, attempting x (c.calls i) = false) → settled x c.store = true

theorem capped_step {c c' : Conf ι Stmt (Store ι) Outcome} {i : ι} (h : Capped x c) (halone : alone x c i)
    (hs : c.step sem i = some c') : Capped x c' := by
  obtain ⟨w, k, s', hw, hsem, rfl⟩ := (Conf.step_eq_some sem).mp hs
  have hnext : (c.calls i).next? = some w := by rw [hw]; rfl
  have hatt : attempting x (c.calls i) = (w.attempt? == some x) := by rw [attempting, hnext]; rfl
  -- a reader is in no attempt itself, so `x` is settled when it is read
  have hreader : w.reads x c.store = true → w.attempt? ≠ some x ∧ ∀ j, j ≠ i → attempting x (c.calls j) = false := by
    intro hr
    refine ⟨fun hx => ?_, halone (by rw [hnext]; exact hr)⟩
    cases w <;> first | cases hr | cases hx
  have hallowed : (!w.reads x c.store || settled x c.store) = true := by
    cases hr : w.reads x c.store with
    | false => rfl
    | true =>
        refine h.settled fun j => ?_
        by_cases hj : j = i
        · subst hj
          exact hatt.trans (beq_false_of_ne (hreader hr).1)
        · exact (hreader hr).2 j hj
  have hs' : c.step (semSettled x) i = some ⟨s', Function.update c.calls i (k c.store)⟩ :=
    (Conf.step_eq_some _).mpr ⟨w, k, s', hw, restrict_eq_some.mpr ⟨hallowed, hsem⟩, rfl⟩
  obtain ⟨_, w', k', hw', _, _, hkept, henters, hleaves⟩ := h.good.guar hs'
  rw [hw] at hw'
  cases hw'
  have hother : ∀ j, j ≠ i → attempting x (k c.store) = true → attempting x (c.calls j) = false := by
    intro j hj hk
    obtain hx | hr := henters hk
    · by_contra hn
      exact hj (h.one j i (by simpa using hn) (hatt.trans (beq_iff_eq.mpr hx)))
    · exact (hreader hr).2 j hj
  refine ⟨h.good.step hs' fun j hj hjx => hkept fun hx => ?_, fun a b ha hb => ?_, fun hnone => ?_⟩
  · exact hj (h.one j i (beq_iff_eq.mpr hjx) (hatt.trans (beq_iff_eq.mpr hx)))
  · simp only [Function.update_apply] at ha hb
    split at ha <;> split at hb
    · exact (‹a = i›).trans (‹b = i›).symm
    · rw [hother b ‹_› ha] at hb
      cases hb
    · rw [hother a ‹_› hb] at ha
      cases ha
    · exact h.one a b ha hb
  · by_cases hx : w.attempt? = some x
    · exact hleaves hx (by simpa using hnone i)
    · refine (hkept hx).settled (h.settled fun j => ?_)
      by_cases hj : j = i
      · subst hj
        exact hatt.trans (beq_false_of_ne hx)
      · simpa [Function.update_of_ne hj] using hnone j

theorem capped_attempts (inputs : ι → VerifyInput) (s : Store ι) : Capped x (attempts prim inputs s) where
  good := Spec.Good.init (Nat.zero_le _) fun i => verify_sat_cap (inputs i)
  one := fun i _ hi => by
    rw [attempts_notAttempting] at hi
    cases hi
  settled := fun _ => settled_iff.mpr fun c _ _ => Nat.zero_le _

/-- **The cap on wrong codes**: five at most against a challenge, in every run where nobody reads it while another call is
between its own read and its write. -/
theorem guess_cap (inputs : ι → VerifyInput) (s : Store ι) {c : Conf ι Stmt (Store ι) Outcome}
    (h : Reach sem (alone x) (attempts prim inputs s) c) : wrongCodes x c.store ≤ totpMaxChallengeAttempts := by
  have hcapped : Capped x c := by
    induction h with
    | refl => exact capped_attempts inputs s
    | step _ halone hs ih => exact capped_step ih halone hs
  exact hcapped.good.1

end Runs

/-! ## Six wrong codes for one challenge -/

/-- The tables of `sampleAccount` for six callers. -/
def sampleChallenge : Store (Fin 6) where
  users := sampleAccount.users
  challenges := sampleAccount.challenges
  recoveryCodes := sampleAccount.recoveryCodes
  sessions := .empty
  memberships := .empty
  loginAttempts := .empty
  locks := []
  compared := []

/-- The same wrong code, sent by everybody. -/
def wrongCode (_ : Fin 6) : VerifyInput := ⟨"token", "123456", 1790000000000, "session"⟩

/-- One after the other: the fifth deletes the challenge, and the sixth finds none. -/
theorem guess_cap_sequential : ∃ c, (attempts samplePrim wrongCode sampleChallenge).run sem
      [0, 0, 0, 1, 1, 1, 2, 2, 2, 3, 3, 3, 4, 4, 4, 5] = some c ∧
    wrongCodes 0 c.store = 5 ∧ c.store.challenges.rows.length = 0 ∧ wrongCodes 0 c.store ≤ totpMaxChallengeAttempts := by
  have hrun : ((attempts samplePrim wrongCode sampleChallenge).run sem
      [0, 0, 0, 1, 1, 1, 2, 2, 2, 3, 3, 3, 4, 4, 4, 5]).any (fun c =>
      wrongCodes 0 c.store = 5 ∧ c.store.challenges.rows.length = 0) = true := by decide +kernel
  obtain ⟨c, hc, hfive⟩ := (Option.any_eq_true _ _).mp hrun
  obtain ⟨hfive, hgone⟩ := of_decide_eq_true hfive
  have halone : Reach sem (alone 0) (attempts samplePrim wrongCode sampleChallenge) c :=
    Reach.of_allSteps (p := fun c i => (!(c.calls i).next?.any fun w => w.reads 0 c.store) ||
        (List.finRange 6).all fun j => j == i || !attempting 0 (c.calls j))
      (fun c i h hr j hj => by
        simp only [hr, Bool.not_true, Bool.false_or, List.all_eq_true, List.mem_finRange, true_implies] at h
        simpa [hj] using h j)
      (by decide +kernel) hc
  exact ⟨c, hc, hfive, hgone, guess_cap wrongCode sampleChallenge halone⟩

/-- **Six wrong codes**, all read before the first counter is written. -/
theorem six_wrong_codes : ∃ c, Reach sem anyStep (attempts samplePrim wrongCode sampleChallenge) c ∧
    totpMaxChallengeAttempts < wrongCodes 0 c.store ∧ (c.store.challenges.get? 0).isSome = true := by
  have hrun : ((attempts samplePrim wrongCode sampleChallenge).run sem
      [0, 1, 2, 3, 4, 5, 0, 1, 2, 3, 4, 5, 0, 1, 2, 3, 4, 5]).any (fun c =>
      totpMaxChallengeAttempts < wrongCodes 0 c.store ∧ (c.store.challenges.get? 0).isSome = true) = true := by decide +kernel
  obtain ⟨c, hc, hsix⟩ := (Option.any_eq_true _ _).mp hrun
  exact ⟨c, .of_run hc, of_decide_eq_true hsix⟩

end IkelyaneMonitor.Auth
