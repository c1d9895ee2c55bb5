import IkelyaneMonitor.Interleave.RelyGuarantee
import IkelyaneMonitor.Auth.TwoFactorSetup

/-!
# Single use of challenges and recovery codes

Any number of `verifyTotpChallenge` calls, statement by statement.

* `attempts` : the calls over a store; `codesUnused` : a step that marks a recovery code used finds it unused;
* `consumption` : what the calls promise each other; `verify_sat` : they keep it;
* `credentials_single_use` : a challenge opens one session at most, always; a recovery code does in the runs of
  `codesUnused`, which the code does not see to (`code_used_twice`).
-/

namespace IkelyaneMonitor.Auth
open Interleave

section System
variable {ι : Type} (prim : Primitives)

/-- Calls of `verifyTotpChallenge` over the tables of `s`, none of them started. -/
def attempts (inputs : ι → VerifyInput) (s : Store ι) : Conf ι Stmt (Store ι) Outcome where
  store := { s with locks := [], compared := [] }
  calls := fun i => verifyTotpChallenge prim (inputs i)

/-- A code to be marked used is unused. -/
def Stmt.codeUnused : Stmt → Store ι → Bool
  | .txUseCode id _, s => (s.recoveryCodes.get? id).all fun c => c.usedAt.isNone
  | _, _ => true

def codesUnused (c : Conf ι Stmt (Store ι) Outcome) (i : ι) : Bool :=
  (c.calls i).next?.all fun w => w.codeUnused c.store

/-- The statements of `verifyTotpChallenge`. -/
def Stmt.verifying : Stmt → Bool
  | .findChallenge _ | .findRecoveryCode .. | .compare .. | .deleteChallenge _ | .setFailedAttempts .. | .txDeleteChallenge _
  | .txUseCode .. | .txFindMembership _ | .txCommit .. => true
  | _ => false

end System

section Spec
variable {ι : Type}

def hasChallenge (s : Store ι) (id : Nat) : Prop := ∃ c ∈ s.challenges, c.id = id

def hasUnusedCode (s : Store ι) (id : Nat) : Prop := ∃ c ∈ s.recoveryCodes, c.id = id ∧ c.usedAt = none

/-- What a call may assume of the others: no rows appear, used codes stay used, and what it has locked stays. -/
structure Undisturbed (i : ι) (s s' : Store ι) : Prop where
  locks : ∀ l, (l, i) ∈ s.locks → (l, i) ∈ s'.locks
  challenges : ∀ c' ∈ s'.challenges, hasChallenge s c'.id
  lockedChallenge : ∀ id, (.challenge id, i) ∈ s.locks → hasChallenge s id → hasChallenge s' id
  codes : ∀ id, hasUnusedCode s' id → hasUnusedCode s id
  lockedCode : ∀ id, (.recoveryCode id, i) ∈ s.locks → hasUnusedCode s id → hasUnusedCode s' id

/-- The transaction holds what it is about to write. -/
def Holds (i : ι) (w : Stmt) (s : Store ι) : Prop := ∀ ch code now session, w = .txCommit ch code now session →
  (.challenge ch, i) ∈ s.locks ∧ ∀ x, code = some x → (.recoveryCode x, i) ∈ s.locks

/-- `strict`: only in runs of `codesUnused` is anything promised of the codes. -/
def consumption (strict : Bool) : Spec ι Stmt (Store ι) Outcome where
  inv := fun s => ∀ l i j, (l, i) ∈ s.locks → (l, j) ∈ s.locks → i = j
  rely := fun i _ => Undisturbed i
  guar := fun i s w _ p => w.verifying = true ∧ Holds i w s ∧ ∀ ch code v, p = .ret (.signedIn ch code v) →
    hasChallenge s ch ∧ (strict = true → ∀ x, code = some x → hasUnusedCode s x)
  post := fun _ a s => ∀ ch code v, a = .signedIn ch code v →
    ¬ hasChallenge s ch ∧ ∀ x, code = some x → ¬ hasUnusedCode s x

/-- What leaves the rows alone, and the locks of the others. -/
theorem Undisturbed.of_tables {j : ι} {s s' : Store ι} (hlocks : ∀ l, (l, j) ∈ s.locks → (l, j) ∈ s'.locks)
    (hch : s'.challenges = s.challenges) (hcodes : s'.recoveryCodes = s.recoveryCodes) : Undisturbed j s s' where
  locks := hlocks
  challenges := fun c hc => ⟨c, hch ▸ hc, rfl⟩
  lockedChallenge := fun id _ h => by rwa [hasChallenge, hch]
  codes := fun id h => by rwa [hasUnusedCode, hcodes] at h
  lockedCode := fun id _ h => by rwa [hasUnusedCode, hcodes]

/-! ## Stable assertions -/

section Stable
variable {strict : Bool} {i : ι} {w : Option Stmt}

/-- The transaction has locked the challenge, and it is there. -/
def HasChallenge (i : ι) (ch : Nat) (s : Store ι) : Prop := (.challenge ch, i) ∈ s.locks ∧ hasChallenge s ch

/-- The transaction has also locked the recovery code, if it uses one, which is unused if `strict`. -/
def HasBoth (strict : Bool) (i : ι) (ch : Nat) (code : Option Nat) (s : Store ι) : Prop :=
  HasChallenge i ch s ∧ ∀ x, code = some x →
    (.recoveryCode x, i) ∈ s.locks ∧ (strict = true → hasUnusedCode s x)

theorem stable_hasChallenge (ch : Nat) : (consumption strict).Stable i w (HasChallenge i ch) :=
  fun _ _ _ _ hr h => ⟨hr.locks _ h.1, hr.lockedChallenge _ h.1 h.2⟩

theorem stable_hasBoth (ch : Nat) (code : Option Nat) : (consumption strict).Stable i w (HasBoth strict i ch code) :=
  fun s s' hs hs' hr h => ⟨stable_hasChallenge (w := w) ch s s' hs hs' hr h.1, fun x hx =>
    ⟨hr.locks _ (h.2 x hx).1, fun hst => hr.lockedCode _ (h.2 x hx).1 ((h.2 x hx).2 hst)⟩⟩

theorem stable_consumed (ch : Nat) (code : Option Nat) :
    (consumption strict).Stable i w fun s => ¬ hasChallenge s ch ∧ ∀ x, code = some x → ¬ hasUnusedCode s x := by
  intro s s' _ _ hr h
  refine ⟨fun hc => h.1 ?_, fun x hx hu => h.2 x hx (hr.codes x hu)⟩
  obtain ⟨c', hc', rfl⟩ := hc
  exact hr.challenges c' hc'

end Stable

/-! ## Statements -/

variable [DecidableEq ι]

/-- The statements as they run when `strict`. -/
def semStrict (strict : Bool) : ι → Stmt → Store ι → Option (Store ι) :=
  restrict sem fun _ w s => !strict || w.codeUnused s

theorem not_locked {s : Store ι} {i : ι} {l : RowLock} (h : s.lockedByOther i l = false) {j : ι} (hj : (l, j) ∈ s.locks) :
    j = i := by
  have := List.any_eq_false.mp h _ hj
  simpa using this

def Exclusive (locks : List (RowLock × ι)) : Prop := ∀ l i j, (l, i) ∈ locks → (l, j) ∈ locks → i = j

theorem Exclusive.lock {s : Store ι} {i : ι} {l : RowLock} (hs : Exclusive s.locks) (h : s.lockedByOther i l = false) :
    Exclusive ((l, i) :: s.locks) := by
  intro l' a b ha hb
  simp only [List.mem_cons, Prod.mk.injEq] at ha hb
  rcases ha with ⟨rfl, rfl⟩ | ha <;> rcases hb with ⟨hl, rfl⟩ | hb
  · rfl
  · exact (not_locked h hb).symm
  · subst hl
    exact not_locked h ha
  · exact hs l' a b ha hb

theorem Exclusive.release {s : Store ι} (hs : Exclusive s.locks) (i : ι) : Exclusive (s.release i).locks :=
  fun l a b ha hb => hs l a b (List.mem_filter.mp ha).1 (List.mem_filter.mp hb).1

theorem mem_release {s : Store ι} {i j : ι} {l : RowLock} (hj : j ≠ i) (h : (l, j) ∈ s.locks) :
    (l, j) ∈ (s.release i).locks :=
  List.mem_filter.mpr ⟨h, by simpa using hj⟩

theorem sem_exclusive {i : ι} {w : Stmt} {s s' : Store ι} (hs : Exclusive s.locks) (h : sem i w s = some s') :
    Exclusive s'.locks := by
  cases w <;> simp only [sem] at h
  case txDeleteChallenge id =>
    split at h
    · cases h
    · rename_i hfree
      split at h <;> cases h
      · exact hs.lock (by simpa using hfree)
      · exact hs.release i
  case txUseCode id now =>
    split at h
    · cases h
    · rename_i hfree
      split at h <;> cases h
      · exact hs.lock (by simpa using hfree)
      · exact hs.release i
  case txCommit => split at h <;> cases h <;> exact hs.release i
  case confirm => split at h <;> [cases h; (split at h <;> cases h <;> exact hs)]
  case regenerate => split at h <;> [cases h; (split at h <;> cases h <;> exact hs)]
  case disable => split at h <;> cases h; exact hs
  case createChallenge => split at h <;> cases h <;> exact hs
  case deleteChallenge => split at h <;> cases h; exact hs
  case setFailedAttempts => split at h <;> cases h; exact hs
  all_goals
    cases h
    exact hs

theorem sem_undisturbed {i j : ι} {w : Stmt} {s s' : Store ι} (hs : Exclusive s.locks) (h : sem i w s = some s')
    (hw : w.verifying = true) (hholds : Holds i w s) (hj : j ≠ i) : Undisturbed j s s' := by
  cases w with
  | findChallenge | findRecoveryCode | compare | txFindMembership =>
      cases h
      exact .of_tables (fun _ hl => hl) rfl rfl
  | deleteChallenge id =>
      simp only [sem] at h
      split at h <;> cases h
      rename_i hfree
      refine ⟨fun _ hl => hl, fun c hc => ⟨c, (Table.mem_deleteMany.mp hc).1, rfl⟩, ?_, fun _ h => h, fun _ _ h => h⟩
      rintro id' hl ⟨c, hc, rfl⟩
      refine ⟨c, Table.mem_deleteMany.mpr ⟨hc, beq_false_of_ne fun hid => hj ?_⟩, rfl⟩
      rw [hid] at hl
      exact not_locked (by simpa using hfree) hl
  | setFailedAttempts id n =>
      simp only [sem] at h
      split at h <;> cases h
      refine ⟨fun _ hl => hl, ?_, ?_, fun _ h => h, fun _ _ h => h⟩
      · intro c' hc'
        obtain ⟨c, hc, rfl⟩ := List.mem_map.mp hc'
        exact ⟨c, hc, by split <;> rfl⟩
      · rintro id' _ ⟨c, hc, rfl⟩
        refine ⟨_, List.mem_map.mpr ⟨c, hc, rfl⟩, ?_⟩
        split <;> rfl
  | txDeleteChallenge id =>
      simp only [sem] at h
      split at h
      · cases h
      · split at h <;> cases h
        · exact .of_tables (fun _ hl => List.mem_cons_of_mem _ hl) rfl rfl
        · exact .of_tables (fun _ hl => mem_release hj hl) rfl rfl
  | txUseCode id now =>
      simp only [sem] at h
      split at h
      · cases h
      · split at h <;> cases h
        · exact .of_tables (fun _ hl => List.mem_cons_of_mem _ hl) rfl rfl
        · exact .of_tables (fun _ hl => mem_release hj hl) rfl rfl
  | txCommit ch code now session =>
      obtain ⟨hlock, hcode⟩ := hholds ch code now session rfl
      simp only [sem] at h
      split at h <;> cases h
      · exact .of_tables (fun _ hl => mem_release hj hl) rfl rfl
      · refine ⟨fun _ hl => mem_release hj hl, fun c hc => ⟨c, (Table.mem_deleteMany.mp hc).1, rfl⟩, ?_, ?_, ?_⟩
        · rintro id' hl ⟨c, hc, rfl⟩
          refine ⟨c, Table.mem_deleteMany.mpr ⟨hc, beq_false_of_ne fun hid => hj ?_⟩, rfl⟩
          rw [hid] at hl
          exact hs _ _ _ hl hlock
        · rintro id ⟨c', hc', rfl, hunused⟩
          obtain ⟨c, hc, rfl⟩ := List.mem_map.mp hc'
          split at hunused
          · cases hunused
          · rename_i hne
            exact ⟨c, hc, by rw [if_neg hne], hunused⟩
        · rintro id hl ⟨c, hc, rfl, hunused⟩
          refine ⟨c, List.mem_map.mpr ⟨c, hc, if_neg fun hid => hj ?_⟩, rfl, hunused⟩
          exact hs _ _ _ hl (hcode c.id (beq_iff_eq.mp hid))
  | _ => cases hw

/-! ## The calls -/

section Calls
variable {prim : Primitives} {strict : Bool} {i : ι}

/-- No session. -/
def NoSession (p : Call ι) : Prop := ∀ ch code v, p ≠ .ret (.signedIn ch code v)

/-- A call that keeps its promises whatever is known, and is no session. -/
def Goes (strict : Bool) (i : ι) (p : Call ι) : Prop :=
  NoSession p ∧ (consumption strict).Sat (semStrict strict) i p fun _ => True

theorem Goes.next {p : Call ι} (h : Goes strict i p) (s' : Store ι) : NoSession p ∧
    ∃ P', (consumption strict).Stable i p.next? P' ∧ P' s' ∧ (consumption strict).Sat (semStrict strict) i p P' :=
  ⟨h.1, _, Spec.Stable.true i _, trivial, h.2⟩

theorem goes_thrown : Goes strict i (.ret .thrown) := ⟨nofun, nofun⟩

theorem goes_refused (error : VerifyTotpError) : Goes strict i (.ret (.refused error)) := ⟨nofun, nofun⟩

def Stmt.commits : Stmt → Bool
  | .txCommit .. => true
  | _ => false

omit [DecidableEq ι] in
theorem noSession_stmt {w : Stmt} {k : Store ι → Call ι} : NoSession (.stmt w k) := fun _ _ _ => Prog.stmt_ne_ret

/-- A statement other than the commit: it establishes `P'` and goes on with something that is no session. -/
theorem sat_stmt {w : Stmt} {k : Store ι → Call ι} {P : Store ι → Prop} (hw : w.verifying = true)
    (hcommit : w.commits = false)
    (h : ∀ s s', P s → (strict = true → w.codeUnused s = true) → sem i w s = some s' → NoSession (k s) ∧
      ∃ P', (consumption strict).Stable i (k s).next? P' ∧ P' s' ∧ (consumption strict).Sat (semStrict strict) i (k s) P') :
    (consumption strict).Sat (semStrict strict) i (.stmt w k) P := by
  intro s s' hs hP hsem
  obtain ⟨hq, hsem⟩ := restrict_eq_some.mp hsem
  obtain ⟨hno, P', hst, hP', hsat⟩ := h s s' hP (fun hst => by simpa [hst] using hq) hsem
  have hholds : Holds i w s := by
    rintro ch code now session rfl
    cases hcommit
  exact ⟨sem_exclusive hs hsem, ⟨hw, hholds, fun ch code v hp => absurd hp (hno ch code v)⟩, P', hst, hP', hsat⟩

/-- What the commit leaves: the challenge is gone and the code is used. -/
theorem consumed_of_commit {ch : Nat} {code : Option Nat} {now : Int} {session : NewSession} {s s' : Store ι}
    (hfree : (s.sessions.rows.any fun x => x.tokenHash == session.tokenHash) = false)
    (h : sem i (.txCommit ch code now session) s = some s') :
    ¬ hasChallenge s' ch ∧ ∀ x, code = some x → ¬ hasUnusedCode s' x := by
  simp only [sem, hfree] at h
  cases h
  refine ⟨?_, ?_⟩
  · rintro ⟨c, hc, rfl⟩
    have := (Table.mem_deleteMany.mp hc).2
    simp at this
  · rintro x rfl ⟨c', hc', hid, hunused⟩
    obtain ⟨c, hc, rfl⟩ := List.mem_map.mp hc'
    have hid' : c.id = x := by
      split at hid <;> exact hid
    rw [if_pos (by simp [hid'])] at hunused
    cases hunused

theorem sat_openSession (input : VerifyInput) (challenge : TotpChallenge) (user : User) (code : Option Nat) :
    (consumption strict).Sat (semStrict strict) i (openSession prim input challenge user code)
      (HasBoth strict i challenge.id code) := by
  refine sat_stmt rfl rfl fun s₀ s hP _ hsem => ?_
  cases hsem
  refine ⟨noSession_stmt, _, stable_hasBoth challenge.id code, hP, ?_⟩
  intro s s' hs hP hsem
  obtain ⟨-, hsem⟩ := restrict_eq_some.mp hsem
  have hholds : Holds i (.txCommit challenge.id code input.now
      ⟨user.id, prim.hashToken input.sessionToken, s₀.firstMembership user.id, input.now⟩) s := by
    rintro _ _ _ _ ⟨⟩
    exact ⟨hP.1.1, fun x hx => (hP.2 x hx).1⟩
  refine ⟨sem_exclusive hs hsem, ?_⟩
  cases hfree : s.sessions.rows.any fun x => x.tokenHash == prim.hashToken input.sessionToken with
  | true =>
      simp only [hfree, if_true]
      exact ⟨⟨rfl, hholds, nofun⟩, (goes_thrown.next s').2⟩
  | false =>
      simp only [hfree, Bool.false_eq_true, if_false]
      refine ⟨⟨rfl, hholds, ?_⟩, _, stable_consumed challenge.id code, consumed_of_commit hfree hsem, ?_⟩
      · rintro _ _ _ ⟨⟩
        exact ⟨hP.1.2, fun hst x hx => (hP.2 x hx).2 hst⟩
      · rintro s' _ h _ _ _ ⟨⟩
        exact h

theorem sat_settleChallenge (input : VerifyInput) (challenge : TotpChallenge) (user : User) (code : Option Nat)
    (valid : Bool) : (consumption strict).Sat (semStrict strict) i (settleChallenge prim input challenge user code valid)
      fun _ => True := by
  refine sat_stmt rfl rfl fun s s' _ _ _ => ?_
  cases valid with
  | true =>
      refine ⟨noSession_stmt, _, Spec.Stable.true i _, trivial, sat_stmt rfl rfl fun s s' _ _ hsem => ?_⟩
      cases hch : s.challenges.get? challenge.id with
      | none => exact goes_thrown.next s'
      | some c =>
          have hlocked : HasChallenge i challenge.id s' := by
            simp only [sem, hch, Option.isSome_some, if_true] at hsem
            split at hsem <;> cases hsem
            exact ⟨List.mem_cons_self, c, Table.get?_eq_some.mp hch⟩
          cases code with
          | none =>
              exact ⟨noSession_stmt, _, stable_hasBoth challenge.id none, ⟨hlocked, by rintro _ ⟨⟩⟩,
                sat_openSession input challenge user none⟩
          | some x =>
              refine ⟨noSession_stmt, _, stable_hasChallenge challenge.id, hlocked, ?_⟩
              refine sat_stmt rfl rfl fun s s' hP hq hsem => ?_
              cases hcode : s.recoveryCodes.get? x with
              | none => exact goes_thrown.next s'
              | some r =>
                  obtain ⟨hmem, hid⟩ := Table.get?_eq_some.mp hcode
                  have hboth : HasBoth strict i challenge.id (some x) s' := by
                    simp only [sem, hcode, Option.isSome_some, if_true] at hsem
                    split at hsem <;> cases hsem
                    refine ⟨⟨List.mem_cons_of_mem _ hP.1, hP.2⟩, ?_⟩
                    rintro _ ⟨⟩
                    refine ⟨List.mem_cons_self, fun hst => ⟨r, hmem, hid, ?_⟩⟩
                    simpa [Stmt.codeUnused, hcode] using hq hst
                  exact ⟨noSession_stmt, _, stable_hasBoth challenge.id (some x), hboth,
                    sat_openSession input challenge user (some x)⟩
  | false =>
      simp only [Bool.false_eq_true, if_false]
      split
      · refine ⟨noSession_stmt, _, Spec.Stable.true i _, trivial, sat_stmt rfl rfl fun s s' _ _ _ => ?_⟩
        split
        · exact (goes_refused _).next s'
        · exact goes_thrown.next s'
      · refine ⟨noSession_stmt, _, Spec.Stable.true i _, trivial, sat_stmt rfl rfl fun s s' _ _ _ => ?_⟩
        split
        · exact (goes_refused _).next s'
        · exact goes_thrown.next s'

theorem goes_settleChallenge (input : VerifyInput) (challenge : TotpChallenge) (user : User) (code : Option Nat)
    (valid : Bool) : Goes strict i (settleChallenge prim input challenge user code valid) :=
  ⟨noSession_stmt, sat_settleChallenge input challenge user code valid⟩

theorem goes_compareCode (input : VerifyInput) (challenge : TotpChallenge) (user : User) :
    Goes strict i (compareCode prim input challenge user) := by
  unfold compareCode
  simp only
  split
  · split
    · exact goes_settleChallenge input challenge user none false
    · split
      · exact goes_thrown
      · exact goes_settleChallenge input challenge user none _
  · refine ⟨noSession_stmt, sat_stmt rfl rfl fun s s' _ _ _ => ?_⟩
    split
    · exact (goes_settleChallenge input challenge user none false).next s'
    · split
      · exact (goes_settleChallenge input challenge user _ true).next s'
      · exact (goes_settleChallenge input challenge user none false).next s'

/-- **Every call keeps its promises.** -/
theorem verify_sat (input : VerifyInput) :
    (consumption strict).Sat (semStrict strict) i (verifyTotpChallenge prim input) fun _ => True := by
  unfold verifyTotpChallenge
  split
  · exact (goes_refused _).2
  · refine sat_stmt rfl rfl fun s s' _ _ _ => ?_
    split
    · exact (goes_refused _).next s'
    · split
      · exact (goes_refused _).next s'
      · exact (goes_compareCode input _ _).next s'

theorem consumption_compatible (ok : Conf ι Stmt (Store ι) Outcome → ι → Prop) :
    (consumption strict).Compatible (semStrict strict) ok :=
  fun _ _ _ _ _ hinv _ _ hsem hg _ hj =>
    sem_undisturbed hinv (restrict_eq_some.mp hsem).2 hg.1 hg.2.1 hj

theorem consumption_good (inputs : ι → VerifyInput) (s : Store ι) :
    (consumption strict).Good (semStrict strict) (attempts prim inputs s) :=
  Spec.Good.init (fun _ _ _ h => nomatch h) fun i => verify_sat (inputs i)

omit [DecidableEq ι] in
theorem attempts_noSession (inputs : ι → VerifyInput) (s : Store ι) (i : ι) :
    NoSession ((attempts prim inputs s).calls i) := by
  intro ch code v
  simp only [attempts, verifyTotpChallenge]
  split <;> nofun

/-- **Single use.** A challenge opens one session at most in every run, a recovery code in those whose transactions find
the code they use unused. -/
theorem credentials_single_use (inputs : ι → VerifyInput) (s : Store ι) (c : Conf ι Stmt (Store ι) Outcome) :
    (Reach sem anyStep (attempts prim inputs s) c → ∀ ch i j code code' v v',
      c.calls i = .ret (.signedIn ch code v) → c.calls j = .ret (.signedIn ch code' v') → i = j) ∧
    (Reach sem (fun c i => codesUnused c i = true) (attempts prim inputs s) c → ∀ x i j ch ch' v v',
      c.calls i = .ret (.signedIn ch (some x) v) → c.calls j = .ret (.signedIn ch' (some x) v') → i = j) := by
  constructor
  · intro hr ch i j code code' v v' hi hj
    have hr' : Reach (semStrict false) anyStep (attempts prim inputs s) c := hr.restrict fun _ _ _ _ _ _ => rfl
    refine Spec.Good.single_use (fun ch s => hasChallenge s ch) (fun a ch => ∃ code v, a = .signedIn ch code v)
      (consumption_compatible anyStep) ?_ ?_ (consumption_good inputs s) ?_ hr' hi hj ⟨code, v, rfl⟩ ⟨code', v', rfl⟩
    · rintro i _ s ch hpost ⟨code, v, rfl⟩
      exact (hpost ch code v rfl).1
    · rintro i s w s' _ ch hg ⟨code, v, rfl⟩
      exact (hg.2.2 ch code v rfl).1
    · rintro i _ ch hi ⟨code, v, rfl⟩
      exact attempts_noSession inputs s i ch code v hi
  · intro hr x i j ch ch' v v' hi hj
    have hr' : Reach (semStrict true) (fun c i => codesUnused c i = true) (attempts prim inputs s) c :=
      hr.restrict fun c i w k hok hw => by simpa [codesUnused, hw] using hok
    refine Spec.Good.single_use (fun x s => hasUnusedCode s x) (fun a x => ∃ ch v, a = .signedIn ch (some x) v)
      (consumption_compatible _) ?_ ?_ (consumption_good inputs s) ?_ hr' hi hj ⟨ch, v, rfl⟩ ⟨ch', v', rfl⟩
    · rintro i _ s x hpost ⟨ch, v, rfl⟩
      exact (hpost ch (some x) v rfl).2 x rfl
    · rintro i s w s' _ x hg ⟨ch, v, rfl⟩
      exact (hg.2.2 ch (some x) v rfl).2 rfl x rfl
    · rintro i _ x hi ⟨ch, v, rfl⟩
      exact attempts_noSession inputs s i ch (some x) v hi

end Calls

end Spec

/-! ## Two sign-ins at once -/

/-- User 0 with a recovery code and two open challenges. -/
def twoChallenges : Store Bool where
  users := sampleAccount.users
  challenges := sampleAccount.challenges.insert
    (fun id => ⟨id, 0, "token2", none, 0, 1790000300000, 1790000000000⟩) fun _ => rfl
  recoveryCodes := sampleAccount.recoveryCodes
  sessions := .empty
  memberships := .empty
  loginAttempts := .empty
  locks := []
  compared := []

/-- The one recovery code sent for both challenges. -/
def sameCode : Bool → VerifyInput
  | false => ⟨"token", "aaaa-bbbb-cccc-dddd", 1790000000000, "session"⟩
  | true => ⟨"token2", "aaaa-bbbb-cccc-dddd", 1790000000000, "session2"⟩

/-- The recovery code a call that signed in used. -/
def usedCode : Call Bool → Option Nat
  | .ret (.signedIn _ code _) => code
  | _ => none

theorem signedIn_of_usedCode {p : Call Bool} {x : Nat} (h : usedCode p = some x) :
    ∃ ch v, p = .ret (.signedIn ch (some x) v) := by
  unfold usedCode at h
  split at h
  · subst h
    exact ⟨_, _, rfl⟩
  · cases h

/-- One after the other: the second finds the code used. -/
theorem credentials_single_use_sequential : ∃ c, (attempts samplePrim sameCode twoChallenges).run sem
      [false, false, false, false, false, false, false, true, true, true, true] = some c ∧
    usedCode (c.calls false) = some 0 ∧
    (∀ j ch code v, c.calls false = .ret (.signedIn ch code v) → ∀ code' v', c.calls j = .ret (.signedIn ch code' v') →
      false = j) ∧
    ∀ j ch v, c.calls j = .ret (.signedIn ch (some 0) v) → false = j := by
  have hrun : ((attempts samplePrim sameCode twoChallenges).run sem
      [false, false, false, false, false, false, false, true, true, true, true]).any (fun c =>
      usedCode (c.calls false) = some 0) = true := by decide +kernel
  obtain ⟨c, hc, hfirst⟩ := (Option.any_eq_true _ _).mp hrun
  have hunused : Reach sem (fun c i => codesUnused c i = true) (attempts samplePrim sameCode twoChallenges) c :=
    Reach.of_allSteps (fun c i h => h) (by decide +kernel) hc
  obtain ⟨ch, v, hfalse⟩ := signedIn_of_usedCode (of_decide_eq_true hfirst)
  refine ⟨c, hc, of_decide_eq_true hfirst, fun j ch code v hi code' v' hj => ?_, fun j ch' v' hj => ?_⟩
  · exact (credentials_single_use sameCode twoChallenges c).1 (.of_run hc) ch false j code code' v v' hi hj
  · exact (credentials_single_use sameCode twoChallenges c).2 hunused 0 false j ch ch' v v' hfalse hj

/-- **One recovery code opens two sessions**: both calls find it unused before either transaction starts. -/
theorem code_used_twice : ∃ c, Reach sem anyStep (attempts samplePrim sameCode twoChallenges) c ∧
    ∃ x ch ch' v v', c.calls false = .ret (.signedIn ch (some x) v) ∧ c.calls true = .ret (.signedIn ch' (some x) v') ∧
      c.store.sessions.rows.length = 2 := by
  have hrun : ((attempts samplePrim sameCode twoChallenges).run sem
      [false, false, true, true, false, false, false, false, false, true, true, true, true, true]).any (fun c =>
      usedCode (c.calls false) = some 0 ∧ usedCode (c.calls true) = some 0 ∧ c.store.sessions.rows.length = 2) = true := by
    decide +kernel
  obtain ⟨c, hc, hused⟩ := (Option.any_eq_true _ _).mp hrun
  obtain ⟨hfirst, hsecond, hsessions⟩ := of_decide_eq_true hused
  obtain ⟨ch, v, hfalse⟩ := signedIn_of_usedCode hfirst
  obtain ⟨ch', v', htrue⟩ := signedIn_of_usedCode hsecond
  exact ⟨c, .of_run hc, 0, ch, ch', v, v', hfalse, htrue, hsessions⟩

end IkelyaneMonitor.Auth
