import Mathlib.Logic.Relation
import IkelyaneMonitor.Remediation.Executions

/-!
# The lifecycle of one execution

The diagram at the head of `executions.ts` as a relation on rows, and the statements as moves along it:

* `Move e e'` : one arrow of the diagram; `Moves` : any number of them;
* `Moves.snapshot`, `Moves.origin` : what an execution runs and where never changes; `Moves.eq_of_final` : a finished one
  does not change at all; `Moves.not_waiting` : a started one never waits again;
* `Lived sha256 e` : `e` was created by `createExecution` and moved since; `Lived.finishedAt`, `Lived.sha256_eq` : what holds
  of every such row;
* `sem_evolves` : every statement moves the rows of the table along the diagram and adds only rows just created.
-/

namespace IkelyaneMonitor.Remediation
open Interleave Relation

/-- One arrow of the lifecycle diagram. -/
inductive Move : RemediationExecution → RemediationExecution → Prop
  | approve {e : RemediationExecution} (violation : Option StatusReason) (approvedBy : Nat) (now : Int)
      (h : e.status = .awaitingApproval) : Move e (e.approve violation approvedBy now)
  | cancel {e : RemediationExecution} (reason : StatusReason) (now : Int)
      (h : e.status = .awaitingApproval ∨ e.status = .pending) : Move e (e.cancel reason now)
  | claim {e : RemediationExecution} (now : Int) (h : e.status = .pending) : Move e (e.claim now)
  | storeResult {e : RemediationExecution} (input : ExecutionResultInput) (now : Int) (h : e.status = .running) :
      Move e (e.storeResult input now)
  | timeOut {e : RemediationExecution} (t : Int) (h : e.status = .running) : Move e (e.timeOut t)

abbrev Moves : RemediationExecution → RemediationExecution → Prop := ReflTransGen Move

/-- What is frozen for the agent to run. -/
structure Snapshot where
  runtime : ScriptRuntime
  scriptBody : String
  scriptSha256 : String
  args : JsonValue
  timeoutSec : Nat

def RemediationExecution.snapshot (e : RemediationExecution) : Snapshot :=
  ⟨e.runtime, e.scriptBody, e.scriptSha256, e.args, e.timeoutSec⟩

/-- For whom, where and when an execution was created. -/
structure Origin where
  id : Nat
  orgId : Nat
  actionId : Nat
  incidentId : Option Nat
  hostId : Option Nat
  createdAt : Int

def RemediationExecution.origin (e : RemediationExecution) : Origin :=
  ⟨e.id, e.orgId, e.actionId, e.incidentId, e.hostId, e.createdAt⟩

/-- What an agent reported of a run. -/
structure Report where
  exitCode : Option Int
  durationMs : Option Int
  stdout : Option String
  stderr : Option String

def RemediationExecution.report (e : RemediationExecution) : Report := ⟨e.exitCode, e.durationMs, e.stdout, e.stderr⟩

/-! ## What a move keeps -/

theorem Move.status_not_final {e e' : RemediationExecution} (h : Move e e') : e.status.final = false := by
  cases h with
  | approve _ _ _ h => rw [h]; rfl
  | cancel _ _ h => rcases h with h | h <;> rw [h] <;> rfl
  | claim _ h => rw [h]; rfl
  | storeResult _ _ h => rw [h]; rfl
  | timeOut _ h => rw [h]; rfl

theorem Moves.snapshot {e e' : RemediationExecution} (h : Moves e e') : e'.snapshot = e.snapshot := by
  induction h with
  | refl => rfl
  | tail _ hm ih =>
      rw [← ih]
      cases hm <;> rfl

theorem Moves.origin {e e' : RemediationExecution} (h : Moves e e') : e'.origin = e.origin := by
  induction h with
  | refl => rfl
  | tail _ hm ih =>
      rw [← ih]
      cases hm <;> rfl

theorem Moves.id_eq {e e' : RemediationExecution} (h : Moves e e') : e'.id = e.id :=
  congrArg Origin.id h.origin

theorem Moves.hostId {e e' : RemediationExecution} (h : Moves e e') : e'.hostId = e.hostId :=
  congrArg Origin.hostId h.origin

theorem Moves.orgId {e e' : RemediationExecution} (h : Moves e e') : e'.orgId = e.orgId :=
  congrArg Origin.orgId h.origin

theorem Moves.actionId {e e' : RemediationExecution} (h : Moves e e') : e'.actionId = e.actionId :=
  congrArg Origin.actionId h.origin

theorem Moves.createdAt {e e' : RemediationExecution} (h : Moves e e') : e'.createdAt = e.createdAt :=
  congrArg Origin.createdAt h.origin

theorem Moves.delivered {e e' : RemediationExecution} (h : Moves e e') : e'.delivered = e.delivered := by
  have hs := h.snapshot
  have ho := h.origin
  simp only [RemediationExecution.snapshot, Snapshot.mk.injEq] at hs
  simp only [RemediationExecution.origin, Origin.mk.injEq] at ho
  simp only [RemediationExecution.delivered, hs, ho]

theorem Moves.eq_of_final {e e' : RemediationExecution} (h : Moves e e') (hf : e.status.final = true) : e' = e := by
  induction h using ReflTransGen.head_induction_on with
  | refl => rfl
  | head hm _ _ =>
      rw [hm.status_not_final] at hf
      cases hf

/-- Waiting for an approval or for an agent. -/
def ExecutionStatus.waiting : ExecutionStatus → Bool
  | .awaitingApproval | .pending => true
  | _ => false

theorem Moves.not_waiting {e e' : RemediationExecution} (h : Moves e e') (hw : e.status.waiting = false) :
    e'.status.waiting = false := by
  induction h with
  | refl => exact hw
  | tail _ hm ih =>
      cases hm with
      | approve _ _ _ h => rw [h] at ih; cases ih
      | cancel => rfl
      | claim _ h => rw [h] at ih; cases ih
      | storeResult input =>
          rw [RemediationExecution.storeResult]
          cases input.status <;> rfl
      | timeOut => rfl

/-- Nothing that the guard-rails count comes from a skipped or cancelled execution. -/
theorem Moves.counted {e e' : RemediationExecution} (h : Moves e e') (hc : e'.status.counted = true) :
    e.status.counted = true := by
  by_cases hf : e.status.final = true
  · rwa [h.eq_of_final hf] at hc
  · cases hs : e.status <;> simp_all [ExecutionStatus.counted, ExecutionStatus.final]

theorem Moves.live {e e' : RemediationExecution} (h : Moves e e') (hl : e'.status.live = true) :
    e.status.live = true := by
  by_cases hf : e.status.final = true
  · rwa [h.eq_of_final hf] at hl
  · rw [ExecutionStatus.live_eq_not_final]
    simpa using hf

/-! ## Rows of the table -/

section Rows
variable (sha256 : String → String)

/-- Created by `createExecution`, and moved since. -/
def Lived (e : RemediationExecution) : Prop := ∃ (d : NewExecution) (createdAt : Int) (id : Nat),
  Moves (d.row sha256 createdAt id) e

variable {sha256}

theorem Lived.moves {e e' : RemediationExecution} (h : Lived sha256 e) (hm : Moves e e') : Lived sha256 e' := by
  obtain ⟨d, t, id, hd⟩ := h
  exact ⟨d, t, id, hd.trans hm⟩

theorem Lived.sha256_eq {e : RemediationExecution} (h : Lived sha256 e) : e.scriptSha256 = sha256 e.scriptBody := by
  obtain ⟨d, t, id, hd⟩ := h
  have hs := hd.snapshot
  simp only [RemediationExecution.snapshot, Snapshot.mk.injEq] at hs
  rw [hs.2.1, hs.2.2.1]
  rfl

theorem Lived.args {e : RemediationExecution} (h : Lived sha256 e) : e.args = argsJson e.delivered.args := by
  obtain ⟨d, t, id, hd⟩ := h
  have hs := hd.snapshot
  simp only [RemediationExecution.snapshot, Snapshot.mk.injEq] at hs
  rw [hd.delivered, hs.2.2.2.1]
  exact congrArg argsJson (readArgs_argsJson _).symm

theorem ResultStatus.final (status : ResultStatus) : status.execution.final = true := by cases status <;> rfl

/-- `finishedAt` is set exactly when the execution has ended, and `startedAt` exactly when it was taken. -/
theorem Lived.finishedAt {e : RemediationExecution} (h : Lived sha256 e) :
    e.finishedAt.isSome = e.status.final := by
  obtain ⟨d, t, id, hd⟩ := h
  induction hd with
  | refl =>
      simp only [NewExecution.row, NewExecution.status]
      cases d.violation <;> cases d.input.needsApproval <;> rfl
  | tail _ hm ih =>
      cases hm with
      | approve violation _ _ h =>
          rw [h] at ih
          cases violation
          · exact ih
          · rfl
      | cancel => rfl
      | claim _ h => rw [h] at ih; exact ih
      | storeResult input => exact (input.status.final).symm
      | timeOut => rfl

theorem Lived.startedAt {e : RemediationExecution} (h : Lived sha256 e) (hr : e.status = .running) :
    e.startedAt.isSome = true := by
  obtain ⟨d, t, id, hd⟩ := h
  cases hd with
  | refl =>
      simp only [NewExecution.row, NewExecution.status] at hr
      split at hr
      · cases hr
      · split at hr <;> cases hr
  | tail _ hm =>
      cases hm with
      | approve violation _ _ h => cases violation <;> cases hr
      | cancel => cases hr
      | claim => rfl
      | storeResult input =>
          rw [RemediationExecution.storeResult] at hr
          cases hi : input.status <;> rw [hi] at hr <;> cases hr
      | timeOut => cases hr

/-- An execution that was taken is not waiting and is not cancelled. -/
theorem Lived.counted {e : RemediationExecution} (h : Lived sha256 e) (hs : e.startedAt.isSome = true)
    (hskip : e.status ≠ .skipped) : e.status.counted = true := by
  obtain ⟨d, t, id, hd⟩ := h
  have hkeep : e.status.waiting = false ∧ e.status ≠ .cancelled := by
    clear hskip
    induction hd with
    | refl => cases hs
    | tail _ hm ih =>
        cases hm with
        | approve _ _ _ h =>
            have := (ih hs).1
            rw [h] at this
            cases this
        | cancel _ _ h =>
            have := (ih hs).1
            rcases h with h | h <;> rw [h] at this <;> cases this
        | claim => exact ⟨rfl, nofun⟩
        | storeResult input =>
            rw [RemediationExecution.storeResult]
            cases input.status <;> exact ⟨rfl, nofun⟩
        | timeOut => exact ⟨rfl, nofun⟩
  simp only [ExecutionStatus.counted, Bool.and_eq_true, bne_iff_ne]
  exact ⟨hskip, hkeep.2⟩

/-- Just created, by statement `w` on the store `s`. -/
def Born (sha256 : String → String) (w : Stmt) (s : Store) (e : RemediationExecution) : Prop :=
  ∃ d : NewExecution, w = .createExecution d ∧ e = d.row sha256 s.clock s.executions.next

theorem evolves_updateMany {N : RemediationExecution → Prop} (t : Table RemediationExecution)
    {p : RemediationExecution → Bool} {f : RemediationExecution → RemediationExecution} (hf : ∀ e, key (f e) = key e)
    (h : ∀ e, p e = true → Move e (f e)) : t.Evolves Moves N (t.updateMany p f hf) :=
  .updateMany (fun _ => .refl) t hf fun e _ hp => .single (h e hp)

/-- **Every statement moves the executions along the diagram.** -/
theorem sem_evolves {i : Nat} {w : Stmt} {s s' : Store} (h : sem sha256 i w s = some s') :
    s.executions.Evolves Moves (Born sha256 w s) s'.executions := by
  have hrefl : ∀ e, Moves e e := fun _ => .refl
  cases w with
  | createExecution d =>
      cases h
      by_cases ha : (s.actions.get? d.action.id).isSome = true
      · simp only [ha, if_true]
        exact .insert hrefl _ (fun _ => rfl) ⟨d, rfl, rfl⟩
      · simp only [ha]
        exact .refl hrefl _ _
  | approve id violation approvedBy now =>
      cases h
      exact evolves_updateMany _ (by intro e; rfl) fun e hp => .approve _ _ _ (by simpa using (Bool.and_eq_true_iff.mp hp).2)
  | cancel id orgId now =>
      cases h
      exact evolves_updateMany _ (by intro e; rfl) fun e hp => .cancel _ _ (by simpa using (Bool.and_eq_true_iff.mp hp).2)
  | claim id now =>
      cases h
      exact evolves_updateMany _ (by intro e; rfl) fun e hp => .claim _ (by simpa using (Bool.and_eq_true_iff.mp hp).2)
  | storeResult orgId hostId input now =>
      cases h
      exact evolves_updateMany _ (by intro e; rfl) fun e hp =>
        .storeResult _ _ (by simpa using (Bool.and_eq_true_iff.mp hp).2)
  | expirePending t =>
      cases h
      exact evolves_updateMany _ (by intro e; rfl) fun e hp =>
        .cancel _ _ (.inr (by simpa using (Bool.and_eq_true_iff.mp hp).1))
  | expireApproval t =>
      cases h
      exact evolves_updateMany _ (by intro e; rfl) fun e hp =>
        .cancel _ _ (.inl (by simpa using (Bool.and_eq_true_iff.mp hp).1))
  | timeOutLost t =>
      cases h
      exact evolves_updateMany _ (by intro e; rfl) fun e hp =>
        .timeOut _ (by simpa using (Bool.and_eq_true_iff.mp hp).1)
  | deleteAction id orgId =>
      simp only [sem] at h
      split at h <;> cases h
      · exact .deleteMany hrefl _ _
      · exact .refl hrefl _ _
  | advisoryLock key =>
      simp only [sem] at h
      split at h <;> cases h
      exact .refl hrefl _ _
  | _ =>
      cases h
      exact .refl hrefl _ _

theorem sem_lived {i : Nat} {w : Stmt} {s s' : Store} (h : sem sha256 i w s = some s') :
    s.executions.Evolves Moves (Lived sha256) s'.executions :=
  (sem_evolves h).mono (fun _ _ hm => hm) fun e he => by
    obtain ⟨d, -, rfl⟩ := he
    exact ⟨d, _, _, .refl⟩

theorem sem_clock {i : Nat} {w : Stmt} {s s' : Store} (h : sem sha256 i w s = some s') : s.clock ≤ s'.clock := by
  cases w <;> simp only [sem] at h
  case advisoryLock => split at h <;> cases h; exact Int.le_refl _
  case deleteAction => split at h <;> cases h <;> exact Int.le_refl _
  case tick ms =>
    cases h
    exact Int.le_add_of_nonneg_right (Int.natCast_nonneg ms)
  all_goals
    cases h
    exact Int.le_refl _

end Rows

/-! ## Runs -/

section Runs
variable {sha256 : String → String}

theorem Reach.evolves {ok : System → Nat → Prop} {c c' : System} (h : Reach (sem sha256) ok c c') :
    c.store.executions.Evolves Moves (Lived sha256) c'.store.executions :=
  h.store_rel (R := fun s s' => s.executions.Evolves Moves (Lived sha256) s'.executions)
    (fun _ => .refl (fun _ => .refl) _ _) (fun _ _ _ h₁ h₂ => h₁.trans (fun _ _ _ => .trans) (fun _ _ hl hm =>
      hl.moves hm) h₂)
    fun _ _ _ _ hs => sem_lived hs

end Runs

end IkelyaneMonitor.Remediation
