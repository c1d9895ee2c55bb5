import IkelyaneMonitor.Remediation.Promises

/-!
# What one statement does to a row

* `Changed w e e'` : the statement `w` makes `e'` of the row `e`, with all it checked of `e`;
* `row_of_sem` : a row after a statement was there before, was just created, or was changed;
* `Lived.not_waiting` : a row with a start is not waiting for one.
-/

namespace IkelyaneMonitor.Remediation
open Interleave

inductive Changed : Stmt → RemediationExecution → RemediationExecution → Prop
  | approve {e : RemediationExecution} (violation : Option StatusReason) (approvedBy : Nat) (now : Int)
      (h : e.status = .awaitingApproval) :
      Changed (.approve e.id violation approvedBy now) e (e.approve violation approvedBy now)
  | cancel {e : RemediationExecution} {w : Stmt} (reason : StatusReason) (now : Int)
      (h : e.status = .awaitingApproval ∨ e.status = .pending) : Changed w e (e.cancel reason now)
  | claim {e : RemediationExecution} (now : Int) (h : e.status = .pending) : Changed (.claim e.id now) e (e.claim now)
  | storeResult {e : RemediationExecution} {hostId : Nat} {input : ExecutionResultInput} (now : Int)
      (hid : e.id = input.executionId) (hhost : e.hostId = some hostId) (h : e.status = .running) :
      Changed (.storeResult e.orgId hostId input now) e (e.storeResult input now)
  | timeOut {e : RemediationExecution} (t : Int) (h : e.status = .running) (hlost : e.lost t = true) :
      Changed (.timeOutLost t) e (e.timeOut t)

section Rows
variable {sha256 : String → String} {i : Nat} {w : Stmt} {s s' : Store} {e' : RemediationExecution}

/-- A row of an updated table was there before, or is what the update makes of one. -/
theorem eq_or_updated {t : Table RemediationExecution} {p : RemediationExecution → Bool}
    {f : RemediationExecution → RemediationExecution} (hf : ∀ e, key (f e) = key e) (h : e' ∈ t.updateMany p f hf) :
    e' ∈ t ∨ ∃ e ∈ t, p e = true ∧ e' = f e := by
  obtain ⟨e, he, rfl⟩ := Table.mem_updateMany.mp h
  split
  · rename_i hp
    exact .inr ⟨e, he, hp, rfl⟩
  · exact .inl he

theorem row_of_sem (h : sem sha256 i w s = some s') (he' : e' ∈ s'.executions) :
    e' ∈ s.executions ∨ (∃ d, w = .createExecution d ∧ e' = d.row sha256 s.clock s.executions.next) ∨
      ∃ e ∈ s.executions, Changed w e e' := by
  cases w with
  | createExecution d =>
      cases h
      by_cases ha : (s.actions.get? d.action.id).isSome = true
      · simp only [ha, if_true] at he'
        rcases Table.mem_insert.mp he' with he' | rfl
        · exact .inl he'
        · exact .inr (.inl ⟨d, rfl, rfl⟩)
      · simp only [ha] at he'
        exact .inl he'
  | approve id violation approvedBy now =>
      cases h
      rcases eq_or_updated (by exact fun _ => rfl) he' with he' | ⟨e, he, hp, rfl⟩
      · exact .inl he'
      · simp only [Bool.and_eq_true, beq_iff_eq] at hp
        obtain ⟨rfl, hstatus⟩ := hp
        exact .inr (.inr ⟨e, he, .approve violation approvedBy now hstatus⟩)
  | cancel id orgId now =>
      cases h
      rcases eq_or_updated (by exact fun _ => rfl) he' with he' | ⟨e, he, hp, rfl⟩
      · exact .inl he'
      · simp only [Bool.and_eq_true, Bool.or_eq_true, beq_iff_eq] at hp
        exact .inr (.inr ⟨e, he, .cancel .cancelled now hp.2⟩)
  | claim id now =>
      cases h
      rcases eq_or_updated (by exact fun _ => rfl) he' with he' | ⟨e, he, hp, rfl⟩
      · exact .inl he'
      · simp only [Bool.and_eq_true, beq_iff_eq] at hp
        obtain ⟨rfl, hstatus⟩ := hp
        exact .inr (.inr ⟨e, he, .claim now hstatus⟩)
  | storeResult orgId hostId input now =>
      cases h
      rcases eq_or_updated (by exact fun _ => rfl) he' with he' | ⟨e, he, hp, rfl⟩
      · exact .inl he'
      · simp only [Bool.and_eq_true, beq_iff_eq] at hp
        obtain ⟨⟨⟨hid, rfl⟩, hhost⟩, hstatus⟩ := hp
        exact .inr (.inr ⟨e, he, .storeResult now hid hhost hstatus⟩)
  | expirePending t =>
      cases h
      rcases eq_or_updated (by exact fun _ => rfl) he' with he' | ⟨e, he, hp, rfl⟩
      · exact .inl he'
      · simp only [Bool.and_eq_true, beq_iff_eq] at hp
        exact .inr (.inr ⟨e, he, .cancel .expired t (.inr hp.1)⟩)
  | expireApproval t =>
      cases h
      rcases eq_or_updated (by exact fun _ => rfl) he' with he' | ⟨e, he, hp, rfl⟩
      · exact .inl he'
      · simp only [Bool.and_eq_true, beq_iff_eq] at hp
        exact .inr (.inr ⟨e, he, .cancel .expired t (.inl hp.1)⟩)
  | timeOutLost t =>
      cases h
      rcases eq_or_updated (by exact fun _ => rfl) he' with he' | ⟨e, he, hp, rfl⟩
      · exact .inl he'
      · simp only [Bool.and_eq_true, beq_iff_eq] at hp
        exact .inr (.inr ⟨e, he, .timeOut t hp.1 hp.2⟩)
  | deleteAction id orgId =>
      simp only [sem] at h
      split at h <;> cases h
      · exact .inl (Table.mem_deleteMany.mp he').1
      · exact .inl he'
  | advisoryLock key =>
      simp only [sem] at h
      split at h <;> cases h
      exact .inl he'
  | _ =>
      cases h
      exact .inl he'

end Rows

/-! ## Starts -/

theorem Moves.startedAt {e e' : RemediationExecution} (h : Moves e e') (hs : e.startedAt.isSome = true) :
    e'.startedAt.isSome = true := by
  induction h with
  | refl => exact hs
  | tail _ hm ih =>
      cases hm with
      | claim => rfl
      | _ => exact ih

theorem Lived.not_waiting {sha256 : String → String} {e : RemediationExecution} (h : Lived sha256 e)
    (hs : e.startedAt.isSome = true) : e.status.waiting = false := by
  obtain ⟨d, t, id, hd⟩ := h
  induction hd with
  | refl => cases hs
  | tail _ hm ih =>
      cases hm with
      | approve _ _ _ h =>
          have hw := ih hs
          rw [h] at hw
          cases hw
      | cancel => rfl
      | claim => rfl
      | storeResult input =>
          rw [RemediationExecution.storeResult]
          cases input.status <;> rfl
      | timeOut => rfl

end IkelyaneMonitor.Remediation
