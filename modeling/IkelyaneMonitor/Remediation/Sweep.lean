import IkelyaneMonitor.Remediation.Law

/-!
# The sweeper and the pickup window

An execution that becomes pending should wait an hour for its agent before the sweeper cancels it; the sweeper measures the
hour from its creation.

* `Queued c i c₁ e` : the step of call `i` makes `e` pending; `Window` : no sweep that follows cancels it within the hour;
* `pickup_window` : that holds when the execution became pending as it was created, or within a millisecond, and not
  otherwise: an approval that takes longer shortens the window (`approved_run_swept`).
-/

namespace IkelyaneMonitor.Remediation
open Interleave

section Sweep
variable (sha256 : String → String)

/-- The step of call `i` makes `e` pending. -/
structure Queued (c : System) (i : Nat) (c₁ : System) (e : RemediationExecution) : Prop where
  step : c.step (sem sha256) i = some c₁
  mem : e ∈ c₁.store.executions
  pending : e.status = .pending
  became : ∀ e₀ ∈ c.store.executions, e₀.id = e.id → e₀.status ≠ .pending

/-- From `c₁` on, no sweep cancels execution `id` while it is pending less than an hour after `since`. -/
def Window (id : Nat) (since : Int) (c₁ : System) : Prop := ∀ c₂ j t c₃, Follows sha256 c₁ c₂ →
  (c₂.calls j).next? = some (.expirePending t) → c₂.step (sem sha256) j = some c₃ →
    ∀ e₂ ∈ c₂.store.executions, ∀ e₃ ∈ c₃.store.executions, e₂.id = id → e₃.id = id → e₂.status = .pending →
      e₃.status = .cancelled → since + pendingTtlMs ≤ c₂.store.clock

variable {sha256}

/-- What the sweeper cancels was created before its cutoff. -/
theorem createdAt_of_expirePending {i : Nat} {t : Int} {s s' : Store} (h : sem sha256 i (.expirePending t) s = some s')
    {e e' : RemediationExecution} (he : e ∈ s.executions) (he' : e' ∈ s'.executions) (hid : e'.id = e.id)
    (hp : e.status = .pending) (hc : e'.status = .cancelled) : e.createdAt < t - pendingTtlMs := by
  cases h
  obtain ⟨e₀, he₀, rfl⟩ := List.mem_map.mp he'
  have heq : e₀ = e := by
    refine Table.eq_of_key he₀ he (Eq.trans ?_ hid)
    split <;> rfl
  subst heq
  split at hc
  · rename_i hcut
    simpa [hp] using hcut
  · rw [hp] at hc
    cases hc

theorem clock_of_ne_tick {i : Nat} {w : Stmt} {s s' : Store} (h : sem sha256 i w s = some s') (hw : ∀ ms, w ≠ .tick ms) :
    s'.clock = s.clock := by
  cases w <;> simp only [sem] at h
  case tick ms => exact absurd rfl (hw ms)
  case advisoryLock => split at h <;> cases h; rfl
  case deleteAction => split at h <;> cases h <;> rfl
  all_goals
    cases h
    rfl

/-- Becoming pending takes no time. -/
theorem Queued.clock {c c₁ : System} {i : Nat} {e : RemediationExecution} (h : Queued sha256 c i c₁ e) :
    c₁.store.clock = c.store.clock := by
  obtain ⟨hs, hmem, hp, hbecame⟩ := h
  obtain ⟨w, k, s', _, hsem, rfl⟩ := (Conf.step_eq_some _).mp hs
  refine clock_of_ne_tick hsem fun ms hw => ?_
  rw [hw] at hsem
  cases hsem
  exact hbecame e hmem rfl hp

section Runs
variable {hashtext : String → Int} {ops : Nat → Op} {clock : Int} {actions : Table RemediationAction}
  {hosts : Table MonitoredHost}

theorem window_of_le {c c₁ : System} {i : Nat} {e : RemediationExecution}
    (h : Follows sha256 (start sha256 hashtext ops clock actions hosts) c) (hq : Queued sha256 c i c₁ e)
    (hle : c.store.clock ≤ e.createdAt + 1) : Window sha256 e.id c.store.clock c₁ := by
  intro c₂ j t c₃ hr hnext hs e₂ he₂ e₃ he₃ hid hid' hp hc
  have hr' : Follows sha256 (start sha256 hashtext ops clock actions hosts) c₂ :=
    (Reach.step h trivial hq.step).trans hr
  obtain ⟨_, w, k, hw, hsem, -, -, -, hnow, -⟩ := (good_of_reach hr').guar hs
  rw [hw] at hnext
  cases hnext
  have hcut := createdAt_of_expirePending hsem he₂ he₃ (hid'.trans hid.symm) hp hc
  have hcreated := (hr.moves hq.mem he₂ hid).createdAt
  have := hnow t rfl
  omega

/-- The sweeper at the last millisecond of the hour cancels what was approved late. -/
theorem le_of_window {c c₁ : System} {i : Nat} {e : RemediationExecution} (hq : Queued sha256 c i c₁ e) {m n : Nat}
    (hm : c₁.calls m = Op.sweepExecutions.call sha256 hashtext)
    (hn : c₁.calls n = (Op.tick 3599999).call sha256 hashtext) (hwin : Window sha256 e.id c.store.clock c₁) :
    c.store.clock ≤ e.createdAt + 1 := by
  by_contra hlate
  have hne : m ≠ n := by
    rintro rfl
    rw [hm] at hn
    cases hn
  have hclock := hq.clock
  have hmem := hq.mem
  have hp := hq.pending
  obtain ⟨s, calls⟩ := c₁
  -- an hour less a millisecond passes, the sweeper takes the time and expires what is pending
  let s₂ : Store := { s with clock := s.clock + 3599999 }
  let c₁' : System := ⟨s₂, Function.update calls n (.ret .done)⟩
  let c₂ : System := ⟨s₂, Function.update c₁'.calls m (sweepExecutions s₂.clock)⟩
  have h₁ : Conf.step (sem sha256) ⟨s, calls⟩ n = some c₁' :=
    (Conf.step_eq_some _).mpr ⟨_, _, _, hn, rfl, rfl⟩
  have hm' : c₁'.calls m = Op.sweepExecutions.call sha256 hashtext := (Function.update_of_ne hne _ _).trans hm
  have h₂ : Conf.step (sem sha256) c₁' m = some c₂ := (Conf.step_eq_some _).mpr ⟨_, _, _, hm', rfl, rfl⟩
  have hsweep : c₂.calls m = sweepExecutions s₂.clock := Function.update_self _ _ _
  obtain ⟨s₃, h₃⟩ : ∃ s₃, sem sha256 m (.expirePending s₂.clock) s₂ = some s₃ := ⟨_, rfl⟩
  have hcancelled : e.cancel .expired s₂.clock ∈ s₃.executions := by
    cases h₃
    refine List.mem_map.mpr ⟨e, hmem, if_pos ?_⟩
    have hcut : e.createdAt < s₂.clock - pendingTtlMs := by
      simp only [s₂, pendingTtlMs]
      simp only at hclock
      omega
    simp only [hp, beq_self_eq_true, Bool.true_and, decide_eq_true_eq]
    exact hcut
  have hwait := hwin c₂ m s₂.clock ⟨s₃, _⟩ ((Reach.single trivial h₁).trans (Reach.single trivial h₂))
    (by rw [hsweep]; rfl) ((Conf.step_eq_some _).mpr ⟨_, _, _, hsweep, h₃, rfl⟩) e hmem _ hcancelled rfl rfl hp rfl
  simp only [c₂, s₂, pendingTtlMs] at hwait
  simp only at hclock
  omega

/-- **The pickup window.** An execution that becomes pending keeps its hour whatever follows if it was created at most a
millisecond before; and, where the sweeper and the clock are yet to move, only then. -/
theorem pickup_window {c c₁ : System} {i : Nat} {e : RemediationExecution}
    (h : Follows sha256 (start sha256 hashtext ops clock actions hosts) c) (hq : Queued sha256 c i c₁ e) :
    (c.store.clock ≤ e.createdAt + 1 → Window sha256 e.id c.store.clock c₁) ∧
    ∀ m n, c₁.calls m = Op.sweepExecutions.call sha256 hashtext → c₁.calls n = (Op.tick 3599999).call sha256 hashtext →
      Window sha256 e.id c.store.clock c₁ → c.store.clock ≤ e.createdAt + 1 :=
  ⟨window_of_le h hq, fun _ _ hm hn hwin => le_of_window hq hm hn hwin⟩

end Runs

end Sweep

/-- A run suggested by an alert, approved after `ms` milliseconds; the sweeper an hour later, less a millisecond. -/
def approvedAfter (ms : Nat) : List Op :=
  [.triggerForIncident 1 (some 0) false 5 (some 0) 0, .tick ms, .approveExecution ⟨7, 1, .operator⟩ 0, .tick 3599999,
    .sweepExecutions]

/-- The approval is the next statement of call 2. -/
def approvedAfterRun : List Nat := [0, 0, 0, 0, 0, 0, 0, 1, 2, 2]

theorem queued_of_rows {sha256 : String → String} {c c₁ : System} {i : Nat} (hs : c.step (sem sha256) i = some c₁)
    (hrows : (c.store.executions.rows.all fun e => e.status != .pending) = true) {e : RemediationExecution}
    (he : e ∈ c₁.store.executions) (hp : e.status = .pending) : Queued sha256 c i c₁ e :=
  ⟨hs, he, hp, fun e₀ he₀ _ => by simpa using List.all_eq_true.mp hrows e₀ he₀⟩

/-- Approved at once. -/
theorem pickup_window_at_once : ∃ c c₁ e, (sample (approvedAfter 0)).run (sem fun body => body) approvedAfterRun = some c ∧
    Queued (fun body => body) c 2 c₁ e ∧ Window (fun body => body) e.id c.store.clock c₁ := by
  have hrun : ((sample (approvedAfter 0)).run (sem fun body => body) approvedAfterRun).any (fun c =>
      (c.store.executions.rows.all fun e => e.status != .pending) && (c.step (sem fun body => body) 2).any fun c₁ =>
        c₁.store.executions.rows.any fun e => e.status == .pending && c.store.clock == e.createdAt) = true := by decide
  obtain ⟨c, hc, hp⟩ := (Option.any_eq_true _ _).mp hrun
  obtain ⟨hrows, hp⟩ := Bool.and_eq_true_iff.mp hp
  obtain ⟨c₁, hs, hp⟩ := (Option.any_eq_true _ _).mp hp
  obtain ⟨e, he, hp⟩ := List.any_eq_true.mp hp
  simp only [Bool.and_eq_true, beq_iff_eq] at hp
  have hq := queued_of_rows hs hrows he hp.1
  exact ⟨c, c₁, e, hc, hq, (pickup_window (Reach.of_run hc) hq).1 (by omega)⟩

/-- **An approved run swept.** Approved two hours after it was suggested, it is cancelled within the hour. -/
theorem approved_run_swept : ∃ c c₁ e, Follows (fun body => body) (sample (approvedAfter 7200000)) c ∧
    Queued (fun body => body) c 2 c₁ e ∧ ¬ Window (fun body => body) e.id c.store.clock c₁ := by
  have hrun : ((sample (approvedAfter 7200000)).run (sem fun body => body) approvedAfterRun).any (fun c =>
      (c.store.executions.rows.all fun e => e.status != .pending) && (c.step (sem fun body => body) 2).any fun c₁ =>
        c₁.store.executions.rows.any fun e => e.status == .pending && c.store.clock == 7200000 && e.createdAt == 0) =
      true := by decide
  obtain ⟨c, hc, hp⟩ := (Option.any_eq_true _ _).mp hrun
  obtain ⟨hrows, hp⟩ := Bool.and_eq_true_iff.mp hp
  obtain ⟨c₁, hs, hp⟩ := (Option.any_eq_true _ _).mp hp
  obtain ⟨e, he, hp⟩ := List.any_eq_true.mp hp
  simp only [Bool.and_eq_true, beq_iff_eq] at hp
  have hq := queued_of_rows hs hrows he hp.1.1
  have hrun₁ : (sample (approvedAfter 7200000)).run (sem fun body => body) (approvedAfterRun ++ [2]) = some c₁ := by
    rw [Conf.run_append, hc, Option.bind_some, Conf.run, hs, Option.bind_some, Conf.run]
  refine ⟨c, c₁, e, Reach.of_run hc, hq, fun hwin => ?_⟩
  have hsweep : c₁.calls 4 = Op.sweepExecutions.call (fun body => body) fun _ => 0 := Conf.run_calls hrun₁ (by decide)
  have htick : c₁.calls 3 = (Op.tick 3599999).call (fun body => body) fun _ => 0 := Conf.run_calls hrun₁ (by decide)
  have := le_of_window hq hsweep htick hwin
  omega

end IkelyaneMonitor.Remediation
