import IkelyaneMonitor.Remediation.Law

/-!
# The guard-rails over whole runs

* `guardrails_of_reach` : at most one live execution of an action on a host, and what every creation found: the earlier
  executions ended, a cooldown away, and below the hourly limit;
* `Apart` : the same as a law between the executions of a table, for limits that stay what they are; `apart_of_reach`;
* `creations_apart` : so the executions that started were created a cooldown apart and within the hourly limit. Their
  starts need not be (`starts_not_apart`): the guard-rails measure creations, and pickup may wait.
-/

namespace IkelyaneMonitor.Remediation
open Interleave

section Creation
variable {sha256 : String → String} {hashtext : String → Int} {ops : Nat → Op}

/-- A row of a key that was not in the table was just created. -/
theorem born_of_new {i : Nat} {w : Stmt} {s s' : Store} (h : sem sha256 i w s = some s') {e : RemediationExecution}
    (he : e ∈ s'.executions) (hnew : ∀ e₀ ∈ s.executions, e₀.id ≠ e.id) : Born sha256 w s e := by
  refine (sem_evolves h).new e he (Nat.not_lt.mp fun hlt => ?_)
  obtain ⟨e₀, he₀, hk, -⟩ := (sem_evolves h).old e he hlt
  exact hnew e₀ he₀ hk

/-- A row created under the guard-rails: it is for a host, on which the earlier executions leave room at its creation. -/
theorem Admitted.admits {i : Nat} {d : NewExecution} {s : Store} (h : Admitted hashtext i d s) (hv : d.violation = none) :
    ∃ hostId, d.hostId = some hostId ∧ Admits d.action hostId s.clock s := by
  obtain ⟨hnow, h⟩ := h
  cases hh : d.hostId with
  | none =>
      rw [hh, hv] at h
      cases h
  | some hostId =>
      rw [hh] at h
      have hroom := h.2 hv
      refine ⟨hostId, rfl, fun e he hon hc => ?_, ?_⟩
      · obtain ⟨hlive, hcool⟩ := hroom.spaced e he hon hc
        exact ⟨hlive, Int.le_trans hcool hnow⟩
      · refine Nat.lt_of_le_of_lt (List.countP_mono_left fun e _ hp => ?_) hroom.rate
        simp only [RemediationExecution.inHour, Bool.and_eq_true, decide_eq_true_eq] at hp ⊢
        exact ⟨hp.1, by omega⟩

theorem violation_eq_none {d : NewExecution} (h : d.status ≠ .skipped) : d.violation = none := by
  cases hv : d.violation with
  | none => rfl
  | some r => exact absurd (by rw [NewExecution.status, hv]; rfl) h

/-- The guard-rails as counted at creation. -/
structure Guarded (sha256 : String → String) (c : System) : Prop where
  live : ∀ e ∈ c.store.executions, ∀ e' ∈ c.store.executions, ∀ a hostId, e.on a hostId = true → e'.on a hostId = true →
    e.status.live = true → e'.status.live = true → e = e'
  /-- An execution that is not skipped is created for a host, when every earlier execution that counts was created a
  cooldown before and fewer than the hourly limit in the last hour; the limits are those the creation read. -/
  created : ∀ i c₁, c.step (sem sha256) i = some c₁ → ∀ e ∈ c₁.store.executions, (∀ e₀ ∈ c.store.executions, e₀.id ≠ e.id) →
    e.status ≠ .skipped → ∃ d hostId, (c.calls i).next? = some (.createExecution d) ∧ e.on d.action.id hostId = true ∧
      (∀ e₀ ∈ c.store.executions, e₀.on d.action.id hostId = true → e₀.status.counted = true →
        e₀.createdAt + d.action.cooldownSec * 1000 ≤ e.createdAt) ∧
      c.store.executions.count (fun e₀ => e₀.inHour d.action.id hostId e.createdAt) < d.action.maxRunsPerHour

/-- **One live execution at most, and room under the limits at every creation.** -/
theorem guarded_of_reach {clock : Int} {actions : Table RemediationAction} {hosts : Table MonitoredHost} {c : System}
    (h : Follows sha256 (start sha256 hashtext ops clock actions hosts) c) : Guarded sha256 c := by
  have hgood := good_of_reach h
  refine ⟨hgood.1.live, fun i c₁ hs e he hnew hskip => ?_⟩
  obtain ⟨_, w, k, hw, hsem, -, hcreate, -⟩ := hgood.guar hs
  obtain ⟨d, rfl, rfl⟩ := born_of_new hsem he hnew
  obtain ⟨hostId, hh, hroom⟩ := (hcreate d rfl).admits (violation_eq_none hskip)
  refine ⟨d, hostId, by rw [hw]; rfl, ?_, fun e₀ he₀ hon hc => (hroom.spaced e₀ he₀ hon hc).2, hroom.rate⟩
  simp only [RemediationExecution.on, NewExecution.row, hh, beq_self_eq_true, Bool.and_self]

/-- Two simultaneous requests: the second waits for the lock and then finds the first one queued. -/
theorem guarded_of_sample :
    ∃ c, (sample [.requestRun ⟨7, 1, .operator⟩ 0 (some 0), .requestRun ⟨8, 1, .operator⟩ 0 (some 0)]).run
      (sem fun body => body) [0, 1, 0, 1, 0, 1, 0, 0, 0, 1, 1, 1] = some c ∧
    c.store.executions.rows.map (fun e => (e.status, e.statusReason)) = [(.pending, none), (.skipped, some .alreadyQueued)] ∧
    Guarded (fun body => body) c := by
  have hrun : ((sample [.requestRun ⟨7, 1, .operator⟩ 0 (some 0), .requestRun ⟨8, 1, .operator⟩ 0 (some 0)]).run
      (sem fun body => body) [0, 1, 0, 1, 0, 1, 0, 0, 0, 1, 1, 1]).any (fun c =>
        c.store.executions.rows.map (fun e => (e.status, e.statusReason)) =
          [(.pending, none), (.skipped, some .alreadyQueued)]) = true := by decide
  obtain ⟨c, hc, hrows⟩ := (Option.any_eq_true _ _).mp hrun
  exact ⟨c, hc, of_decide_eq_true hrows, guarded_of_reach (Reach.of_run hc)⟩

end Creation

/-! ## Limits that stay what they are -/

/-- The executions of an action on a host that count were created a cooldown apart, each below the hourly limit. -/
structure Apart (a hostId cooldownSec maxRunsPerHour : Nat) (t : Table RemediationExecution) : Prop where
  spaced : ∀ e ∈ t, ∀ e' ∈ t, e.on a hostId = true → e'.on a hostId = true → e.status.counted = true →
    e'.status.counted = true → e.id < e'.id → e.createdAt + cooldownSec * 1000 ≤ e'.createdAt
  rate : ∀ e' ∈ t, e'.on a hostId = true → e'.status.counted = true →
    t.count (fun e => decide (e.id < e'.id) && e.inHour a hostId e'.createdAt) < maxRunsPerHour

section Apart
variable {a hostId cooldownSec maxRunsPerHour : Nat}

theorem Apart.empty : Apart a hostId cooldownSec maxRunsPerHour .empty where
  spaced := fun e he => absurd he (Table.not_mem_empty e)
  rate := fun e he => absurd he (Table.not_mem_empty e)

/-- Moves reflect what counts, so only the rows just created have something to show. -/
theorem Apart.evolves {N : RemediationExecution → Prop} {s s' : Store}
    (h : Apart a hostId cooldownSec maxRunsPerHour s.executions) (hev : s.executions.Evolves Moves N s'.executions)
    (hnew : ∀ e ∈ s'.executions, s.executions.next ≤ e.id → e.on a hostId = true → e.status.counted = true →
      ∃ action : RemediationAction, action.id = a ∧ action.cooldownSec = cooldownSec ∧
        action.maxRunsPerHour = maxRunsPerHour ∧ Admits action hostId e.createdAt s)
    (hlast : ∀ e ∈ s'.executions, e.id ≤ s.executions.next) : Apart a hostId cooldownSec maxRunsPerHour s'.executions where
  spaced := by
    intro e he e' he' hon hon' hc hc' hlt
    have hold : key e < s.executions.next := Nat.lt_of_lt_of_le hlt (hlast e' he')
    obtain ⟨e₀, he₀, hk, hm⟩ := hev.old e he hold
    rw [hm.on] at hon
    by_cases hlt' : e'.id < s.executions.next
    · obtain ⟨e₀', he₀', hk', hm'⟩ := hev.old e' he' hlt'
      rw [hm'.on] at hon'
      rw [hm.createdAt, hm'.createdAt]
      exact h.spaced e₀ he₀ e₀' he₀' hon hon' (hm.counted hc) (hm'.counted hc')
        (Nat.lt_of_le_of_lt (Nat.le_of_eq hk) (Nat.lt_of_lt_of_eq hlt hk'.symm))
    · obtain ⟨action, rfl, rfl, -, hroom⟩ := hnew e' he' (Nat.not_lt.mp hlt') hon' hc'
      rw [hm.createdAt]
      exact (hroom.spaced e₀ he₀ hon (hm.counted hc)).2
  rate := by
    intro e' he' hon' hc'
    -- what is counted below `e'` is old, and was counted before
    have hle : ∀ p : RemediationExecution → Bool, (∀ e₀ e, Moves e₀ e → e.id < e'.id →
        e₀.inHour a hostId e'.createdAt = true → p e₀ = true) →
        s'.executions.count (fun e => decide (e.id < e'.id) && e.inHour a hostId e'.createdAt) ≤ s.executions.count p := by
      intro p hp
      refine hev.countP_le (fun e₀ e hm hin => ?_) fun e he hge => ?_
      · simp only [Bool.and_eq_true, decide_eq_true_eq] at hin
        exact hp e₀ e hm hin.1 (hm.inHour hin.2)
      · have hge' : e'.id ≤ e.id := Nat.le_trans (hlast e' he') hge
        simp only [Nat.not_lt.mpr hge', decide_false, Bool.false_and]
    by_cases hlt' : e'.id < s.executions.next
    · obtain ⟨e₀', he₀', hk', hm'⟩ := hev.old e' he' hlt'
      refine Nat.lt_of_le_of_lt (hle _ fun e₀ e hm hid hin => ?_)
        (h.rate e₀' he₀' (hm'.on a hostId ▸ hon') (hm'.counted hc'))
      rw [← hm'.createdAt, hin, Bool.and_true, decide_eq_true_eq, ← Moves.id_eq hm', ← Moves.id_eq hm]
      exact hid
    · obtain ⟨action, rfl, -, rfl, hroom⟩ := hnew e' he' (Nat.not_lt.mp hlt') hon' hc'
      exact Nat.lt_of_le_of_lt (hle _ fun e₀ e _ _ hin => hin) hroom.rate

end Apart

/-! ## What the creations read -/

section Limits
variable (a cooldownSec maxRunsPerHour : Nat)

def Limits (s : Store) : Prop :=
  ∀ action ∈ s.actions, action.id = a → action.cooldownSec = cooldownSec ∧ action.maxRunsPerHour = maxRunsPerHour

/-- An execution of action `a` is written under its limits. -/
def Limited (w : Stmt) : Prop := ∀ d, w = .createExecution d → d.action.id = a →
  d.action.cooldownSec = cooldownSec ∧ d.action.maxRunsPerHour = maxRunsPerHour

variable {a cooldownSec maxRunsPerHour} {sha256 : String → String} {hashtext : String → Int}

def Stmt.writesNone : Stmt → Bool
  | .createExecution _ => false
  | _ => true

theorem limited_stmt {w : Stmt} (hw : w.writesNone = true) : Limited a cooldownSec maxRunsPerHour w := by
  rintro d rfl
  cases hw

theorem limited_of_plain {p : Call} (h : Plain p) :
    p.All (Limits a cooldownSec maxRunsPerHour) (Limited a cooldownSec maxRunsPerHour) fun _ => True := by
  refine h.mono (fun _ _ => trivial) (fun w hw d hd => ?_) fun _ _ => trivial
  rw [hd] at hw
  cases hw

theorem createExecution_limited {input : CreateInput} {now : Int} {k : Option CreatedExecution → Call}
    (hk : ∀ r, ∃ o, k r = .ret o) : (createExecution sha256 hashtext input now k).All (Limits a cooldownSec maxRunsPerHour)
      (Limited a cooldownSec maxRunsPerHour) fun _ => True := by
  have hret : ∀ r, (k r).All (Limits a cooldownSec maxRunsPerHour) (Limited a cooldownSec maxRunsPerHour) fun _ => True := by
    intro r
    obtain ⟨o, ho⟩ := hk r
    rw [ho]
    trivial
  have hinsert : ∀ d : NewExecution, (d.action.id = a → d.action.cooldownSec = cooldownSec ∧
      d.action.maxRunsPerHour = maxRunsPerHour) → (insertExecution d k).All (Limits a cooldownSec maxRunsPerHour)
        (Limited a cooldownSec maxRunsPerHour) fun _ => True := by
    intro d hd
    refine ⟨fun d' hd' => ?_, fun s _ => ?_⟩
    · cases hd'
      exact hd
    · beta_reduce
      split
      · exact hret _
      · trivial
  refine ⟨limited_stmt rfl, fun s hs => ?_⟩
  beta_reduce
  cases hf : s.findAction input.actionId input.orgId with
  | none => exact hret _
  | some action =>
      have hlim := hs action (Table.find?_mem hf).1
      simp only
      cases input.hostId <|> action.targetHostId with
      | none => exact hinsert _ hlim
      | some hostId =>
          refine ⟨limited_stmt rfl, fun s _ => ?_⟩
          beta_reduce
          cases s.findHost hostId input.orgId with
          | none => exact hinsert _ hlim
          | some host => exact ⟨limited_stmt rfl, fun _ _ => ⟨limited_stmt rfl, fun _ _ => hinsert _ hlim⟩⟩

theorem claimNextExecution_limited (orgId hostId : Nat) (now : Int) (n : Nat) : (claimNextExecution orgId hostId now n).All
    (Limits a cooldownSec maxRunsPerHour) (Limited a cooldownSec maxRunsPerHour) fun _ => True := by
  induction n with
  | zero => trivial
  | succ n ih =>
      refine ⟨limited_stmt rfl, fun s _ => ?_⟩
      beta_reduce
      split
      · trivial
      · refine ⟨limited_stmt rfl, fun s _ => ?_⟩
        beta_reduce
        split
        · exact ih
        · trivial

theorem call_limited (op : Op) : (op.call sha256 hashtext).All (Limits a cooldownSec maxRunsPerHour)
    (Limited a cooldownSec maxRunsPerHour) fun _ => True := by
  cases op with
  | createExecution input age => exact ⟨limited_stmt rfl, fun s _ => createExecution_limited fun r => ⟨_, rfl⟩⟩
  | requestRun actor actionId hostId =>
      rw [Op.call, requestRun]
      split
      · trivial
      · refine ⟨limited_stmt rfl, fun s _ => createExecution_limited fun r => ?_⟩
        cases r <;> exact ⟨_, rfl⟩
  | triggerForIncident orgId actionId auto incidentId host age =>
      refine ⟨limited_stmt rfl, fun s _ => ?_⟩
      cases actionId with
      | none => trivial
      | some actionId =>
          refine ⟨limited_stmt rfl, fun s _ => ?_⟩
          beta_reduce
          cases s.findAction actionId orgId with
          | none => trivial
          | some action => exact createExecution_limited fun r => ⟨_, rfl⟩
  | claimNextExecution orgId hostId => exact ⟨limited_stmt rfl, fun s _ => claimNextExecution_limited _ _ _ _⟩
  | recordExecutionResult orgId hostId input => exact ⟨limited_stmt rfl, fun _ _ => ⟨limited_stmt rfl, fun _ _ => trivial⟩⟩
  | sweepExecutions =>
      exact ⟨limited_stmt rfl, fun _ _ => ⟨limited_stmt rfl, fun _ _ => ⟨limited_stmt rfl, fun _ _ =>
        ⟨limited_stmt rfl, fun _ _ => trivial⟩⟩⟩⟩
  | _ => exact limited_of_plain (call_plain rfl)

/-- **Creations apart.** While the limits of the action stay what they are. -/
theorem apart_of_reach {ops : Nat → Op} {clock : Int} {actions : Table RemediationAction} {hosts : Table MonitoredHost}
    {hostId : Nat} {c : System} (h : Reach (sem sha256) (fun c _ => Limits a cooldownSec maxRunsPerHour c.store)
      (start sha256 hashtext ops clock actions hosts) c) : Apart a hostId cooldownSec maxRunsPerHour c.store.executions := by
  induction h with
  | refl => exact Apart.empty
  | @step c₁ c₂ i hr hlim hs ih =>
      have hgood := good_of_reach hr
      obtain ⟨_, w, k, hw, hsem, -, hcreate, -⟩ := hgood.guar hs
      have hread := Reach.all (fun _ _ h => h) hr (fun i => call_limited (ops i)) i
      rw [hw] at hread
      refine ih.evolves (sem_evolves hsem) (fun e he hge hon hc => ?_) fun e he => ?_
      · obtain ⟨d, rfl, rfl⟩ := (sem_evolves hsem).new e he hge
        have hskip : d.status ≠ .skipped := by
          intro hskip
          simp only [NewExecution.row, hskip] at hc
          cases hc
        obtain ⟨h', hh, hroom⟩ := (hcreate d rfl).admits (violation_eq_none hskip)
        simp only [RemediationExecution.on, NewExecution.row, hh, Bool.and_eq_true, beq_iff_eq, Option.some.injEq] at hon
        obtain ⟨ha, rfl⟩ := hon
        obtain ⟨hcool, hmax⟩ := hread.1 d rfl ha
        exact ⟨d.action, ha, hcool, hmax, hroom⟩
      · by_cases hlt : e.id < c₁.store.executions.next
        · exact Nat.le_of_lt hlt
        · obtain ⟨d, -, rfl⟩ := (sem_evolves hsem).new e he (Nat.not_lt.mp hlt)
          exact Nat.le_refl _

/-- In no window of an hour were more created than the limit allows. -/
theorem Apart.window {hostId : Nat} {t : Table RemediationExecution} (h : Apart a hostId cooldownSec maxRunsPerHour t)
    (since : Int) : t.count (fun e => e.on a hostId && e.status.counted &&
      decide (since ≤ e.createdAt ∧ e.createdAt < since + 3600000)) ≤ maxRunsPerHour := by
  refine Table.count_le_of_lt fun e' he' hp => ?_
  simp only [Bool.and_eq_true, decide_eq_true_eq] at hp
  refine Nat.lt_of_le_of_lt (List.countP_mono_left fun e _ hp' => ?_) (h.rate e' he' hp.1.1 hp.1.2)
  simp only [RemediationExecution.inHour, Bool.and_eq_true, decide_eq_true_eq] at hp' ⊢
  exact ⟨hp'.1, hp'.2.1, by omega⟩

end Limits

/-! ## What the host experiences -/

/-- Taken by the agent, which did not refuse it. -/
def RemediationExecution.ran (e : RemediationExecution) : Bool := e.startedAt.isSome && e.status != .skipped

/-- **What ran was created apart.** While the limits of the action stay what they are, any two of its executions that ran
on a host were created a cooldown apart, and no window of an hour holds more creations of them than the limit. -/
theorem creations_apart {sha256 : String → String} {hashtext : String → Int} {ops : Nat → Op} {clock : Int}
    {actions : Table RemediationAction} {hosts : Table MonitoredHost} {a hostId cooldownSec maxRunsPerHour : Nat} {c : System}
    (h : Reach (sem sha256) (fun c _ => Limits a cooldownSec maxRunsPerHour c.store)
      (start sha256 hashtext ops clock actions hosts) c) :
    (∀ e ∈ c.store.executions, ∀ e' ∈ c.store.executions, e.on a hostId = true → e'.on a hostId = true →
      e.ran = true → e'.ran = true → e ≠ e' →
        e.createdAt + cooldownSec * 1000 ≤ e'.createdAt ∨ e'.createdAt + cooldownSec * 1000 ≤ e.createdAt) ∧
    ∀ since : Int, c.store.executions.count (fun e => e.on a hostId && e.ran &&
      decide (since ≤ e.createdAt ∧ e.createdAt < since + 3600000)) ≤ maxRunsPerHour := by
  have hapart : Apart a hostId cooldownSec maxRunsPerHour c.store.executions := apart_of_reach h
  have hcounted : ∀ e ∈ c.store.executions, e.ran = true → e.status.counted = true := by
    intro e he hran
    simp only [RemediationExecution.ran, Bool.and_eq_true, bne_iff_ne] at hran
    exact ((good_of_reach h).1.lived e he).counted hran.1 hran.2
  refine ⟨fun e he e' he' hon hon' hran hran' hne => ?_, fun since => ?_⟩
  · rcases Nat.lt_trichotomy e.id e'.id with hlt | heq | hlt
    · exact .inl (hapart.spaced e he e' he' hon hon' (hcounted e he hran) (hcounted e' he' hran') hlt)
    · exact absurd (Table.eq_of_key he he' heq) hne
    · exact .inr (hapart.spaced e' he' e he hon' hon (hcounted e' he' hran') (hcounted e he hran) hlt)
  · refine Nat.le_trans (List.countP_mono_left fun e he hp => ?_) (hapart.window since)
    simp only [Bool.and_eq_true] at hp ⊢
    exact ⟨⟨hp.1.1, hcounted e he hp.1.2⟩, hp.2⟩

/-- A run taken just before the hour is over, finished at once, and the next one asked for when the hour is over. -/
def latePickup : List Op :=
  [.requestRun ⟨7, 1, .operator⟩ 0 (some 0), .tick 3599000, .claimNextExecution 1 0,
    .recordExecutionResult 1 0 ⟨0, .succeeded, none, some 0, some 5, none, none⟩, .tick 1000,
    .requestRun ⟨7, 1, .operator⟩ 0 (some 0), .claimNextExecution 1 0]

/-- A run the agent refuses, and another one asked for at once. -/
def refusedPickup : List Op :=
  [.requestRun ⟨7, 1, .operator⟩ 0 (some 0), .claimNextExecution 1 0,
    .recordExecutionResult 1 0 ⟨0, .skipped, some .refusedByAgentPolicy, none, none, none, none⟩,
    .requestRun ⟨7, 1, .operator⟩ 0 (some 0), .claimNextExecution 1 0]

/-- The limits of the sample action, decided before each step. -/
def sampleLimits (c : System) (_ : Nat) : Bool :=
  c.store.actions.rows.all fun action => action.id != 0 || (action.cooldownSec == 3600 && action.maxRunsPerHour == 1)

theorem limits_of_sampleLimits (c : System) (i : Nat) (h : sampleLimits c i = true) : Limits 0 3600 1 c.store := by
  intro action ha hid
  have h' := List.all_eq_true.mp h action ha
  simpa [hid] using h'

def latePickupRun : List Nat := [0, 0, 0, 0, 0, 0, 1, 2, 2, 2, 3, 3, 4, 5, 5, 5, 5, 5, 5, 6, 6, 6]

def refusedPickupRun : List Nat := [0, 0, 0, 0, 0, 0, 1, 1, 1, 2, 2, 3, 3, 3, 3, 3, 3, 4, 4, 4]

theorem creations_apart_latePickup : ∃ c, (sample latePickup).run (sem fun body => body) latePickupRun = some c ∧
    c.store.executions.count (fun e => e.on 0 0 && e.ran && decide (0 ≤ e.createdAt ∧ e.createdAt < 3600000)) = 1 ∧
    ∀ since : Int, c.store.executions.count (fun e => e.on 0 0 && e.ran &&
      decide (since ≤ e.createdAt ∧ e.createdAt < since + 3600000)) ≤ 1 := by
  have hrun : ((sample latePickup).run (sem fun body => body) latePickupRun).any (fun c =>
      c.store.executions.count (fun e => e.on 0 0 && e.ran && decide (0 ≤ e.createdAt ∧ e.createdAt < 3600000)) = 1) =
      true := by decide
  obtain ⟨c, hc, hone⟩ := (Option.any_eq_true _ _).mp hrun
  exact ⟨c, hc, of_decide_eq_true hone, (creations_apart (Reach.of_allSteps limits_of_sampleLimits (by decide) hc)).2⟩

/-- The guard-rails as a law between starts. -/
structure StartsApart (a hostId cooldownSec maxRunsPerHour : Nat) (t : Table RemediationExecution) : Prop where
  spaced : ∀ e ∈ t, ∀ e' ∈ t, e.on a hostId = true → e'.on a hostId = true → e.id ≠ e'.id →
    ∀ at₁ at₂, e.startedAt = some at₁ → e'.startedAt = some at₂ →
      at₁ + cooldownSec * 1000 ≤ at₂ ∨ at₂ + cooldownSec * 1000 ≤ at₁
  rate : ∀ since : Int, t.count (fun e => e.on a hostId &&
    e.startedAt.any fun at₁ => decide (since ≤ at₁ ∧ at₁ < since + 3600000)) ≤ maxRunsPerHour

/-- **Starts need not be apart.** The limits held at one run an hour, two runs start within a second; and after a start that
the agent refuses, the next one is even created at once. -/
theorem starts_not_apart :
    (∃ c, Reach (sem fun body => body) (fun c _ => Limits 0 3600 1 c.store) (sample latePickup) c ∧
      ¬ StartsApart 0 0 3600 1 c.store.executions) ∧
    ∃ c, Reach (sem fun body => body) (fun c _ => Limits 0 3600 1 c.store) (sample refusedPickup) c ∧
      ∃ e ∈ c.store.executions, ∃ e' ∈ c.store.executions, e.on 0 0 = true ∧ e'.on 0 0 = true ∧ e.id ≠ e'.id ∧
        e.createdAt = e'.createdAt ∧ e.startedAt.isSome = true ∧ e'.startedAt.isSome = true := by
  have hlate : ((sample latePickup).run (sem fun body => body) latePickupRun).any (fun c =>
      c.store.executions.rows.any fun e => c.store.executions.rows.any fun e' => e.on 0 0 && e'.on 0 0 && e.id != e'.id &&
        e.startedAt == some 3599000 && e'.startedAt == some 3600000) = true := by decide
  have hrefused : ((sample refusedPickup).run (sem fun body => body) refusedPickupRun).any (fun c =>
      c.store.executions.rows.any fun e => c.store.executions.rows.any fun e' => e.on 0 0 && e'.on 0 0 && e.id != e'.id &&
        e.createdAt == e'.createdAt && e.startedAt.isSome && e'.startedAt.isSome) = true := by decide
  obtain ⟨c, hc, hp⟩ := (Option.any_eq_true _ _).mp hlate
  obtain ⟨c', hc', hp'⟩ := (Option.any_eq_true _ _).mp hrefused
  simp only [Bool.and_eq_true, List.any_eq_true, beq_iff_eq, bne_iff_ne, and_assoc] at hp hp'
  refine ⟨⟨c, Reach.of_allSteps limits_of_sampleLimits (by decide) hc, fun happart => ?_⟩, c',
    Reach.of_allSteps limits_of_sampleLimits (by decide) hc', hp'⟩
  obtain ⟨e, he, e', he', hon, hon', hid, hs, hs'⟩ := hp
  rcases happart.spaced e he e' he' hon hon' hid _ _ hs hs' with h | h <;> omega

end IkelyaneMonitor.Remediation
