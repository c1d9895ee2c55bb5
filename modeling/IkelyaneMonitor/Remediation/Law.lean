import IkelyaneMonitor.Remediation.Promises

/-!
# The lifecycle over whole runs

* `Lifecycle` : what holds of the executions at one state of the system and in everything that follows it: finished
  executions do not change, the snapshot is frozen, a job is handed out once and to its host, a result is stored once;
* `lifecycle_of_reach` : it holds at every state reached from `start`, whatever the calls and their order.
-/

namespace IkelyaneMonitor.Remediation
open Interleave

/-- `c'` may follow `c`. -/
abbrev Follows (sha256 : String → String) (c c' : System) : Prop := Reach (sem sha256) anyStep c c'

structure Lifecycle (sha256 : String → String) (ops : Nat → Op) (c : System) : Prop where
  /-- A finished execution keeps its status. -/
  final : ∀ c', Follows sha256 c c' → ∀ e ∈ c.store.executions, ∀ e' ∈ c'.store.executions, e'.id = e.id →
    e.status.final = true → e'.status = e.status
  finishedAt : ∀ e ∈ c.store.executions, e.finishedAt.isSome = true ↔ e.status.final = true
  snapshot : ∀ c', Follows sha256 c c' → ∀ e ∈ c.store.executions, ∀ e' ∈ c'.store.executions, e'.id = e.id →
    e'.snapshot = e.snapshot ∧ e'.origin = e.origin
  sha256_eq : ∀ e ∈ c.store.executions, e.scriptSha256 = sha256 e.scriptBody
  /-- Once taken, an execution never waits for an agent again. -/
  started : ∀ i c₁, c.step (sem sha256) i = some c₁ → ∀ e ∈ c.store.executions, ∀ e₁ ∈ c₁.store.executions, e₁.id = e.id →
    e.status = .pending → e₁.status = .running →
      ∀ c', Follows sha256 c₁ c' → ∀ e' ∈ c'.store.executions, e'.id = e.id → e'.status ≠ .pending
  /-- A job is handed out by the very statement that takes its execution, to the host of the execution. -/
  delivered : ∀ i c₁ job, c.step (sem sha256) i = some c₁ → c₁.calls i = .ret (.claimed (some job)) →
    ∃ e ∈ c.store.executions, ∃ now hostId, e.status = .pending ∧ e.claim now ∈ c₁.store.executions ∧
      e.delivered = job ∧ e.hostId = some hostId ∧ ops i = .claimNextExecution e.orgId hostId
  deliveredOnce : ∀ i j job job', c.calls i = .ret (.claimed (some job)) → c.calls j = .ret (.claimed (some job')) →
    job.id = job'.id → i = j
  /-- A result is stored on a running execution, for a report by its host, and nothing changes the row afterwards. -/
  stored : ∀ i c₁ orgId hostId input now, (c.calls i).next? = some (.storeResult orgId hostId input now) →
    c.step (sem sha256) i = some c₁ → ∀ e ∈ c.store.executions, ∀ e₁ ∈ c₁.store.executions, e₁.id = e.id → e₁ ≠ e →
      ops i = .recordExecutionResult orgId hostId input ∧ e.orgId = orgId ∧ e.hostId = some hostId ∧
      e.status = .running ∧ e₁ = e.storeResult input now ∧
      ∀ c', Follows sha256 c₁ c' → ∀ e' ∈ c'.store.executions, e'.id = e.id → e' = e₁
  /-- Nothing else writes what an agent reports. -/
  reported : ∀ i c₁, c.step (sem sha256) i = some c₁ → ∀ e ∈ c.store.executions, ∀ e₁ ∈ c₁.store.executions,
    e₁.id = e.id → e₁.report ≠ e.report →
      ∃ orgId hostId input now, (c.calls i).next? = some (.storeResult orgId hostId input now)

section Runs
variable {sha256 : String → String} {hashtext : String → Int} {ops : Nat → Op}

theorem Follows.moves {c c' : System} (h : Follows sha256 c c') {e e' : RemediationExecution}
    (he : e ∈ c.store.executions) (he' : e' ∈ c'.store.executions) (hid : e'.id = e.id) : Moves e e' :=
  (Reach.evolves h).rel he he' hid

/-! ## Statements that store a result -/

theorem storeResult_eq {i : Nat} {orgId hostId : Nat} {input : ExecutionResultInput} {now : Int} {s s' : Store}
    (h : sem sha256 i (.storeResult orgId hostId input now) s = some s') {e e' : RemediationExecution}
    (he : e ∈ s.executions) (he' : e' ∈ s'.executions) (hid : e'.id = e.id) (hne : e' ≠ e) :
    e.orgId = orgId ∧ e.hostId = some hostId ∧ e.status = .running ∧ e' = e.storeResult input now := by
  cases h
  obtain ⟨e₀, he₀, rfl⟩ := List.mem_map.mp he'
  have heq : e₀ = e := by
    refine Table.eq_of_key he₀ he (Eq.trans ?_ hid)
    split <;> rfl
  subst heq
  split at hne
  · rename_i hp
    simp only [Bool.and_eq_true, beq_iff_eq] at hp
    rw [if_pos (by simpa using hp)]
    exact ⟨hp.1.1.2, hp.1.2, hp.2, rfl⟩
  · exact absurd rfl hne

theorem sem_report {i : Nat} {w : Stmt} {s s' : Store} (h : sem sha256 i w s = some s')
    (hw : ∀ orgId hostId input now, w ≠ .storeResult orgId hostId input now) :
    s.executions.Evolves (fun e e' => e'.report = e.report) (fun _ => True) s'.executions := by
  have hrefl : ∀ e : RemediationExecution, e.report = e.report := fun _ => rfl
  cases w with
  | createExecution d =>
      cases h
      by_cases ha : (s.actions.get? d.action.id).isSome = true
      · simp only [ha, if_true]
        exact .insert hrefl _ (fun _ => rfl) trivial
      · simp only [ha]
        exact .refl hrefl _ _
  | storeResult orgId hostId input now => exact absurd rfl (hw orgId hostId input now)
  | deleteAction id orgId =>
      simp only [sem] at h
      split at h <;> cases h
      · exact .deleteMany hrefl _ _
      · exact .refl hrefl _ _
  | advisoryLock key =>
      simp only [sem] at h
      split at h <;> cases h
      exact .refl hrefl _ _
  | approve | cancel | claim | expirePending | expireApproval | timeOutLost =>
      cases h
      exact .updateMany hrefl _ (by intro e; rfl) fun _ _ _ => rfl
  | _ =>
      cases h
      exact .refl hrefl _ _

/-! ## Jobs -/

theorem not_pending_of_handed {op : Op} {job : DeliveredExecution} {s : Store} (h : Handed op job s) :
    ¬ ∃ e ∈ s.executions, e.id = job.id ∧ e.status = .pending := by
  obtain ⟨_, _, _, _, h⟩ := h
  rintro ⟨e, he, hid, hp⟩
  have hw := (h e he hid).2.2.2
  rw [hp] at hw
  cases hw

theorem delivered_of_good {c c₁ : System} (hgood : (promises sha256 hashtext ops).Good (sem sha256) c)
    (hgood₁ : (promises sha256 hashtext ops).Good (sem sha256) c₁) {i : Nat} {job : DeliveredExecution}
    (hs : c.step (sem sha256) i = some c₁) (hi : c₁.calls i = .ret (.claimed (some job))) :
    ∃ e ∈ c.store.executions, ∃ now hostId, e.status = .pending ∧ e.claim now ∈ c₁.store.executions ∧
      e.delivered = job ∧ e.hostId = some hostId ∧ ops i = .claimNextExecution e.orgId hostId := by
  obtain ⟨_, w, k, _, hsem, hcalls, -, -, -, hjob⟩ := hgood.guar hs
  have hret : k c.store = .ret (.claimed (some job)) := by rw [← hi, hcalls, Function.update_self]
  obtain ⟨now, rfl, e, he, hid, hp⟩ := hjob job hret
  have hmem : e.claim now ∈ c₁.store.executions := by
    cases hs' : c₁.store with
    | mk =>
        rw [hs'] at hsem
        cases hsem
        refine List.mem_map.mpr ⟨e, he, ?_⟩
        simp only [hid, hp, beq_self_eq_true, Bool.and_self, if_true]
  obtain ⟨orgId, hostId, hop, -, hrows⟩ := hgood₁.post hi job rfl
  obtain ⟨ho, hh, hd, -⟩ := hrows _ hmem hid
  subst ho
  exact ⟨e, he, now, hostId, hp, hmem, hd, hh, hop⟩

theorem deliveredOnce_of_reach {clock : Int} {actions : Table RemediationAction} {hosts : Table MonitoredHost} {c : System}
    (h : Follows sha256 (start sha256 hashtext ops clock actions hosts) c) {i j : Nat} {job job' : DeliveredExecution}
    (hi : c.calls i = .ret (.claimed (some job))) (hj : c.calls j = .ret (.claimed (some job'))) (hid : job.id = job'.id) :
    i = j := by
  refine Spec.Good.single_use (fun id s => ∃ e ∈ s.executions, e.id = id ∧ e.status = .pending)
    (fun a id => ∃ job, a = .claimed (some job) ∧ job.id = id) (compatible ops anyStep) ?_ ?_
    (good_start ops clock actions hosts) ?_ h hi hj ⟨job, rfl, rfl⟩ ⟨job', rfl, hid.symm⟩
  · rintro i _ s _ hpost ⟨job, rfl, rfl⟩
    exact not_pending_of_handed (hpost job rfl)
  · rintro i s w s' _ _ hg ⟨job, rfl, rfl⟩
    obtain ⟨_, _, hp⟩ := hg.2.2.2 job rfl
    exact hp
  · rintro i _ _ hi ⟨job, rfl, rfl⟩
    obtain ⟨_, _, _, hlt, _⟩ := (good_start ops clock actions hosts).post hi job rfl
    exact absurd hlt (Nat.not_lt_zero _)

/-! ## The law -/

/-- **The lifecycle of executions**, for every set of calls and every interleaving of their statements. -/
theorem lifecycle_of_reach {clock : Int} {actions : Table RemediationAction} {hosts : Table MonitoredHost} {c : System}
    (h : Follows sha256 (start sha256 hashtext ops clock actions hosts) c) : Lifecycle sha256 ops c := by
  have hgood := good_of_reach h
  have hstep : ∀ {i c₁}, c.step (sem sha256) i = some c₁ → Follows sha256 c c₁ := fun hs => Reach.single trivial hs
  refine ⟨?_, ?_, ?_, ?_, ?_, ?_, ?_, ?_, ?_⟩
  · intro c' hr e he e' he' hid hf
    rw [(hr.moves he he' hid).eq_of_final hf]
  · intro e he
    rw [(hgood.1.lived e he).finishedAt]
  · intro c' hr e he e' he' hid
    have hm := hr.moves he he' hid
    exact ⟨hm.snapshot, hm.origin⟩
  · exact fun e he => (hgood.1.lived e he).sha256_eq
  · intro i c₁ hs e he e₁ he₁ hid hp hrun c' hr e' he' hid' hp'
    have hw := (Follows.moves hr he₁ he' (hid'.trans hid.symm)).not_waiting (by rw [hrun]; rfl)
    rw [hp'] at hw
    cases hw
  · exact fun i c₁ job hs hi => delivered_of_good hgood (good_of_reach (h.trans (hstep hs))) hs hi
  · exact fun i j job job' hi hj hid => deliveredOnce_of_reach h hi hj hid
  · intro i c₁ orgId hostId input now hnext hs e he e₁ he₁ hid hne
    obtain ⟨_, w, k, hw, hsem, _, -, hrec, -⟩ := hgood.guar hs
    rw [hw] at hnext
    cases hnext
    obtain ⟨ho, hh, hrun, heq⟩ := storeResult_eq hsem he he₁ hid hne
    refine ⟨hrec _ _ _ _ rfl, ho, hh, hrun, heq, fun c' hr e' he' hid' => ?_⟩
    refine (Follows.moves hr he₁ he' (hid'.trans hid.symm)).eq_of_final ?_
    rw [heq]
    exact input.status.final
  · intro i c₁ hs e he e₁ he₁ hid hne
    obtain ⟨w, k, s', hw, hsem, rfl⟩ := (Conf.step_eq_some _).mp hs
    rw [hw]
    by_contra hno
    refine hne ((sem_report hsem fun orgId hostId input now hw => hno ⟨orgId, hostId, input, now, ?_⟩).rel he he₁ hid)
    rw [hw]
    rfl

end Runs

/-! ## A small installation -/

/-- One action of organization 1, once an hour. -/
def sampleActions : Table RemediationAction :=
  Table.empty.insert (fun id => ⟨id, 1, true, .bash, "restart", none, 60, none, [], false, 3600, 1⟩) fun _ => rfl

/-- One host of organization 1, accepting any script. -/
def sampleHosts : Table MonitoredHost :=
  Table.empty.insert (fun id => ⟨id, 1, true, .linux, some .any, []⟩) fun _ => rfl

/-- The sample installation under the given calls; any other call lets a millisecond pass. Digests are the text itself. -/
def sample (calls : List Op) : System :=
  start (fun body => body) (fun _ => 0) (fun i => calls.getD i (.tick 1)) 0 sampleActions sampleHosts

/-- A run asked for, taken by the agent and reported. -/
def sampleCalls : List Op :=
  [.requestRun ⟨7, 1, .operator⟩ 0 (some 0), .claimNextExecution 1 0,
    .recordExecutionResult 1 0 ⟨0, .succeeded, none, some 0, some 5, some "done", none⟩]

theorem lifecycle_of_sample : ∃ c, (sample sampleCalls).run (sem fun body => body)
    [0, 0, 0, 0, 0, 0, 1, 1, 1, 2, 2] = some c ∧
    c.store.executions.rows.map (fun e => (e.status, e.stdout)) = [(.succeeded, some "done")] ∧
    Lifecycle (fun body => body) (fun i => sampleCalls.getD i (.tick 1)) c := by
  have hrun : ((sample sampleCalls).run (sem fun body => body) [0, 0, 0, 0, 0, 0, 1, 1, 1, 2, 2]).any (fun c =>
      c.store.executions.rows.map (fun e => (e.status, e.stdout)) = [(.succeeded, some "done")]) = true := by decide
  obtain ⟨c, hc, hrows⟩ := (Option.any_eq_true _ _).mp hrun
  exact ⟨c, hc, of_decide_eq_true hrows, lifecycle_of_reach (Reach.of_run hc)⟩

end IkelyaneMonitor.Remediation
