import IkelyaneMonitor.Remediation.Law
import IkelyaneMonitor.Remediation.Provenance
import IkelyaneMonitor.Remediation.Rows

/-!
# What becomes of the runs

* the platform alone: `settled_of_reach`, why a started execution is no longer running; `started_of_handed`, what was handed
  out was started; `residual_record`, what is left of the call of a report;
* `scripts_start_once`, `scripts_as_created` : no execution is started twice, and it is started as it was created, on its
  host;
* `outcomes_are_of_runs` : what is stored of a run is the report of the process that had it, or that it was lost;
* `answered_reports_settle` : once a report was answered with 200 or 409, its execution holds that very outcome, was given up
  or is gone.
-/

namespace IkelyaneMonitor.Remediation
open Interleave

section Platform
variable {sha256 : String → String} {hashtext : String → Int} {ops : Nat → Op}

/-- What is on record of a started execution: it runs, it was given up, or a report on it was stored. -/
def Settled (ops : Nat → Op) (e : RemediationExecution) : Prop :=
  e.status = .running ∨ (∃ (e₀ : RemediationExecution) (t : Int), e₀.lost t = true ∧ e = e₀.timeOut t) ∨
    ∃ (i hostId : Nat) (input : ExecutionResultInput) (e₀ : RemediationExecution) (now : Int),
      ops i = .recordExecutionResult e.orgId hostId input ∧ e.id = input.executionId ∧
      e.hostId = some hostId ∧ e = e₀.storeResult input now

theorem settled_of_reach {clock : Int} {actions : Table RemediationAction} {hosts : Table MonitoredHost} {c : System}
    (h : Follows sha256 (start sha256 hashtext ops clock actions hosts) c) :
    ∀ e ∈ c.store.executions, e.startedAt.isSome = true → Settled ops e := by
  induction h with
  | refl => exact fun e he => absurd he (Table.not_mem_empty e)
  | @step c₁ c₂ i hr _ hs ih =>
      have hgood := good_of_reach hr
      obtain ⟨_, w, k, -, hsem, -, -, hrecord, -⟩ := hgood.guar hs
      intro e' he' hst
      rcases row_of_sem hsem he' with he | ⟨d, rfl, rfl⟩ | ⟨e, he, hchanged⟩
      · exact ih e' he hst
      · cases hst
      · cases hchanged with
        | claim => exact .inl rfl
        | timeOut t _ hlost => exact .inr (.inl ⟨e, t, hlost, rfl⟩)
        | @storeResult _ hostId input now hid hhost _ =>
            exact .inr (.inr ⟨i, hostId, input, e, now, hrecord _ _ _ _ rfl, hid, hhost, rfl⟩)
        | approve violation _ _ h =>
            have hwaiting := (hgood.1.lived e he).not_waiting hst
            rw [h] at hwaiting
            cases hwaiting
        | cancel reason now h =>
            have hwaiting := (hgood.1.lived e he).not_waiting hst
            rcases h with h | h <;> rw [h] at hwaiting <;> cases hwaiting

/-- What was handed out was started. -/
theorem started_of_handed {clock : Int} {actions : Table RemediationAction} {hosts : Table MonitoredHost} {c : System}
    (h : Follows sha256 (start sha256 hashtext ops clock actions hosts) c) {i : Nat} {job : DeliveredExecution}
    (hi : c.calls i = .ret (.claimed (some job))) :
    ∀ e ∈ c.store.executions, e.id = job.id → e.startedAt.isSome = true := by
  induction h with
  | refl => exact fun e he => absurd he (Table.not_mem_empty e)
  | @step c₁ c₂ j hr _ hs ih =>
      have hgood := good_of_reach hr
      intro e' he' hid
      by_cases hprev : c₁.calls i = .ret (.claimed (some job))
      · -- handed out before: the row was there, and was started
        obtain ⟨orgId, hostId, -, hlt, -⟩ := hgood.post hprev job rfl
        obtain ⟨w, k, s', -, hsem, rfl⟩ := (Conf.step_eq_some _).mp hs
        obtain ⟨e, he, hkey, hm⟩ := (sem_evolves hsem).old e' he' (show e'.id < _ from hid ▸ hlt)
        exact hm.startedAt (ih hprev e he (hkey.trans hid))
      · have hij : i = j := by
          by_contra hne
          obtain ⟨w, k, s', -, -, rfl⟩ := (Conf.step_eq_some _).mp hs
          exact hprev ((Function.update_of_ne hne _ _).symm.trans hi)
        subst hij
        obtain ⟨e, -, now, hostId, -, hmem, rfl, -⟩ := delivered_of_good hgood (good_of_reach (hr.step trivial hs)) hs hi
        rw [Table.eq_of_key he' hmem hid]
        rfl

/-- What is left of the call of a report. -/
theorem residual_record {orgId hostId : Nat} {input : ExecutionResultInput} {p : Call}
    (h : ((Op.recordExecutionResult orgId hostId input).call sha256 hashtext).Residual p) {w : Stmt} {k : Store → Call}
    (hp : p = .stmt w k) {s : Store} {b : Bool} (hk : k s = .ret (.recorded b)) :
    ∃ now, w = .storeResult orgId hostId input now := by
  have hall : p = .stmt .newDate (fun s => recordExecutionResult orgId hostId input s.clock) ∨
      (∃ now, p = recordExecutionResult orgId hostId input now) ∨ ∃ a, p = .ret a := by
    clear hp
    induction h with
    | refl => exact .inl rfl
    | step s _ ih =>
        rcases ih with heq | ⟨now, heq⟩ | ⟨a, heq⟩
        · cases heq
          exact .inr (.inl ⟨s.clock, rfl⟩)
        · cases heq
          exact .inr (.inr ⟨_, rfl⟩)
        · cases heq
  subst hp
  rcases hall with heq | ⟨now, heq⟩ | ⟨a, heq⟩
  · cases heq
    cases hk
  · cases heq
    exact ⟨now, rfl⟩
  · cases heq

end Platform

/-! ## The platform and its agents -/

namespace Protocol
open Agent.Run (Process Result Started reportBody)

section Worlds
variable {S : Setting} {clock : Int} {actions : Table RemediationAction} {hosts : Table MonitoredHost} {w w' : World}

/-- The calls received so far, and sweeps for ever after. -/
def World.ops (w : World) (i : Nat) : Op := (w.server.received.getD i (none, .sweepExecutions)).2

def World.system (S : Setting) (w : World) : System :=
  w.server.close S.call fun i => w.server.received.getD i (none, .sweepExecutions)

theorem World.ops_eq {i : Nat} {x : Option Nat × Op} (h : w.server.received[i]? = some x) : w.ops i = x.2 := by
  rw [World.ops, List.getD_eq_getElem?_getD, h, Option.getD_some]

theorem World.system_calls {i : Nat} {x : Option Nat × Op} (h : w.server.received[i]? = some x) :
    (w.system S).calls i = w.server.calls i :=
  Open.close_calls (List.getElem?_eq_some_iff.mp h).1 _

theorem Inv.follows (h : Inv S w ⟨clock, actions, hosts, .empty, []⟩) :
    Follows S.sha256 (Remediation.start S.sha256 S.hashtext w.ops clock actions hosts) (w.system S) :=
  h.served _ (Open.completes_getD _ _)

/-- What a process got, the platform handed out. -/
theorem Inv.handed (h : Inv S w ⟨clock, actions, hosts, .empty, []⟩) {x : Held} (hx : Got S w x) :
    ∃ d i, x.job = d.job S.idText ∧ w.server.received[i]?.map Prod.fst = some (some x.request) ∧
      (w.system S).calls i = .ret (.claimed (some d)) ∧
      Handed (.claimNextExecution (S.agents x.agent).orgId (S.agents x.agent).hostId) d w.server.store := by
  obtain ⟨-, i, d, hi, hret, hjob⟩ := hx
  have hcall : (w.system S).calls i = .ret (.claimed (some d)) := (World.system_calls hi).trans hret
  have hhanded := (good_of_reach h.follows).post hcall d rfl
  rw [World.ops_eq hi] at hhanded
  exact ⟨d, i, hjob, by rw [hi]; rfl, hcall, hhanded⟩

theorem Inv.request_inj (hids : ∀ id, S.idOf (S.idText id) = some id) (h : Inv S w ⟨clock, actions, hosts, .empty, []⟩)
    {x y : Held} (hx : Got S w x) (hy : Got S w y) (hid : x.job.id = y.job.id) : x.request = y.request := by
  obtain ⟨d, i, hjob, hi, hcall, -⟩ := h.handed hx
  obtain ⟨d', j, hjob', hj, hcall', -⟩ := h.handed hy
  have htext : S.idText d.id = S.idText d'.id := by
    rw [hjob, hjob'] at hid
    exact hid
  have hids' : d.id = d'.id := Option.some.inj ((hids d.id).symm.trans ((congrArg S.idOf htext).trans (hids d'.id)))
  obtain rfl := deliveredOnce_of_reach h.follows hcall hcall' hids'
  exact Option.some.inj (Option.some.inj (hi.symm.trans hj))

theorem inv_of_run {es : List Event} (h : (World.start clock actions hosts).run S es = some w) :
    Inv S w ⟨clock, actions, hosts, .empty, []⟩ := (Inv.start S clock actions hosts).run h

/-- One host that runs anything, and constant digests. -/
def sampleSetting : Setting where
  sha256 := scriptSha256 fun _ => stateDigest
  hashtext := fun _ => 0
  hmac := fun _ _ => stateDigest
  digest := fun _ => stateDigest
  quote := id
  idText := idNumber
  idOf := numberOf
  agents := fun _ => ⟨1, 0, "s3cret", anyPolicy⟩

/-- A run asked for, taken and executed; its first report is lost, and the second is answered. -/
def sampleEvents : List Event :=
  [.arrive (.requestRun ⟨7, 1, .operator⟩ 0 (some 0)), .serve 0, .serve 0, .serve 0, .serve 0, .serve 0, .serve 0,
    .ask 0, .deliver 0, .serve 1, .serve 1, .serve 1,
    .hear 0 1 (1758000000 * 10 ^ 9) (Telemetry.signResponse sampleSetting.hmac ["s3cret"] "" 1758000000000),
    .execute 0 (stateProcess []), .finish 0, .retry 0, .deliver 2, .serve 2, .serve 2, .answered 0 2]

/-- The one run of a world, the report on it that was answered and its execution. -/
def World.settled? (S : Setting) (w : World) : Option ((Held × Process) × Op × Bool × RemediationExecution) :=
  match w.started, w.ran, w.server.received[2]?, w.server.calls 2, w.server.store.executions.rows with
  | [_], [x], some (some 2, op), .ret (.recorded b), [e] =>
    if w.sent[2]? = some (.report x.1.agent (reportBody (S.result x.1.agent x.1.job x.2))) ∧ S.idText e.id = x.1.job.id ∧
        e.startedAt.isSome = true then some (x, op, b, e) else none
  | _, _, _, _, _ => none

theorem sample_settled : ∃ w x op b e, (World.start 0 sampleActions sampleHosts).run sampleSetting sampleEvents = some w ∧
    w.settled? sampleSetting = some (x, op, b, e) := by
  have hrun : (((World.start 0 sampleActions sampleHosts).run sampleSetting sampleEvents).any fun w =>
      (w.settled? sampleSetting).isSome) = true := by decide +kernel
  obtain ⟨w, hw, hsettled⟩ := (Option.any_eq_true _ _).mp hrun
  obtain ⟨⟨x, op, b, e⟩, hsome⟩ := Option.isSome_iff_exists.mp hsettled
  exact ⟨w, x, op, b, e, hw, hsome⟩

/-- What `settled?` found. -/
theorem of_settled {x : Held × Process} {op : Op} {b : Bool} {e : RemediationExecution}
    (h : w.settled? S = some (x, op, b, e)) : (∃ y, w.started = [y]) ∧ x ∈ w.ran ∧
      w.sent[2]? = some (.report x.1.agent (reportBody (S.result x.1.agent x.1.job x.2))) ∧
      w.server.received[2]? = some (some 2, op) ∧ w.server.calls 2 = .ret (.recorded b) ∧
      e ∈ w.server.store.executions ∧ S.idText e.id = x.1.job.id ∧ e.startedAt.isSome = true := by
  unfold World.settled? at h
  split at h
  · rename_i y x' op' b' e' hstarted hran hreceived hcalls hrows
    split_ifs at h with hall
    cases h
    refine ⟨⟨y, hstarted⟩, ?_, hall.1, hreceived, hcalls, ?_, hall.2⟩
    · rw [hran]
      exact List.mem_singleton_self x
    · show e ∈ w.server.store.executions.rows
      rw [hrows]
      exact List.mem_singleton_self e
  · cases h

/-- What is started was not refused by the policy of its host, and is what was created for that host. -/
theorem scripts_as_created {es : List Event} (h : (World.start clock actions hosts).run S es = some w) :
    ∀ x ∈ w.started, Agent.refusal S.digest S.quote (S.agents x.agent).policy x.job = none ∧
      ∃ d, x.job = d.job S.idText ∧ ∀ e ∈ w.server.store.executions, e.id = d.id →
        e.orgId = (S.agents x.agent).orgId ∧ e.hostId = some (S.agents x.agent).hostId ∧ e.delivered = d ∧
          e.scriptSha256 = S.sha256 e.scriptBody ∧ e.startedAt.isSome = true := by
  have hinv := inv_of_run h
  intro x hx
  obtain ⟨hgot, hallowed⟩ := hinv.started x hx
  obtain ⟨d, i, hjob, -, hcall, orgId, hostId, hop, -, hrows⟩ := hinv.handed hgot
  cases hop
  refine ⟨hallowed, d, hjob, fun e he hid => ?_⟩
  obtain ⟨horg, hhost, hdelivered, -⟩ := hrows e he hid
  exact ⟨horg, hhost, hdelivered, ((good_of_reach hinv.follows).1.lived e he).sha256_eq,
    started_of_handed hinv.follows hcall e he hid⟩

theorem scripts_as_created_sample : ∃ w y, (World.start 0 sampleActions sampleHosts).run sampleSetting sampleEvents = some w ∧
    y ∈ w.started ∧ Agent.refusal sampleSetting.digest sampleSetting.quote anyPolicy y.job = none := by
  obtain ⟨w, x, op, b, e, hw, hsettled⟩ := sample_settled
  obtain ⟨y, hy⟩ := (of_settled hsettled).1
  have hmem : y ∈ w.started := by
    rw [hy]
    exact List.mem_singleton_self y
  exact ⟨w, y, hw, hmem, (scripts_as_created hw y hmem).1⟩

/-! ## Reports -/

theorem executionId_result (a : Nat) (job : Agent.Job) (p : Process) : (S.result a job p).executionId = job.id := by
  unfold Setting.result Agent.Run.run
  split
  · rfl
  · split
    · rfl
    · split <;> rfl

/-- The call that a report leads to. -/
theorem op_report {a : Nat} {body : String} {op : Op} (h : S.op? (.report a body) = some op) :
    ∃ input, op = .recordExecutionResult (S.agents a).orgId (S.agents a).hostId input ∧ readResult S.idOf body =
      .ok input := by
  unfold Setting.op? at h
  obtain ⟨input, hinput, rfl⟩ := Option.map_eq_some_iff.mp h
  refine ⟨input, rfl, ?_⟩
  cases hread : readResult S.idOf body with
  | error e =>
      rw [hread] at hinput
      cases hinput
  | ok input' =>
      rw [hread] at hinput
      exact congrArg Except.ok (Option.some.inj hinput)

/-- The call of a report is that of a run, by the process of its host, and names the execution that was run. -/
theorem Inv.reported (hids : ∀ id, S.idOf (S.idText id) = some id) (h : Inv S w ⟨clock, actions, hosts, .empty, []⟩) {i : Nat}
    {tag : Option Nat} {orgId hostId : Nat} {input : ExecutionResultInput}
    (hi : w.server.received[i]? = some (tag, .recordExecutionResult orgId hostId input)) :
    ∃ x ∈ w.ran, (S.agents x.1.agent).orgId = orgId ∧ (S.agents x.1.agent).hostId = hostId ∧
      readResult S.idOf (reportBody (S.result x.1.agent x.1.job x.2)) = .ok input ∧
      ∃ d j, x.1.job = d.job S.idText ∧ d.id = input.executionId ∧ (w.system S).calls j = .ret (.claimed (some d)) ∧
        Handed (.claimNextExecution orgId hostId) d w.server.store := by
  cases tag with
  | none =>
      have hno : true = false := h.outside i _ hi
      cases hno
  | some q =>
      obtain ⟨r, hr, hop⟩ := h.requested i q _ hi
      cases r with
      | next a => cases hop
      | report a body =>
          obtain ⟨x, hx, rfl, hbody⟩ := h.reports q a body hr
          obtain ⟨input', hcall, hread⟩ := op_report hop
          obtain ⟨horg, hhost, rfl⟩ := Op.recordExecutionResult.inj hcall.symm
          rw [hbody] at hread
          obtain ⟨d, j, hjob, -, hcall, hhanded⟩ := h.handed (h.ran x hx)
          rw [horg, hhost] at hhanded
          refine ⟨x, hx, horg, hhost, hread, d, j, hjob, ?_, hcall, hhanded⟩
          have hid := executionId_of_readResult S.idOf hread
          rw [executionId_result, hjob] at hid
          exact Option.some.inj ((hids d.id).symm.trans hid)

theorem World.received_of_ops {i orgId hostId : Nat} {input : ExecutionResultInput}
    (h : w.ops i = .recordExecutionResult orgId hostId input) :
    ∃ tag, w.server.received[i]? = some (tag, .recordExecutionResult orgId hostId input) := by
  unfold World.ops at h
  rw [List.getD_eq_getElem?_getD] at h
  cases hget : w.server.received[i]? with
  | none =>
      rw [hget] at h
      cases h
  | some x =>
      rw [hget, Option.getD_some] at h
      exact ⟨x.1, by rw [← h]⟩

/-- Given up after its time. -/
def Lost (e : RemediationExecution) : Prop := ∃ (e₀ : RemediationExecution) (t : Int), e₀.lost t = true ∧ e = e₀.timeOut t

/-- Holds what was reported of the run. -/
def Holds (S : Setting) (x : Held × Process) (e : RemediationExecution) : Prop :=
  ∃ (input : ExecutionResultInput) (e₀ : RemediationExecution) (now : Int),
    readResult S.idOf (reportBody (S.result x.1.agent x.1.job x.2)) = .ok input ∧ e = e₀.storeResult input now

theorem Inv.outcome (hids : ∀ id, S.idOf (S.idText id) = some id) (hinv : Inv S w ⟨clock, actions, hosts, .empty, []⟩)
    {e : RemediationExecution} (he : e ∈ w.server.store.executions) (hst : e.startedAt.isSome = true) :
    e.status = .running ∨ Lost e ∨ ∃ x ∈ w.ran, (S.agents x.1.agent).orgId = e.orgId ∧
      some (S.agents x.1.agent).hostId = e.hostId ∧ x.1.job = e.delivered.job S.idText ∧ Holds S x e := by
  rcases settled_of_reach hinv.follows e he hst with hrun | hlost | ⟨i, hostId, input, e₀, now, hop, hid, hhost, heq⟩
  · exact .inl hrun
  · exact .inr (.inl hlost)
  · obtain ⟨tag, hi⟩ := World.received_of_ops hop
    obtain ⟨x, hx, horg', hhost', hread, d, j, hjob, hdid, -, orgId, hostId', -, -, hrows⟩ := hinv.reported hids hi
    obtain ⟨-, -, rfl, -⟩ := hrows e he (hid.trans hdid.symm)
    exact .inr (.inr ⟨x, hx, horg', (congrArg some hhost').trans hhost.symm, hjob, input, e₀, now, hread, heq⟩)

/-- **What is stored of a run is its outcome**: an execution that was started is running, was given up after its time, or
holds what a process of its host reported, and that process ran what the execution says. -/
theorem outcomes_are_of_runs (hids : ∀ id, S.idOf (S.idText id) = some id) {es : List Event}
    (h : (World.start clock actions hosts).run S es = some w) :
    ∀ e ∈ w.server.store.executions, e.startedAt.isSome = true → e.status = .running ∨ Lost e ∨
      ∃ x ∈ w.ran, (S.agents x.1.agent).orgId = e.orgId ∧ some (S.agents x.1.agent).hostId = e.hostId ∧
        x.1.job = e.delivered.job S.idText ∧ Holds S x e :=
  fun _ he hst => (inv_of_run h).outcome hids he hst

theorem outcomes_are_of_runs_sample :
    ∃ w e, (World.start 0 sampleActions sampleHosts).run sampleSetting sampleEvents = some w ∧
    e ∈ w.server.store.executions ∧ (e.status = .running ∨ Lost e ∨ ∃ x ∈ w.ran, Holds sampleSetting x e) := by
  obtain ⟨w, x, op, b, e, hw, hsettled⟩ := sample_settled
  obtain ⟨-, -, -, -, -, he, -, hst⟩ := of_settled hsettled
  refine ⟨w, e, hw, he, ?_⟩
  rcases outcomes_are_of_runs numberOf_idNumber hw e he hst with hrun | hlost | ⟨x, hx, -, -, -, hholds⟩
  · exact .inl hrun
  · exact .inr (.inl hlost)
  · exact .inr (.inr ⟨x, hx, hholds⟩)

/-! ## Answers -/

/-- What an event does to the platform. -/
theorem step_server {e : Event} (h : w.step S e = some w') :
    w'.server = w.server ∨ (∃ x, w'.server = w.server.receive S.call x) ∨
      ∃ i, w.server.serve (sem S.sha256) i = some w'.server := by
  cases e with
  | arrive op =>
      simp only [World.step] at h
      split_ifs at h
      cases h
      exact .inr (.inl ⟨_, rfl⟩)
  | serve i =>
      obtain ⟨server, hserve, rfl⟩ := Option.map_eq_some_iff.mp h
      exact .inr (.inr ⟨i, hserve⟩)
  | deliver q =>
      obtain ⟨op, -, rfl⟩ := Option.map_eq_some_iff.mp h
      exact .inr (.inl ⟨_, rfl⟩)
  | ask a =>
      simp only [World.step] at h
      split at h
      · split_ifs at h
        cases h
        exact .inl rfl
      · cases h
  | hear a i now signature =>
      simp only [World.step] at h
      split at h
      · split_ifs at h
        split at h <;> cases h <;> exact .inl rfl
      · cases h
  | execute a p =>
      simp only [World.step] at h
      split at h
      · cases h
        split <;> exact .inl rfl
      · cases h
  | finish a =>
      simp only [World.step] at h
      split at h <;> cases h
      exact .inl rfl
  | retry a =>
      simp only [World.step] at h
      split at h
      · split_ifs at h
        cases h
        exact .inl rfl
      · cases h
  | answered a i =>
      simp only [World.step] at h
      split at h
      · split_ifs at h
        cases h
        exact .inl rfl
      · cases h
  | stop a =>
      cases h
      exact .inl rfl

/-- Once the call of a report has returned, the execution it names has ended. -/
def Answered (server : Open (Option Nat × Op) Stmt Store Outcome) : Prop := ∀ (i : Nat) tag orgId hostId input b,
  server.received[i]? = some (tag, .recordExecutionResult orgId hostId input) → server.calls i = .ret (.recorded b) →
    ∀ e ∈ server.store.executions, e.id = input.executionId → e.status.final = true

theorem Answered.receive {server : Open (Option Nat × Op) Stmt Store Outcome} (h : Answered server) (x : Option Nat × Op) :
    Answered (server.receive S.call x) := by
  intro i tag orgId hostId input b hi hret
  rcases getElem?_snoc hi with hi | ⟨rfl, rfl⟩
  · rw [Open.receive_calls (List.getElem?_eq_some_iff.mp hi).1] at hret
    exact h i tag orgId hostId input b hi hret
  · have hcall : (server.receive S.call (tag, .recordExecutionResult orgId hostId input)).calls server.received.length =
        S.call (tag, .recordExecutionResult orgId hostId input) := Function.update_self ..
    rw [hcall] at hret
    cases hret

theorem final_of_not {status : ExecutionStatus} (hwaiting : status.waiting = false) (hrunning : status ≠ .running) :
    status.final = true := by
  cases status <;> simp_all [ExecutionStatus.waiting, ExecutionStatus.final]

theorem Answered.serve (hids : ∀ id, S.idOf (S.idText id) = some id) (hinv : Inv S w ⟨clock, actions, hosts, .empty, []⟩)
    (h : Answered w.server) {j : Nat} {server : Open (Option Nat × Op) Stmt Store Outcome}
    (hs : w.server.serve (sem S.sha256) j = some server) : Answered server := by
  intro i tag orgId hostId input b hi hret e' he' hid
  rw [Open.serve_received hs] at hi
  obtain ⟨x, -, -, -, -, d, -, -, hdid, -, orgId', hostId', hop, hlt, hrows⟩ := hinv.reported hids hi
  cases hop
  obtain ⟨-, stmt, k, s', hstmt, hsem, rfl⟩ := Open.serve_eq_some.mp hs
  by_cases hij : i = j
  · subst hij
    have hlast : k w.server.store = .ret (.recorded b) := by simpa using hret
    -- the report is stored, or its execution was not running any more
    have hres := (hinv.follows (S := S)).residual i
    rw [World.system_calls hi, hstmt] at hres
    have hstart : ((Op.recordExecutionResult orgId hostId input).call S.sha256 S.hashtext).Residual (.stmt stmt k) := by
      have hops := World.ops_eq hi
      change ((w.ops i).call S.sha256 S.hashtext).Residual _ at hres
      rwa [hops] at hres
    obtain ⟨now, rfl⟩ := residual_record hstart rfl hlast
    cases hsem
    obtain ⟨e, he, rfl⟩ := List.mem_map.mp he'
    split
    · exact input.status.final
    · rename_i hp
      rw [if_neg hp] at hid
      obtain ⟨horg, hhost, -, hwaiting⟩ := hrows e he (hid.trans hdid.symm)
      refine final_of_not hwaiting fun hrunning => hp ?_
      simp [hid, horg, hhost, hrunning]
  · have hbefore : w.server.calls i = .ret (.recorded b) := by simpa [Function.update_of_ne hij] using hret
    obtain ⟨e, he, hkey, hm⟩ := (sem_evolves hsem).old e' he' (show e'.id < _ by rw [hid, ← hdid]; exact hlt)
    have hfinal := h i tag orgId hostId input b hi hbefore e he (hkey.trans hid)
    rwa [hm.eq_of_final hfinal]

theorem answered_of_run (hids : ∀ id, S.idOf (S.idText id) = some id) {es : List Event}
    (hinv : Inv S w ⟨clock, actions, hosts, .empty, []⟩) (h : Answered w.server) (hs : w.run S es = some w') :
    Answered w'.server := by
  induction es generalizing w with
  | nil =>
      cases hs
      exact h
  | cons e es ih =>
      obtain ⟨w₁, hw₁, hs⟩ := Option.bind_eq_some_iff.mp hs
      refine ih (hinv.step hw₁) ?_ hs
      rcases step_server hw₁ with heq | ⟨x, heq⟩ | ⟨i, hserve⟩
      · rwa [heq]
      · rw [heq]
        exact h.receive x
      · exact h.serve hids hinv hserve

/-- **An answered report settles its execution**: what is stored from then on is the outcome of that run, unless the execution
was given up after its time, or is gone with its action. Answered is a report whose call has returned, with 200 if it stored
the outcome and with 409 if it did not; one that is refused with another status leaves the execution as it is. -/
theorem answered_reports_settle (hids : ∀ id, S.idOf (S.idText id) = some id) {es : List Event}
    (h : (World.start clock actions hosts).run S es = some w) {x : Held × Process} (hx : x ∈ w.ran) {q i : Nat} {op : Op}
    {b : Bool}
    (hq : w.sent[q]? = some (.report x.1.agent (reportBody (S.result x.1.agent x.1.job x.2))))
    (hi : w.server.received[i]? = some (some q, op)) (hret : w.server.calls i = .ret (.recorded b)) :
    ∀ e ∈ w.server.store.executions, S.idText e.id = x.1.job.id → Lost e ∨ Holds S x e := by
  have hinv := inv_of_run h
  intro e he hid
  obtain ⟨r, hr, hop⟩ := hinv.requested i q op hi
  obtain rfl := Option.some.inj (hq.symm.trans hr)
  obtain ⟨input, hcall, hread⟩ := op_report hop
  rw [hcall] at hi
  -- the report names the execution, which has ended
  have hinput : e.id = input.executionId := by
    have hnamed := executionId_of_readResult S.idOf hread
    rw [executionId_result, ← hid] at hnamed
    exact Option.some.inj ((hids e.id).symm.trans hnamed)
  have hempty : Answered (World.start clock actions hosts).server := by
    intro i tag orgId hostId input b hi
    simp [World.start] at hi
  have hfinal := answered_of_run hids (Inv.start S clock actions hosts) hempty h i _ _ _ input b hi hret e he hinput
  obtain ⟨d, j, hjob, -, hclaimed, -⟩ := hinv.handed (hinv.ran x hx)
  have hd : e.id = d.id := by
    rw [hjob] at hid
    exact Option.some.inj ((hids e.id).symm.trans ((congrArg S.idOf hid).trans (hids d.id)))
  rcases hinv.outcome hids he (started_of_handed hinv.follows hclaimed e he hd) with hrun | hlost | ⟨y, hy, -, -,
    hyjob, hholds⟩
  · rw [hrun] at hfinal
    cases hfinal
  · exact .inl hlost
  · -- the run that was stored is the one that was reported
    have hsame : y.1.request = x.1.request := by
      refine hinv.request_inj hids (hinv.ran y hy) (hinv.ran x hx) ?_
      rw [hyjob, ← hid]
      rfl
    obtain rfl := List.inj_on_of_nodup_map hinv.ranOnce.nodup hy hx hsame
    exact .inr hholds

theorem answered_reports_settle_sample : ∃ w x e,
    (World.start 0 sampleActions sampleHosts).run sampleSetting sampleEvents = some w ∧ x ∈ w.ran ∧
      e ∈ w.server.store.executions ∧ (Lost e ∨ Holds sampleSetting x e) := by
  obtain ⟨w, x, op, b, e, hw, hsettled⟩ := sample_settled
  obtain ⟨-, hx, hsent, hreceived, hcalls, he, hid, -⟩ := of_settled hsettled
  exact ⟨w, x, e, hw, hx, he, answered_reports_settle numberOf_idNumber hw hx hsent hreceived hcalls e he hid⟩

end Worlds

end Protocol

end IkelyaneMonitor.Remediation
