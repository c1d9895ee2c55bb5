import IkelyaneMonitor.Remediation.Law
import IkelyaneMonitor.Remediation.Rows

/-!
# Who decided that a script runs

* `Requested`, `Approved`, `Automatic` : the three ways an execution gets to wait for its agent;
* `Announced` : what is known of a statement that a call has before it; `Knows` : where a call stands, or that all its
  statements are known (`knows_of_reach`);
* `decided_of_reach` : every execution that waits for its agent or was started got there in one of the three ways.
-/

namespace IkelyaneMonitor.Remediation
open Interleave Auth

section Decisions
variable (ops : Nat → Op) (e : RemediationExecution)

/-- A person who may run scripts asked for it. -/
def Requested : Prop := ∃ i actor hostId, ops i = .requestRun actor e.actionId hostId ∧
  can actor.role .remediationRun = true ∧ actor.orgId = e.orgId ∧ e.requestedBy = some actor.userId

/-- A person who may run scripts approved it. -/
def Approved : Prop := ∃ i actor, ops i = .approveExecution actor e.id ∧ can actor.role .remediationRun = true ∧
  actor.orgId = e.orgId ∧ e.approvedBy = some actor.userId

/-- A rule that runs its action by itself did, and on the way from `c₀` to `c` there was a time when the action asked for no
approval. -/
def Automatic (sha256 : String → String) (c₀ c : System) : Prop := ∃ i incidentId incidentHost age,
  ops i = .triggerForIncident e.orgId (some e.actionId) true incidentId incidentHost age ∧ e.incidentId = some incidentId ∧
    ∃ c₁ action, Follows sha256 c₀ c₁ ∧ Follows sha256 c₁ c ∧ c₁.store.findAction e.actionId e.orgId = some action ∧
      action.requiresApproval = false

end Decisions

/-! ## Statements of a call -/

/-- Neither creates an execution nor approves one. -/
def Stmt.harmless : Stmt → Bool
  | .createExecution _ | .approve .. => false
  | _ => true

/-- All statements of the call satisfy `W`. -/
abbrev Emits (W : Stmt → Prop) (p : Call) : Prop := p.All (fun _ => True) W fun _ => True

/-- Creates executions for this input alone, and approves none. -/
def CreatesFor (input : CreateInput) (w : Stmt) : Prop :=
  (∀ d, w = .createExecution d → d.input = input ∧ d.action.id = input.actionId) ∧
    ∀ id violation approvedBy now, w ≠ .approve id violation approvedBy now

theorem CreatesFor.of_harmless {input : CreateInput} {w : Stmt} (h : w.harmless = true) : CreatesFor input w := by
  constructor
  · rintro d rfl
    cases h
  · rintro id violation approvedBy now rfl
    cases h

section Calls
variable {sha256 : String → String} {hashtext : String → Int}

theorem emits_insertExecution {input : CreateInput} {d : NewExecution} {k : Option CreatedExecution → Call}
    (hk : ∀ r, ∃ a, k r = .ret a) (hinput : d.input = input) (hid : d.action.id = input.actionId) :
    Emits (CreatesFor input) (insertExecution d k) := by
  refine ⟨⟨?_, fun _ _ _ _ => nofun⟩, fun s _ => ?_⟩
  · rintro _ ⟨⟩
    exact ⟨hinput, hid⟩
  · by_cases ha : (s.actions.get? d.action.id).isSome = true
    · obtain ⟨a, heq⟩ := hk (some ⟨s.executions.next, d.status, d.violation⟩)
      simp only [ha, if_true, heq]
      trivial
    · simp only [ha]
      trivial

theorem emits_createExecution {input : CreateInput} {now : Int} {k : Option CreatedExecution → Call}
    (hk : ∀ r, ∃ a, k r = .ret a) : Emits (CreatesFor input) (createExecution sha256 hashtext input now k) := by
  refine ⟨.of_harmless rfl, fun s _ => ?_⟩
  dsimp only
  split
  · obtain ⟨a, heq⟩ := hk none
    rw [heq]
    trivial
  · rename_i action hfind
    have hid : action.id = input.actionId := by
      have hp := List.find?_some hfind
      simp only [Bool.and_eq_true, beq_iff_eq] at hp
      exact hp.1
    have hinsert : ∀ (hostId : Option Nat) (violation : Option StatusReason),
        Emits (CreatesFor input) (insertExecution ⟨input, action, hostId, violation, now⟩ k) :=
      fun _ _ => emits_insertExecution hk rfl hid
    split
    · exact hinsert _ _
    · refine ⟨.of_harmless rfl, fun s _ => ?_⟩
      dsimp only
      split
      · exact hinsert _ _
      · exact ⟨.of_harmless rfl, fun _ _ => ⟨.of_harmless rfl, fun _ _ => hinsert _ _⟩⟩

theorem emits_claimNextExecution (orgId hostId : Nat) (now : Int) (attempts : Nat) :
    Emits (fun w => w.harmless = true) (claimNextExecution orgId hostId now attempts) := by
  induction attempts with
  | zero => trivial
  | succ attempts ih =>
      refine ⟨rfl, fun s _ => ?_⟩
      dsimp only
      split
      · trivial
      · refine ⟨rfl, fun s _ => ?_⟩
        dsimp only
        split
        · exact ih
        · trivial

theorem emits_withHostInOrg {orgId : Nat} {hostId : Option Nat} {k : Call} (hk : Emits (fun w => w.harmless = true) k) :
    Emits (fun w => w.harmless = true) (withHostInOrg orgId hostId k) := by
  cases hostId with
  | none => exact hk
  | some hostId =>
      refine ⟨rfl, fun s _ => ?_⟩
      dsimp only
      split
      · exact hk
      · trivial

/-- The calls that put no execution before an agent. -/
def Op.bystander : Op → Bool
  | .createExecution .. | .requestRun .. | .triggerForIncident .. | .approveExecution .. => false
  | _ => true

theorem emits_bystander {op : Op} (h : op.bystander = true) :
    Emits (fun w => w.harmless = true) (op.call sha256 hashtext) := by
  cases op with
  | createExecution | requestRun | triggerForIncident | approveExecution => cases h
  | cancelExecution actor id =>
      refine ⟨rfl, fun s _ => ?_⟩
      unfold cancelExecution
      split
      · trivial
      · refine ⟨rfl, fun s _ => ?_⟩
        dsimp only
        split
        · refine ⟨rfl, fun s _ => ?_⟩
          dsimp only
          split <;> trivial
        · trivial
  | claimNextExecution orgId hostId => exact ⟨rfl, fun s _ => emits_claimNextExecution orgId hostId s.clock 3⟩
  | recordExecutionResult orgId hostId input => exact ⟨rfl, fun _ _ => ⟨rfl, fun _ _ => trivial⟩⟩
  | sweepExecutions => exact ⟨rfl, fun _ _ => ⟨rfl, fun _ _ => ⟨rfl, fun _ _ => ⟨rfl, fun _ _ => trivial⟩⟩⟩⟩
  | createRemediationAction actor input =>
      rw [Op.call, Remediation.createRemediationAction]
      split
      · trivial
      · split
        · trivial
        · exact emits_withHostInOrg ⟨rfl, fun _ _ => trivial⟩
  | updateRemediationAction actor id input =>
      rw [Op.call, Remediation.updateRemediationAction]
      split
      · trivial
      · split
        · trivial
        · refine emits_withHostInOrg ⟨rfl, fun s _ => ?_⟩
          dsimp only
          split
          · refine ⟨rfl, fun s _ => ?_⟩
            dsimp only
            split <;> trivial
          · trivial
  | setRemediationActionEnabled actor id enabled =>
      rw [Op.call, Remediation.setRemediationActionEnabled]
      split
      · trivial
      · refine ⟨rfl, fun s _ => ?_⟩
        dsimp only
        split <;> trivial
  | deleteRemediationAction actor id =>
      rw [Op.call, Remediation.deleteRemediationAction]
      split
      · trivial
      · refine ⟨rfl, fun s _ => ?_⟩
        dsimp only
        split <;> trivial
  | updateHost host => exact ⟨rfl, fun _ _ => trivial⟩
  | tick ms => exact ⟨rfl, fun _ _ => trivial⟩

end Calls

/-! ## Where the calls stand -/

section Knowledge
variable (sha256 : String → String) (hashtext : String → Int) (ops : Nat → Op) (c₀ c : System)

/-- What the row of a new execution needs no approval for, and who an approval is by. -/
structure Announced (i : Nat) (w : Stmt) : Prop where
  created : ∀ d, w = .createExecution d → d.input.needsApproval = false → ∀ createdAt id,
    Requested ops (d.row sha256 createdAt id) ∨ Automatic ops (d.row sha256 createdAt id) sha256 c₀ c
  approved : ∀ id violation approvedBy now, w = .approve id violation approvedBy now → id < c.store.executions.next ∧
    ∃ actor, ops i = .approveExecution actor id ∧ can actor.role .remediationRun = true ∧ approvedBy = actor.userId ∧
      ∀ e ∈ c.store.executions, e.id = id → e.orgId = actor.orgId

/-- The call is before the read that decides what it may do, or all its statements are known. -/
inductive Knows (i : Nat) : Call → Prop
  | trigger {orgId actionId incidentId age : Nat} {auto : Bool} {incidentHost : Option Nat}
      (hop : ops i = .triggerForIncident orgId (some actionId) auto incidentId incidentHost age) :
      Knows i ((ops i).call sha256 hashtext)
  | triggered {orgId actionId incidentId age : Nat} {auto : Bool} {incidentHost : Option Nat} (now : Int)
      (hop : ops i = .triggerForIncident orgId (some actionId) auto incidentId incidentHost age) :
      Knows i (triggerForIncident sha256 hashtext orgId (some actionId) auto incidentId incidentHost now)
  | approve {actor : Actor} {id : Nat} (hop : ops i = .approveExecution actor id) :
      Knows i ((ops i).call sha256 hashtext)
  | approving {actor : Actor} {id : Nat} (now : Int) (hop : ops i = .approveExecution actor id) :
      Knows i (approveExecution actor id now)
  | known {W : Stmt → Prop} {p : Call} (hp : Emits W p) (hW : ∀ w, W w → Announced sha256 ops c₀ c i w) : Knows i p

variable {sha256 hashtext ops c₀ c} {c' : System} {i j : Nat}

theorem Announced.of_harmless {w : Stmt} (h : w.harmless = true) : Announced sha256 ops c₀ c i w := by
  constructor
  · rintro d rfl
    cases h
  · rintro id violation approvedBy now rfl
    cases h

theorem Automatic.step {e : RemediationExecution} (h : Automatic ops e sha256 c₀ c) (hs : c.step (sem sha256) j = some c') :
    Automatic ops e sha256 c₀ c' := by
  obtain ⟨i, incidentId, incidentHost, age, hop, hincident, c₁, action, hbefore, hafter, haction⟩ := h
  exact ⟨i, incidentId, incidentHost, age, hop, hincident, c₁, action, hbefore, hafter.step trivial hs, haction⟩

theorem Announced.step {w : Stmt} (h : Announced sha256 ops c₀ c i w) (hs : c.step (sem sha256) j = some c') :
    Announced sha256 ops c₀ c' i w := by
  obtain ⟨w', k, s', -, hsem, rfl⟩ := (Conf.step_eq_some _).mp hs
  have hev := sem_evolves hsem
  refine ⟨fun d hd hno createdAt id => ?_, fun id violation approvedBy now hw => ?_⟩
  · exact (h.created d hd hno createdAt id).imp_right fun hauto => hauto.step hs
  · obtain ⟨hlt, actor, hop, hcan, hby, hrows⟩ := h.approved id violation approvedBy now hw
    refine ⟨Nat.lt_of_lt_of_le hlt hev.next_le, actor, hop, hcan, hby, fun e' he' hid => ?_⟩
    obtain ⟨e, he, hkey, hm⟩ := hev.old e' he' (show e'.id < _ from hid ▸ hlt)
    rw [hm.orgId]
    exact hrows e he (hkey.trans hid)

theorem Knows.step {p : Call} (h : Knows sha256 hashtext ops c₀ c i p) (hs : c.step (sem sha256) j = some c') :
    Knows sha256 hashtext ops c₀ c' i p := by
  cases h with
  | trigger hop => exact .trigger hop
  | triggered now hop => exact .triggered now hop
  | approve hop => exact .approve hop
  | approving now hop => exact .approving now hop
  | known hp hW => exact .known hp fun w hw => (hW w hw).step hs

theorem knows_ret (a : Outcome) : Knows sha256 hashtext ops c₀ c i (.ret a) :=
  .known (W := fun _ => False) trivial fun _ hw => hw.elim

/-- What is known of the call that ran a statement on `c`. -/
theorem Knows.advance (hc : Follows sha256 c₀ c) {w : Stmt} {k : Store → Call}
    (h : Knows sha256 hashtext ops c₀ c i (.stmt w k)) : Knows sha256 hashtext ops c₀ c i (k c.store) := by
  generalize hp : Prog.stmt w k = p at h
  cases h with
  | trigger hop =>
      rw [hop] at hp
      cases hp
      exact .triggered _ hop
  | @triggered orgId actionId incidentId age auto incidentHost now hop =>
      cases hp
      dsimp only
      split
      · exact knows_ret _
      · rename_i action hfind
        refine .known (emits_createExecution fun r => ⟨_, rfl⟩) fun w hw => ⟨fun d hd hno createdAt id => ?_,
          fun _ _ _ _ hd => ?_⟩
        · obtain ⟨hinput, hid⟩ := hw.1 d hd
          rw [hinput] at hno
          simp only [Bool.or_eq_false_iff, Bool.not_eq_false'] at hno
          obtain ⟨rfl, happroval⟩ := hno
          refine .inr ⟨i, incidentId, incidentHost, age, ?_, ?_, c, action, hc, .refl, ?_, happroval⟩
          · show ops i = .triggerForIncident d.input.orgId (some d.action.id) true incidentId incidentHost age
            rw [hinput, hid]
            exact hop
          · show d.input.incidentId = _
            rw [hinput]
          · show c.store.findAction d.action.id d.input.orgId = _
            rw [hinput, hid]
            exact hfind
        · exact absurd hd (hw.2 _ _ _ _)
  | approve hop =>
      rw [hop] at hp
      cases hp
      exact .approving _ hop
  | @approving actor id now hop =>
      unfold approveExecution at hp
      split at hp
      · cases hp
      rename_i hcan
      cases hp
      dsimp only
      split
      · exact knows_ret _
      rename_i e hfind
      obtain ⟨he, hpe⟩ := Table.find?_mem hfind
      simp only [Bool.and_eq_true, beq_iff_eq] at hpe
      obtain ⟨hid, horg⟩ := hpe
      split
      · exact knows_ret _
      split
      · exact knows_ret _
      · refine .known (W := fun w => ∃ violation, w = .approve id violation actor.userId now) ⟨⟨_, rfl⟩, fun s _ => ?_⟩ ?_
        · dsimp only
          split <;> trivial
        · rintro _ ⟨violation, rfl⟩
          refine ⟨fun _ => nofun, ?_⟩
          rintro _ _ _ _ ⟨⟩
          refine ⟨hid ▸ c.store.executions.lt_next e he, actor, hop, by simpa using hcan, rfl, fun e' he' hid' => ?_⟩
          rw [Table.eq_of_key he' he (hid'.trans hid.symm)]
          exact horg
  | known hW hann =>
      subst hp
      exact .known (hW.2 c.store trivial) hann

theorem knows_start (hops : ∀ i input age, ops i ≠ .createExecution input age) (i : Nat) :
    Knows sha256 hashtext ops c₀ c i ((ops i).call sha256 hashtext) := by
  cases hop : ops i with
  | createExecution input age => exact absurd hop (hops i input age)
  | triggerForIncident orgId actionId auto incidentId incidentHost age =>
      cases actionId with
      | none => exact .known (W := fun w => w.harmless = true) ⟨rfl, fun _ _ => trivial⟩ fun w hw => .of_harmless hw
      | some actionId =>
          rw [← hop]
          exact .trigger hop
  | approveExecution actor id =>
      rw [← hop]
      exact .approve hop
  | requestRun actor actionId hostId =>
      rw [Op.call, Remediation.requestRun]
      split
      · exact knows_ret _
      · rename_i hcan
        refine .known (W := CreatesFor ⟨actor.orgId, actionId, hostId, .manual, none, some actor.userId, false⟩)
          ⟨.of_harmless rfl, fun s _ => emits_createExecution fun r => ?_⟩ fun w hw =>
            ⟨fun d hd _ createdAt id => ?_, fun _ _ _ _ hd => absurd hd (hw.2 _ _ _ _)⟩
        · cases r <;> exact ⟨_, rfl⟩
        · obtain ⟨hinput, hid⟩ := hw.1 d hd
          refine .inl ⟨i, actor, hostId, ?_, by simpa using hcan, ?_, ?_⟩
          · show ops i = .requestRun actor d.action.id hostId
            rw [hid]
            exact hop
          · show actor.orgId = d.input.orgId
            rw [hinput]
          · show d.input.requestedBy = _
            rw [hinput]
  | _ => exact .known (emits_bystander rfl) fun w hw => .of_harmless hw

variable {clock : Int} {actions : Table RemediationAction} {hosts : Table MonitoredHost}

theorem knows_of_reach (hops : ∀ i input age, ops i ≠ .createExecution input age)
    (h : Follows sha256 (start sha256 hashtext ops clock actions hosts) c) (i : Nat) :
    Knows sha256 hashtext ops (start sha256 hashtext ops clock actions hosts) c i (c.calls i) := by
  induction h with
  | refl => exact knows_start hops i
  | @step c₁ c₂ j hr _ hs ih =>
      refine Knows.step ?_ hs
      obtain ⟨w, k, s', hw, -, rfl⟩ := (Conf.step_eq_some _).mp hs
      by_cases hij : i = j
      · subst hij
        rw [hw] at ih
        simpa only [Function.update_self] using ih.advance hr
      · simpa only [Function.update_of_ne hij] using ih

end Knowledge

/-- What is known of the statement that a call runs next. -/
theorem Knows.announced {sha256 : String → String} {hashtext : String → Int} {ops : Nat → Op} {c₀ c : System} {i : Nat}
    {w : Stmt} {k : Store → Call} (h : Knows sha256 hashtext ops c₀ c i (.stmt w k)) : Announced sha256 ops c₀ c i w := by
  generalize hp : Prog.stmt w k = p at h
  cases h with
  | trigger hop | approve hop =>
      rw [hop] at hp
      cases hp
      exact .of_harmless rfl
  | triggered now hop =>
      cases hp
      exact .of_harmless rfl
  | approving now hop =>
      unfold approveExecution at hp
      split at hp <;> cases hp
      exact .of_harmless rfl
  | known hW hann =>
      subst hp
      exact hann w hW.1

/-! ## Every execution -/

section Executions
variable {sha256 : String → String} {hashtext : String → Int} {ops : Nat → Op} {clock : Int}
  {actions : Table RemediationAction} {hosts : Table MonitoredHost} {c : System}

/-- Where `createExecution` is left to `requestRun` and `triggerForIncident`, no script gets to wait for its agent, or was
started, without one of the three decisions. -/
theorem decided_of_reach (hops : ∀ i input age, ops i ≠ .createExecution input age)
    (h : Follows sha256 (start sha256 hashtext ops clock actions hosts) c) :
    ∀ e ∈ c.store.executions, e.status = .pending ∨ e.startedAt.isSome = true →
      Requested ops e ∨ Approved ops e ∨ Automatic ops e sha256 (start sha256 hashtext ops clock actions hosts) c := by
  induction h with
  | refl => exact fun e he => absurd he (Table.not_mem_empty e)
  | @step c₁ c₂ i hr _ hs ih =>
      have hlived := (good_of_reach hr).1.lived
      have hknows := knows_of_reach hops hr i
      obtain ⟨w, k, s', hw, hsem, hc₂⟩ := (Conf.step_eq_some _).mp hs
      rw [hw] at hknows
      have hann := hknows.announced
      have hstore : c₂.store = s' := by rw [hc₂]
      intro e' he' hlet
      rw [hstore] at he'
      -- an old decision stands, whatever else the statement stored in the row
      have hold : ∀ e ∈ c₁.store.executions, e.status = .pending ∨ e.startedAt.isSome = true →
          Requested ops e ∨ Approved ops e ∨ Automatic ops e sha256 (start sha256 hashtext ops clock actions hosts) c₂ :=
        fun e he hl => (ih e he hl).imp_right (Or.imp_right fun hauto => hauto.step hs)
      rcases row_of_sem hsem he' with he | ⟨d, rfl, rfl⟩ | ⟨e, he, hchanged⟩
      · exact hold e' he hlet
      · have hstatus : d.status = .pending := by
          rcases hlet with hlet | hlet
          · exact hlet
          · cases hlet
        have hno : d.input.needsApproval = false := by
          rw [NewExecution.status] at hstatus
          split at hstatus
          · cases hstatus
          · split at hstatus
            · cases hstatus
            · simpa using ‹¬ d.input.needsApproval = true›
        exact (hann.created d rfl hno _ _).imp_right fun hauto => .inr (hauto.step hs)
      · cases hchanged with
        | approve violation approvedBy now hstatus =>
            obtain ⟨-, actor, hop, hcan, rfl, horg⟩ := hann.approved e.id violation approvedBy now rfl
            exact .inr (.inl ⟨i, actor, hop, hcan, (horg e he rfl).symm, rfl⟩)
        | cancel reason now hstatus =>
            rcases hlet with hlet | hlet
            · cases hlet
            · have hwaiting := (hlived e he).not_waiting hlet
              rcases hstatus with hstatus | hstatus <;> rw [hstatus] at hwaiting <;> cases hwaiting
        | claim now hstatus => exact hold e he (.inl hstatus)
        | storeResult now _ _ hstatus => exact hold e he (.inr ((hlived e he).startedAt hstatus))
        | timeOut t hstatus _ => exact hold e he (.inr ((hlived e he).startedAt hstatus))

end Executions

theorem decided_sample : ∃ c, (sample sampleCalls).run (sem fun body => body) [0, 0, 0, 0, 0, 0, 1, 1, 1, 2, 2] = some c ∧
    ∃ e ∈ c.store.executions, e.status = .succeeded ∧ Requested (fun i => sampleCalls.getD i (.tick 1)) e := by
  have hrun : ((sample sampleCalls).run (sem fun body => body) [0, 0, 0, 0, 0, 0, 1, 1, 1, 2, 2]).any (fun c =>
      c.store.executions.rows.any fun e => decide (e.status = .succeeded) && e.startedAt.isSome && e.requestedBy.isSome &&
        e.approvedBy.isNone && e.incidentId.isNone) = true := by decide
  obtain ⟨c, hc, hrows⟩ := (Option.any_eq_true _ _).mp hrun
  obtain ⟨e, he, hp⟩ := List.any_eq_true.mp hrows
  simp only [Bool.and_eq_true, decide_eq_true_eq, Option.isNone_iff_eq_none] at hp
  obtain ⟨⟨⟨⟨hstatus, hstarted⟩, -⟩, happroved⟩, hincident⟩ := hp
  have hops : ∀ i input age, sampleCalls.getD i (.tick 1) ≠ .createExecution input age := by
    rintro (_ | _ | _ | i) input age hop <;> cases hop
  refine ⟨c, hc, e, he, hstatus, ?_⟩
  rcases decided_of_reach hops (Reach.of_run hc) e he (.inr hstarted) with h | h | h
  · exact h
  · obtain ⟨_, _, _, _, _, hby⟩ := h
    rw [happroved] at hby
    cases hby
  · obtain ⟨_, _, _, _, _, hby, -⟩ := h
    rw [hincident] at hby
    cases hby

end IkelyaneMonitor.Remediation
