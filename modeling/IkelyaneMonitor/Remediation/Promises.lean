import IkelyaneMonitor.Interleave.RelyGuarantee
import IkelyaneMonitor.Remediation.Lifecycle

/-!
# What the calls of the remediation system promise each other

* `Admits action h now s` : the executions of the action on host `h` leave room for one created at `now`; `admits_of_guard` :
  passing the guard-rails on what the lookback query returned means that;
* `Admitted` : what `createExecution` knows when it writes the row, its advisory lock held; `Handed` : what is known of a
  job an agent was handed;
* `promises` : the specification of the system, with the invariant `Inv`; `call_sat` : every call keeps it;
  `good_of_reach` : so it holds in every state reached from `start`.
-/

namespace IkelyaneMonitor.Remediation
open Interleave

/-- An execution of this action on this host. -/
def RemediationExecution.on (e : RemediationExecution) (actionId hostId : Nat) : Bool :=
  e.actionId == actionId && e.hostId == some hostId

theorem Moves.on {e e' : RemediationExecution} (h : Moves e e') (a hostId : Nat) : e'.on a hostId = e.on a hostId := by
  simp only [RemediationExecution.on, h.actionId, h.hostId]

/-! ## Room under the guard-rails -/

/-- Counted by the hourly limit at `now`. -/
def RemediationExecution.inHour (e : RemediationExecution) (actionId hostId : Nat) (now : Int) : Bool :=
  e.on actionId hostId && e.status.counted && decide (now - e.createdAt < 3600000)

theorem Moves.inHour {e e' : RemediationExecution} (h : Moves e e') {a hostId : Nat} {now : Int}
    (hin : e'.inHour a hostId now = true) : e.inHour a hostId now = true := by
  simp only [RemediationExecution.inHour, Bool.and_eq_true] at hin ⊢
  rw [h.on, h.createdAt] at hin
  exact ⟨⟨hin.1.1, h.counted hin.1.2⟩, hin.2⟩

structure Admits (action : RemediationAction) (hostId : Nat) (now : Int) (s : Store) : Prop where
  spaced : ∀ e ∈ s.executions, e.on action.id hostId = true → e.status.counted = true →
    e.status.live = false ∧ e.createdAt + action.cooldownSec * 1000 ≤ now
  rate : s.executions.count (fun e => e.inHour action.id hostId now) < action.maxRunsPerHour

theorem mem_recent {s : Store} {a h : Nat} {since : Int} {e : RemediationExecution} (he : e ∈ s.executions)
    (hon : e.on a h = true) (hin : since ≤ e.createdAt ∨ e.status.live = true) :
    ⟨e.status, e.createdAt⟩ ∈ s.recent a h since := by
  refine List.mem_map.mpr ⟨e, List.mem_filter.mpr ⟨he, ?_⟩, rfl⟩
  simp only [RemediationExecution.on, Bool.and_eq_true] at hon
  simp only [hon, Bool.true_and, Bool.or_eq_true, decide_eq_true_eq]
  exact hin

/-- The rows the lookback leaves out are older than any limit. -/
theorem admits_of_guard {action : RemediationAction} {host : MonitoredHost} {sha : String} {now : Int} {s : Store}
    (h : guardrailViolation action.guardAction host.guardHost sha (s.recent action.id host.id (lookback action now)) now
      = none) : Admits action host.id now s := by
  obtain ⟨hrecent, hrate⟩ := guardrailViolation_eq_none h
  refine ⟨fun e he hon hc => ?_, ?_⟩
  · by_cases hin : lookback action now ≤ e.createdAt ∨ e.status.live = true
    · exact hrecent _ (mem_recent he hon hin) hc
    · simp only [not_or, Int.not_le, Bool.not_eq_true] at hin
      refine ⟨hin.2, ?_⟩
      have := hin.1
      unfold lookback at this
      omega
  · refine Nat.lt_of_le_of_lt (Nat.le_of_eq ?_) hrate
    rw [Store.recent, List.countP_map, List.countP_filter, Table.count]
    refine List.countP_congr fun e _ => ?_
    simp only [Function.comp, RemediationExecution.inHour, RemediationExecution.on, Bool.and_eq_true, Bool.or_eq_true,
      decide_eq_true_eq]
    constructor
    · rintro ⟨⟨hon, hc⟩, ht⟩
      refine ⟨⟨hc, ht⟩, hon, .inl ?_⟩
      unfold lookback
      omega
    · rintro ⟨⟨hc, ht⟩, hon, -⟩
      exact ⟨⟨hon, hc⟩, ht⟩

/-- Room stays while nobody creates an execution of the action on the host: what is counted has ended and stays as it is. -/
theorem Admits.evolves {action : RemediationAction} {hostId : Nat} {now : Int} {s s' : Store}
    {N : RemediationExecution → Prop}
    (h : Admits action hostId now s) (hev : s.executions.Evolves Moves N s'.executions)
    (hnew : ∀ e, N e → e.on action.id hostId = false) : Admits action hostId now s' where
  spaced := by
    intro e' he' hon hc
    by_cases hlt : key e' < s.executions.next
    · obtain ⟨e, he, -, hm⟩ := hev.old e' he' hlt
      rw [hm.on] at hon
      have hs := h.spaced e he hon (hm.counted hc)
      have hf : e.status.final = true := by
        have := hs.1
        rw [ExecutionStatus.live_eq_not_final] at this
        simpa using this
      rw [hm.eq_of_final hf]
      exact hs
    · rw [hnew e' (hev.new e' he' (Nat.not_lt.mp hlt))] at hon
      cases hon
  rate := by
    refine Nat.lt_of_le_of_lt (hev.countP_le ?_ ?_) h.rate
    · exact fun e e' hm hp => hm.inHour hp
    · intro e he hge
      simp only [RemediationExecution.inHour, hnew e (hev.new e he hge), Bool.false_and]

section Spec
variable (sha256 : String → String) (hashtext : String → Int)

/-- What `createExecution` knows when it writes its row. -/
def Admitted (i : Nat) (d : NewExecution) (s : Store) : Prop :=
  d.now ≤ s.clock ∧
    match d.hostId with
    | none => d.violation.isSome = true
    | some h => (lockKey hashtext d.action.id h, i) ∈ s.locks ∧ (d.violation = none → Admits d.action h d.now s)

/-- What is known of a job handed out by the call `op`. -/
def Handed (op : Op) (job : DeliveredExecution) (s : Store) : Prop :=
  ∃ orgId hostId, op = .claimNextExecution orgId hostId ∧ job.id < s.executions.next ∧
    ∀ e ∈ s.executions, e.id = job.id →
      e.orgId = orgId ∧ e.hostId = some hostId ∧ e.delivered = job ∧ e.status.waiting = false

structure Inv (s : Store) : Prop where
  locks : ∀ k i j, (k, i) ∈ s.locks → (k, j) ∈ s.locks → i = j
  live : ∀ e ∈ s.executions, ∀ e' ∈ s.executions, ∀ a h, e.on a h = true → e'.on a h = true →
    e.status.live = true → e'.status.live = true → e = e'
  lived : ∀ e ∈ s.executions, Lived sha256 e

/-- What a call may assume of the others: the executions move along the diagram, time does not go back, its advisory
locks stay its own, and nobody creates executions under them. -/
structure Rely (i : Nat) (s s' : Store) : Prop where
  evolves : s.executions.Evolves Moves (fun e => ∀ a h, e.on a h = true → (lockKey hashtext a h, i) ∉ s.locks) s'.executions
  clock : s.clock ≤ s'.clock
  locks : ∀ k, (k, i) ∈ s.locks → (k, i) ∈ s'.locks

def promises (ops : Nat → Op) : Spec Nat Stmt Store Outcome where
  inv := Inv sha256
  rely := fun i _ => Rely hashtext i
  guar := fun i s w _ p => (∀ d, w = .createExecution d → Admitted hashtext i d s) ∧
    (∀ orgId hostId input now, w = .storeResult orgId hostId input now →
      ops i = .recordExecutionResult orgId hostId input) ∧
    (∀ t, w = .expirePending t → t ≤ s.clock) ∧
    ∀ job, p = .ret (.claimed (some job)) →
      ∃ now, w = .claim job.id now ∧ ∃ e ∈ s.executions, e.id = job.id ∧ e.status = .pending
  post := fun i a s => ∀ job, a = .claimed (some job) → Handed (ops i) job s

variable {sha256 hashtext}

/-! ## Statements -/

theorem sem_inv {i : Nat} {w : Stmt} {s s' : Store} (hs : Inv sha256 s) (h : sem sha256 i w s = some s')
    (hw : ∀ d, w = .createExecution d → Admitted hashtext i d s) : Inv sha256 s' := by
  have hev := sem_evolves h
  refine ⟨?_, ?_, (sem_lived h).forall_mem (fun _ _ hl hm => hl.moves hm) (fun _ hl => hl) hs.lived⟩
  · cases w <;> simp only [sem] at h
    case advisoryLock key =>
      split at h <;> cases h
      rename_i hfree
      simp only [List.any_eq_true, Bool.and_eq_true, beq_iff_eq, bne_iff_ne, not_exists, not_and, Decidable.not_not] at hfree
      intro k a b ha hb
      simp only [List.mem_cons, Prod.mk.injEq] at ha hb
      rcases ha with ⟨hk, ha⟩ | ha <;> rcases hb with ⟨hk', hb⟩ | hb
      · exact ha.trans hb.symm
      · exact ha.trans (hfree _ hb hk).symm
      · exact (hfree _ ha hk').trans hb.symm
      · exact hs.locks k a b ha hb
    case deleteAction => split at h <;> cases h <;> exact hs.locks
    case createExecution d =>
      cases h
      intro k a b ha hb
      exact hs.locks k a b (List.mem_filter.mp ha).1 (List.mem_filter.mp hb).1
    all_goals
      cases h
      exact hs.locks
  · -- a live row just created would find any other live row of its pair in the lookback
    have hfresh : ∀ e' ∈ s'.executions, ∀ e ∈ s'.executions, ∀ a hst, e'.on a hst = true → e.on a hst = true →
        e'.status.live = true → e.status.live = true → s.executions.next ≤ key e' → key e < s.executions.next → False := by
      intro e' he' e he a hst hon' hon hl' hl hnew hold
      obtain ⟨d, rfl, rfl⟩ := hev.new e' he' hnew
      obtain ⟨-, had⟩ := hw d rfl
      have hv : d.violation = none := by
        cases hv : d.violation with
        | none => rfl
        | some r => simp [NewExecution.row, NewExecution.status, hv, ExecutionStatus.live] at hl'
      simp only [RemediationExecution.on, NewExecution.row, Bool.and_eq_true, beq_iff_eq] at hon'
      rw [hon'.2] at had
      obtain ⟨e₀, he₀, -, hm⟩ := hev.old e he hold
      rw [hm.on, ← hon'.1] at hon
      have hlive := hm.live hl
      have hc : e₀.status.counted = true := by
        cases hst : e₀.status <;> simp_all [ExecutionStatus.live, ExecutionStatus.counted]
      rw [((had.2 hv).spaced e₀ he₀ hon hc).1] at hlive
      cases hlive
    intro e he e' he' a hst hon hon' hl hl'
    by_cases hlt : key e < s.executions.next <;> by_cases hlt' : key e' < s.executions.next
    · obtain ⟨e₀, he₀, hk, hm⟩ := hev.old e he hlt
      obtain ⟨e₀', he₀', hk', hm'⟩ := hev.old e' he' hlt'
      rw [hm.on] at hon
      rw [hm'.on] at hon'
      have heq := hs.live e₀ he₀ e₀' he₀' a hst hon hon' (hm.live hl) (hm'.live hl')
      exact Table.eq_of_key he he' (by rw [← hk, ← hk', heq])
    · exact (hfresh e' he' e he a hst hon' hon hl' hl (Nat.not_lt.mp hlt') hlt).elim
    · exact (hfresh e he e' he' a hst hon hon' hl hl' (Nat.not_lt.mp hlt) hlt').elim
    · obtain ⟨d, hd, rfl⟩ := hev.new e he (Nat.not_lt.mp hlt)
      obtain ⟨d', hd', rfl⟩ := hev.new e' he' (Nat.not_lt.mp hlt')
      exact Table.eq_of_key he he' rfl

theorem mem_locks_of_sem {i j : Nat} {w : Stmt} {s s' : Store} (h : sem sha256 i w s = some s') (hj : j ≠ i) {k : Int}
    (hk : (k, j) ∈ s.locks) : (k, j) ∈ s'.locks := by
  cases w <;> simp only [sem] at h
  case advisoryLock =>
    split at h <;> cases h
    exact List.mem_cons_of_mem _ hk
  case deleteAction => split at h <;> cases h <;> exact hk
  case createExecution =>
    cases h
    exact List.mem_filter.mpr ⟨hk, by simpa using hj⟩
  all_goals
    cases h
    exact hk

/-- What one caller does is what the others rely on: rows are only created under a lock, and locks are exclusive. -/
theorem sem_rely {i j : Nat} {w : Stmt} {s s' : Store} (hs : Inv sha256 s) (h : sem sha256 i w s = some s')
    (hw : ∀ d, w = .createExecution d → Admitted hashtext i d s) (hj : j ≠ i) : Rely hashtext j s s' where
  evolves := by
    refine (sem_evolves h).mono (fun _ _ hm => hm) fun e he a hst hon hmem => ?_
    obtain ⟨d, rfl, rfl⟩ := he
    simp only [RemediationExecution.on, NewExecution.row, Bool.and_eq_true, beq_iff_eq] at hon
    obtain ⟨-, had⟩ := hw d rfl
    rw [hon.2] at had
    rw [← hon.1] at hmem
    exact hj (hs.locks _ _ _ hmem had.1)
  clock := sem_clock h
  locks := fun _ hk => mem_locks_of_sem h hj hk

/-! ## Stable assertions -/

section Stable
variable {ops : Nat → Op} {i : Nat} {w : Option Stmt}

theorem stable_now (now : Int) : (promises sha256 hashtext ops).Stable i w fun s => now ≤ s.clock :=
  fun _ _ _ _ hr h => Int.le_trans h hr.clock

theorem stable_lock (now : Int) (k : Int) :
    (promises sha256 hashtext ops).Stable i w fun s => now ≤ s.clock ∧ (k, i) ∈ s.locks :=
  fun _ _ _ _ hr h => ⟨Int.le_trans h.1 hr.clock, hr.locks _ h.2⟩

theorem stable_admitted (d : NewExecution) : (promises sha256 hashtext ops).Stable i w (Admitted hashtext i d) := by
  intro s s' _ _ hr h
  refine ⟨Int.le_trans h.1 hr.clock, ?_⟩
  have h₂ := h.2
  cases hh : d.hostId with
  | none => rwa [hh] at h₂
  | some hst =>
      rw [hh] at h₂
      refine ⟨hr.locks _ h₂.1, fun hv => (h₂.2 hv).evolves hr.evolves fun e he => ?_⟩
      by_contra hon
      exact he d.action.id hst (by simpa using hon) h₂.1

/-- What a claim has read of the execution it is about to take. -/
def Read (orgId hostId : Nat) (next : RemediationExecution) (s : Store) : Prop :=
  next.id < s.executions.next ∧ ∀ e ∈ s.executions, e.id = next.id →
    e.orgId = orgId ∧ e.hostId = some hostId ∧ e.delivered = next.delivered

theorem stable_read (orgId hostId : Nat) (next : RemediationExecution) :
    (promises sha256 hashtext ops).Stable i w (Read orgId hostId next) := by
  intro s s' _ _ hr h
  refine ⟨Nat.lt_of_lt_of_le h.1 hr.evolves.next_le, fun e' he' hid => ?_⟩
  obtain ⟨e, he, hk, hm⟩ := hr.evolves.old e' he' (show e'.id < _ from hid ▸ h.1)
  rw [hm.orgId, hm.hostId, hm.delivered]
  exact h.2 e he (hk.trans hid)

theorem stable_handed (op : Op) (job : DeliveredExecution) :
    (promises sha256 hashtext ops).Stable i w (Handed op job) := by
  intro s s' _ _ hr h
  obtain ⟨orgId, hostId, hop, hlt, h⟩ := h
  refine ⟨orgId, hostId, hop, Nat.lt_of_lt_of_le hlt hr.evolves.next_le, fun e' he' hid => ?_⟩
  obtain ⟨e, he, hk, hm⟩ := hr.evolves.old e' he' (show e'.id < _ from hid ▸ hlt)
  have h' := h e he (hk.trans hid)
  rw [hm.orgId, hm.hostId, hm.delivered]
  exact ⟨h'.1, h'.2.1, h'.2.2.1, hm.not_waiting h'.2.2.2⟩

end Stable

/-! ## The calls -/

/-- Not a job for an agent. -/
def NoJob (a : Outcome) : Prop := ∀ job, a ≠ .claimed (some job)

/-- A statement that promises nothing: no insert of an execution, no result, no expiry. -/
def Stmt.plain : Stmt → Bool
  | .createExecution _ | .storeResult .. | .expirePending _ => false
  | _ => true

/-- A call of plain statements that hands out no job. -/
def Plain (p : Call) : Prop := p.All (fun _ => True) (Stmt.plain · = true) NoJob

/-- What a plain statement guarantees, on the way to something that is no job. -/
theorem Stmt.plain_guar {ops : Nat → Op} {i : Nat} {s s' : Store} {w : Stmt} {p : Call} (hw : w.plain = true)
    (hp : ∀ job, p ≠ .ret (.claimed (some job))) : (promises sha256 hashtext ops).guar i s w s' p := by
  refine ⟨fun d hd => ?_, fun _ _ _ _ hd => ?_, fun t hd => ?_, fun job hj => absurd hj (hp job)⟩
  all_goals
    rw [hd] at hw
    cases hw

section Calls
variable {ops : Nat → Op} {i : Nat}

theorem sem_inv_of_ne {w : Stmt} {s s' : Store} (hw : ∀ d, w ≠ .createExecution d) (hs : Inv sha256 s)
    (h : sem sha256 i w s = some s') : Inv sha256 s' :=
  sem_inv hs h (show ∀ d, w = .createExecution d → Admitted (fun _ => 0) i d s from fun d hd => absurd hd (hw d))

theorem sem_inv_of_plain {w : Stmt} {s s' : Store} (hw : w.plain = true) (hs : Inv sha256 s)
    (h : sem sha256 i w s = some s') : Inv sha256 s' := by
  refine sem_inv_of_ne (fun d hd => ?_) hs h
  rw [hd] at hw
  cases hw

/-- A value that is no job keeps the promise, whatever is known. -/
theorem sat_ret {a : Outcome} (ha : NoJob a) (P : Store → Prop) :
    (promises sha256 hashtext ops).Sat (sem sha256) i (.ret a) P := fun _ _ _ job hj => absurd hj (ha job)

theorem sat_of_plain {p : Call} (hp : Plain p) :
    (promises sha256 hashtext ops).Sat (sem sha256) i p fun _ => True := by
  refine Spec.Sat.of_all ?_ ?_ ?_ (hp.mono (fun _ _ => trivial) (fun _ h => h) fun _ h => h)
  · intro w s s' hw hs hsem
    exact sem_inv_of_plain hw hs hsem
  · intro w s s' p hw hall _ _
    refine Stmt.plain_guar hw fun job hj => ?_
    rw [hj] at hall
    exact absurd rfl (hall job)
  · exact fun a s ha _ job hj => absurd hj (ha job)

/-- A read or a lock: it establishes `P'` and goes on with something that is no job. -/
theorem sat_stmt {w : Stmt} {k : Store → Call} {P : Store → Prop} (hw : w.plain = true)
    (h : ∀ s s', P s → sem sha256 i w s = some s' → (∀ job, k s ≠ .ret (.claimed (some job))) ∧
      ∃ P', (promises sha256 hashtext ops).Stable i (k s).next? P' ∧ P' s' ∧
        (promises sha256 hashtext ops).Sat (sem sha256) i (k s) P') :
    (promises sha256 hashtext ops).Sat (sem sha256) i (.stmt w k) P := by
  intro s s' hs hP hsem
  obtain ⟨hjob, P', hst, hP', hsat⟩ := h s s' hP hsem
  exact ⟨sem_inv_of_plain hw hs hsem, Stmt.plain_guar hw hjob, P', hst, hP', hsat⟩

theorem sat_insertExecution {d : NewExecution} {k : Option CreatedExecution → Call}
    (hk : ∀ r, ∃ a, k r = .ret a ∧ NoJob a) :
    (promises sha256 hashtext ops).Sat (sem sha256) i (insertExecution d k) (Admitted hashtext i d) := by
  intro s s' hs hd hsem
  have hcreate : ∀ d', Stmt.createExecution d = .createExecution d' → Admitted hashtext i d' s := by
    rintro d' ⟨⟩
    exact hd
  have hret : ∃ a, (if (s.actions.get? d.action.id).isSome then k (some ⟨s.executions.next, d.status, d.violation⟩)
      else .ret .thrown) = .ret a ∧ NoJob a := by
    split
    · exact hk _
    · exact ⟨.thrown, rfl, fun _ h => nomatch h⟩
  obtain ⟨a, ha, hjob⟩ := hret
  beta_reduce
  rw [ha]
  exact ⟨sem_inv hs hsem hcreate, ⟨hcreate, fun _ _ _ _ => nofun, fun _ => nofun,
    fun job hj => absurd (Prog.ret.inj hj) (hjob job)⟩,
    fun _ => True,
    Spec.Stable.true i _, trivial, sat_ret hjob _⟩

/-- Under the lock, what the guard-rails find stays true until the row is written. -/
theorem sat_createExecution {input : CreateInput} {now : Int} {k : Option CreatedExecution → Call}
    (hk : ∀ r, ∃ a, k r = .ret a ∧ NoJob a) :
    (promises sha256 hashtext ops).Sat (sem sha256) i (createExecution sha256 hashtext input now k)
      fun s => now ≤ s.clock := by
  have hskip : ∀ (action : RemediationAction) (s : Store), now ≤ s.clock →
      Admitted hashtext i ⟨input, action, none, some .noTargetHost, now⟩ s := fun _ _ h => ⟨h, rfl⟩
  refine sat_stmt rfl fun s s' hnow hsem => ?_
  cases hsem
  cases s.findAction input.actionId input.orgId with
  | none =>
      obtain ⟨a, ha, hjob⟩ := hk none
      simp only [ha]
      exact ⟨fun job hj => hjob job (Prog.ret.inj hj), _, Spec.Stable.true i _, trivial, sat_ret hjob _⟩
  | some action =>
      simp only
      cases input.hostId <|> action.targetHostId with
      | none => exact ⟨fun _ => Prog.stmt_ne_ret, _, stable_admitted _, hskip action s hnow, sat_insertExecution hk⟩
      | some hostId =>
          refine ⟨fun _ => Prog.stmt_ne_ret, _, stable_now now, hnow, sat_stmt rfl fun s s' hnow hsem => ?_⟩
          cases hsem
          cases s.findHost hostId input.orgId with
          | none => exact ⟨fun _ => Prog.stmt_ne_ret, _, stable_admitted _, hskip action s hnow, sat_insertExecution hk⟩
          | some host =>
              refine ⟨fun _ => Prog.stmt_ne_ret, _, stable_now now, hnow, sat_stmt rfl fun s s' hnow hsem => ?_⟩
              have hlock : now ≤ s'.clock ∧ (lockKey hashtext action.id host.id, i) ∈ s'.locks := by
                simp only [sem] at hsem
                split at hsem <;> cases hsem
                exact ⟨hnow, List.mem_cons_self⟩
              refine ⟨fun _ => Prog.stmt_ne_ret, _, stable_lock now _, hlock,
                sat_stmt rfl fun s s' hlock hsem => ?_⟩
              cases hsem
              refine ⟨fun _ => Prog.stmt_ne_ret, _, stable_admitted _, ?_, sat_insertExecution hk⟩
              exact ⟨hlock.1, hlock.2, admits_of_guard⟩

theorem mem_of_oldest {l : List RemediationExecution} {e : RemediationExecution} (h : oldest l = some e) : e ∈ l := by
  induction l with
  | nil => cases h
  | cons a l ih =>
      rw [oldest] at h
      split at h
      · cases h
        exact List.mem_cons_self
      · rename_i b hb
        split at h <;> cases h
        · exact List.mem_cons_of_mem _ (ih hb)
        · exact List.mem_cons_self

theorem read_of_nextPending {s : Store} {orgId hostId : Nat} {next : RemediationExecution}
    (h : s.nextPending orgId hostId = some next) : Read orgId hostId next s := by
  obtain ⟨hmem, hp⟩ := List.mem_filter.mp (mem_of_oldest h)
  simp only [Bool.and_eq_true, beq_iff_eq] at hp
  refine ⟨s.executions.lt_next next hmem, fun e he hid => ?_⟩
  rw [Table.eq_of_key (t := s.executions) he hmem hid]
  exact ⟨hp.1.1, hp.1.2, rfl⟩

/-- The compare-and-set that won: the execution was pending, and is the job handed out. -/
theorem handed_of_claim {s : Store} {orgId hostId : Nat} {now : Int} {next : RemediationExecution} {op : Op}
    (hop : op = .claimNextExecution orgId hostId) (hread : Read orgId hostId next s)
    (hwon : s.executions.count (fun e => e.id == next.id && e.status == .pending) = 1) {s' : Store}
    (h : sem sha256 i (.claim next.id now) s = some s') :
    (∃ e ∈ s.executions, e.id = next.id ∧ e.status = .pending) ∧ Handed op next.delivered s' := by
  obtain ⟨e₀, he₀, hp₀⟩ := List.countP_pos_iff.mp (Nat.lt_of_lt_of_eq Nat.zero_lt_one hwon.symm)
  have hp := hp₀
  simp only [Bool.and_eq_true, beq_iff_eq] at hp
  refine ⟨⟨e₀, he₀, hp⟩, orgId, hostId, hop, ?_, ?_⟩
  · cases h
    exact hread.1
  · cases h
    intro e' he' hid
    obtain ⟨e, he, rfl⟩ := List.mem_map.mp he'
    have hide : e.id = next.id := by
      split at hid <;> exact hid
    have heq : e = e₀ := Table.eq_of_key he he₀ (hide.trans hp.1.symm)
    rw [if_pos (heq ▸ hp₀)]
    obtain ⟨ho, hh, hd⟩ := hread.2 e he hide
    exact ⟨ho, hh, hd, rfl⟩

theorem claimNextExecution_ne_job (orgId hostId : Nat) (now : Int) (n : Nat) (job : DeliveredExecution) :
    claimNextExecution orgId hostId now n ≠ .ret (.claimed (some job)) := by
  cases n <;> rw [claimNextExecution] <;> exact nofun

theorem sat_claimNextExecution {orgId hostId : Nat} (hop : ops i = .claimNextExecution orgId hostId) (now : Int) (n : Nat) :
    (promises sha256 hashtext ops).Sat (sem sha256) i (claimNextExecution orgId hostId now n) fun _ => True := by
  induction n with
  | zero =>
      rw [claimNextExecution]
      exact sat_ret (by exact fun _ => nofun) _
  | succ n ih =>
      refine sat_stmt rfl fun s s' _ hsem => ?_
      cases hsem
      cases hnext : s.nextPending orgId hostId with
      | none => exact ⟨fun _ => nofun, _, Spec.Stable.true i _, trivial, sat_ret (by exact fun _ => nofun) _⟩
      | some next =>
          refine ⟨fun _ => nofun, _, stable_read orgId hostId next, read_of_nextPending hnext, ?_⟩
          intro s s' hs hread hsem
          have hinv := sem_inv_of_plain rfl hs hsem
          by_cases hwon : s.executions.count (fun e => e.id == next.id && e.status == .pending) = 1
          · obtain ⟨hpending, hhanded⟩ := handed_of_claim hop hread hwon hsem
            simp only [hwon]
            refine ⟨hinv, ⟨fun _ => nofun, fun _ _ _ _ => nofun, fun _ => nofun, fun job hj => ?_⟩, _,
              stable_handed (ops i) next.delivered, hhanded, ?_⟩
            · cases hj
              exact ⟨now, rfl, hpending⟩
            · intro s _ h job hj
              cases hj
              exact h
          · simp only [ne_eq, hwon, not_false_eq_true, if_true]
            exact ⟨hinv, Stmt.plain_guar rfl fun job => claimNextExecution_ne_job _ _ _ _ job, _, Spec.Stable.true i _,
              trivial, ih⟩

theorem sat_recordExecutionResult {orgId hostId : Nat} {input : ExecutionResultInput}
    (hop : ops i = .recordExecutionResult orgId hostId input) (now : Int) :
    (promises sha256 hashtext ops).Sat (sem sha256) i (recordExecutionResult orgId hostId input now) fun _ => True := by
  intro s s' hs _ hsem
  refine ⟨sem_inv_of_ne (by exact fun _ => nofun) hs hsem, ⟨fun _ => nofun, ?_, fun _ => nofun, fun _ => nofun⟩, _,
    Spec.Stable.true i _, trivial, sat_ret (by exact fun _ => nofun) _⟩
  rintro _ _ _ _ ⟨⟩
  exact hop

/-- The sweeper expires by a time that has come. -/
theorem sat_sweepExecutions (t : Int) :
    (promises sha256 hashtext ops).Sat (sem sha256) i (sweepExecutions t) fun s => t ≤ s.clock := by
  intro s s' hs hnow hsem
  refine ⟨sem_inv_of_ne (by exact fun _ => nofun) hs hsem, ⟨fun _ => nofun, fun _ _ _ _ => nofun, ?_, fun _ => nofun⟩, _,
    Spec.Stable.true i _, trivial, ?_⟩
  · rintro _ ⟨⟩
    exact hnow
  · exact sat_of_plain ⟨rfl, fun _ _ => ⟨rfl, fun _ _ _ => nofun⟩⟩

/-! ## Plain calls -/

theorem approveExecution_plain (actor : Auth.Actor) (id : Nat) (now : Int) :
    Plain (approveExecution actor id now) := by
  unfold approveExecution
  split
  · exact fun _ => nofun
  · refine ⟨rfl, fun s _ => ?_⟩
    beta_reduce
    split
    · exact fun _ => nofun
    · split
      · exact fun _ => nofun
      · split
        · exact fun _ => nofun
        · refine ⟨rfl, fun s _ => ?_⟩
          beta_reduce
          split <;> exact fun _ => nofun

theorem cancelExecution_plain (actor : Auth.Actor) (id : Nat) (now : Int) :
    Plain (cancelExecution actor id now) := by
  unfold cancelExecution
  split
  · exact fun _ => nofun
  · refine ⟨rfl, fun s _ => ?_⟩
    beta_reduce
    split
    · refine ⟨rfl, fun s _ => ?_⟩
      beta_reduce
      split <;> exact fun _ => nofun
    · exact fun _ => nofun

theorem withHostInOrg_plain {orgId : Nat} {hostId : Option Nat} {k : Call} (hk : Plain k) :
    Plain (withHostInOrg orgId hostId k) := by
  cases hostId with
  | none => exact hk
  | some hostId =>
      refine ⟨rfl, fun s _ => ?_⟩
      beta_reduce
      split
      · exact hk
      · exact fun _ => nofun

theorem createRemediationAction_plain (actor : Auth.Actor) (input : RemediationActionInput) :
    Plain (createRemediationAction actor input) := by
  unfold createRemediationAction
  split
  · exact fun _ => nofun
  · split
    · exact fun _ => nofun
    · exact withHostInOrg_plain ⟨rfl, fun _ _ _ => nofun⟩

theorem updateRemediationAction_plain (actor : Auth.Actor) (id : Nat) (input : RemediationActionInput) :
    Plain (updateRemediationAction actor id input) := by
  unfold updateRemediationAction
  split
  · exact fun _ => nofun
  · split
    · exact fun _ => nofun
    · refine withHostInOrg_plain ⟨rfl, fun s _ => ?_⟩
      beta_reduce
      split
      · refine ⟨rfl, fun s _ => ?_⟩
        beta_reduce
        split <;> exact fun _ => nofun
      · exact fun _ => nofun

theorem setRemediationActionEnabled_plain (actor : Auth.Actor) (id : Nat) (enabled : Bool) :
    Plain (setRemediationActionEnabled actor id enabled) := by
  unfold setRemediationActionEnabled
  split
  · exact fun _ => nofun
  · refine ⟨rfl, fun s _ => ?_⟩
    beta_reduce
    split <;> exact fun _ => nofun

theorem deleteRemediationAction_plain (actor : Auth.Actor) (id : Nat) :
    Plain (deleteRemediationAction actor id) := by
  unfold deleteRemediationAction
  split
  · exact fun _ => nofun
  · refine ⟨rfl, fun s _ => ?_⟩
    beta_reduce
    split <;> exact fun _ => nofun

def Op.plain : Op → Bool
  | .createExecution .. | .requestRun .. | .triggerForIncident .. | .claimNextExecution .. | .recordExecutionResult ..
  | .sweepExecutions => false
  | _ => true

theorem call_plain {op : Op} (h : op.plain = true) : Plain (op.call sha256 hashtext) := by
  cases op with
  | createExecution | requestRun | triggerForIncident | claimNextExecution | recordExecutionResult | sweepExecutions =>
      cases h
  | approveExecution actor id => exact ⟨rfl, fun s _ => approveExecution_plain _ _ _⟩
  | cancelExecution actor id => exact ⟨rfl, fun s _ => cancelExecution_plain _ _ _⟩
  | createRemediationAction actor input => exact createRemediationAction_plain _ _
  | updateRemediationAction actor id input => exact updateRemediationAction_plain _ _ _
  | setRemediationActionEnabled actor id enabled => exact setRemediationActionEnabled_plain _ _ _
  | deleteRemediationAction actor id => exact deleteRemediationAction_plain _ _
  | updateHost host => exact ⟨rfl, fun _ _ _ => nofun⟩
  | tick ms => exact ⟨rfl, fun _ _ _ => nofun⟩

/-! ## The system -/

theorem triggerForIncident_sat (orgId : Nat) (actionId : Option Nat) (auto : Bool) (incidentId : Nat) (host : Option Nat)
    (now : Int) : (promises sha256 hashtext ops).Sat (sem sha256) i
      (triggerForIncident sha256 hashtext orgId actionId auto incidentId host now) fun s => now ≤ s.clock := by
  cases actionId with
  | none => exact sat_ret (by exact fun _ => nofun) _
  | some actionId =>
      refine sat_stmt rfl fun s s' hnow hsem => ?_
      cases hsem
      cases s.findAction actionId orgId with
      | none => exact ⟨fun _ => nofun, _, Spec.Stable.true i _, trivial, sat_ret (by exact fun _ => nofun) _⟩
      | some action =>
          exact ⟨fun _ => nofun, _, stable_now now, hnow, sat_createExecution fun r => ⟨_, rfl, fun _ => nofun⟩⟩

/-- A call that starts by taking the time. -/
theorem sat_newDate (age : Nat) {k : Store → Call}
    (h : ∀ now : Int, ∀ s : Store, s.clock - age = now → (∀ job, k s ≠ .ret (.claimed (some job))) ∧
      (promises sha256 hashtext ops).Sat (sem sha256) i (k s) fun s => now ≤ s.clock) :
    (promises sha256 hashtext ops).Sat (sem sha256) i (.stmt .newDate k) fun _ => True := by
  refine sat_stmt rfl fun s s' _ hsem => ?_
  cases hsem
  obtain ⟨hjob, hsat⟩ := h _ s rfl
  exact ⟨hjob, _, stable_now _, Int.sub_le_self _ (Int.natCast_nonneg age), hsat⟩

/-- **Every call keeps its promises.** -/
theorem call_sat (ops : Nat → Op) (i : Nat) :
    (promises sha256 hashtext ops).Sat (sem sha256) i ((ops i).call sha256 hashtext) fun _ => True := by
  cases hop : ops i with
  | createExecution input age =>
      refine sat_newDate age fun now s hnow => ?_
      subst hnow
      exact ⟨fun _ => nofun, sat_createExecution fun r => ⟨_, rfl, fun _ => nofun⟩⟩
  | requestRun actor actionId hostId =>
      rw [Op.call, requestRun]
      split
      · exact sat_ret (by exact fun _ => nofun) _
      · refine sat_newDate 0 fun now s hnow => ?_
        have hs : s.clock = now := by omega
        subst hs
        refine ⟨fun _ => nofun, sat_createExecution fun r => ?_⟩
        cases r <;> exact ⟨_, rfl, fun _ => nofun⟩
  | triggerForIncident orgId actionId auto incidentId host age =>
      refine sat_newDate age fun now s hnow => ?_
      subst hnow
      refine ⟨fun job => ?_, triggerForIncident_sat ..⟩
      cases actionId <;> exact nofun
  | claimNextExecution orgId hostId =>
      refine sat_stmt rfl fun s s' _ hsem => ?_
      exact ⟨fun _ => nofun, _, Spec.Stable.true i _, trivial, sat_claimNextExecution hop _ 3⟩
  | recordExecutionResult orgId hostId input =>
      refine sat_stmt rfl fun s s' _ hsem => ⟨fun _ => nofun, _, Spec.Stable.true i _, trivial, ?_⟩
      exact sat_recordExecutionResult hop _
  | sweepExecutions =>
      refine sat_newDate 0 fun now s hnow => ?_
      have hs : s.clock = now := by omega
      subst hs
      exact ⟨fun _ => nofun, sat_sweepExecutions s.clock⟩
  | _ => exact sat_of_plain (call_plain rfl)

theorem compatible (ops : Nat → Op) (ok : System → Nat → Prop) :
    (promises sha256 hashtext ops).Compatible (sem sha256) ok :=
  fun _ _ _ _ _ hinv _ _ hsem hg _ hj => sem_rely hinv hsem hg.1 hj

theorem good_start (ops : Nat → Op) (clock : Int) (actions : Table RemediationAction) (hosts : Table MonitoredHost) :
    (promises sha256 hashtext ops).Good (sem sha256) (start sha256 hashtext ops clock actions hosts) := by
  refine Spec.Good.init ⟨?_, ?_, ?_⟩ (call_sat ops)
  · exact fun _ _ _ h => nomatch h
  · exact fun e he => absurd he (Table.not_mem_empty e)
  · exact fun e he => absurd he (Table.not_mem_empty e)

theorem good_of_reach {ops : Nat → Op} {clock : Int} {actions : Table RemediationAction} {hosts : Table MonitoredHost}
    {ok : System → Nat → Prop} {c : System} (h : Reach (sem sha256) ok (start sha256 hashtext ops clock actions hosts) c) :
    (promises sha256 hashtext ops).Good (sem sha256) c :=
  (good_start ops clock actions hosts).reach (compatible ops ok) h

end Calls

end Spec

end IkelyaneMonitor.Remediation
