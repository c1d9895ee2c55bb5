import Mathlib.Data.List.Basic

/-!
# Guard-rails (`modules/remediation/constants.ts`, `modules/remediation/guard.ts`)

* `ExecutionStatus`, `StatusReason` : the statuses of an execution and the codes that explain them;
  `ExecutionStatus.live` is `LIVE_STATUSES`, `ExecutionStatus.final` the statuses nothing leaves;
* `guardrailViolation` : the checks made before an execution is queued, in the source's order;
  `guardrailViolation_eq_none` says what passing them means for the recent executions.

Times are milliseconds since the epoch, as `Date.getTime` gives them.
-/

namespace IkelyaneMonitor.Remediation

inductive OsFamily where
  | windows | linux | macos | unix | other
  deriving DecidableEq, Repr

inductive ScriptRuntime where
  | bash | powershell | python
  deriving DecidableEq, Repr

inductive RemediationMode where
  | disabled | allowlist | any
  deriving DecidableEq, Repr

inductive ExecutionTrigger where
  | alert | manual | schedule
  deriving DecidableEq, Repr

inductive ExecutionStatus where
  | pending | awaitingApproval | running | succeeded | failed | timedOut | skipped | cancelled
  deriving DecidableEq, Repr

/-- `LIVE_STATUSES`: still going somewhere. -/
def ExecutionStatus.live : ExecutionStatus → Bool
  | .awaitingApproval | .pending | .running => true
  | _ => false

/-- The statuses an execution ends in. -/
def ExecutionStatus.final : ExecutionStatus → Bool
  | .succeeded | .failed | .timedOut | .skipped | .cancelled => true
  | _ => false

/-- Neither skipped nor cancelled: what the guard-rails count. -/
def ExecutionStatus.counted (status : ExecutionStatus) : Bool := status != .skipped && status != .cancelled

theorem ExecutionStatus.live_eq_not_final (status : ExecutionStatus) : status.live = !status.final := by
  cases status <;> rfl

inductive StatusReason where
  | actionDisabled | noTargetHost | hostDisabled | hostNotAccepting | notInAllowlist | osNotAllowed | alreadyQueued
  | cooldown | rateLimited | cancelled | expired | agentLost
  | refusedByAgentPolicy | unsupportedRuntime | interpreterNotFound | startFailed
  deriving DecidableEq, Repr

structure GuardAction where
  enabled : Bool
  allowedOsFamilies : List OsFamily
  cooldownSec : Nat
  maxRunsPerHour : Nat
  deriving DecidableEq, Repr

structure GuardHost where
  enabled : Bool
  osFamily : Option OsFamily
  /-- `none`: never reported, which is not accepting. -/
  remediationMode : Option RemediationMode
  remediationAllowlist : List String
  deriving DecidableEq, Repr

structure RecentExecution where
  status : ExecutionStatus
  createdAt : Int
  deriving DecidableEq, Repr

def guardrailViolation (action : GuardAction) (host : GuardHost) (scriptSha256 : String)
    (recent : List RecentExecution) (now : Int) : Option StatusReason :=
  if !action.enabled then some .actionDisabled
  else if !host.enabled then some .hostDisabled
  else if host.remediationMode ≠ some .allowlist ∧ host.remediationMode ≠ some .any then some .hostNotAccepting
  else if host.remediationMode = some .allowlist ∧ ¬ host.remediationAllowlist.contains scriptSha256 then
    some .notInAllowlist
  else if 0 < action.allowedOsFamilies.length ∧
      host.osFamily.all fun os => !action.allowedOsFamilies.contains os then some .osNotAllowed
  else
    let counted := recent.filter fun e => e.status.counted
    if counted.any fun e => e.status.live then some .alreadyQueued
    else if counted.any fun e => now - e.createdAt < action.cooldownSec * 1000 then some .cooldown
    else if action.maxRunsPerHour ≤ (counted.filter fun e => now - e.createdAt < 3600000).length then some .rateLimited
    else none

/-- What passing the guard-rails says of the recent executions. -/
theorem guardrailViolation_eq_none {action : GuardAction} {host : GuardHost} {sha : String}
    {recent : List RecentExecution} {now : Int} (h : guardrailViolation action host sha recent now = none) :
    (∀ e ∈ recent, e.status.counted → e.status.live = false ∧ e.createdAt + action.cooldownSec * 1000 ≤ now) ∧
      recent.countP (fun e => e.status.counted && decide (now - e.createdAt < 3600000)) < action.maxRunsPerHour := by
  unfold guardrailViolation at h
  -- the five checks on the action and the host say nothing of `recent`
  iterate 5 (split at h; · cases h)
  simp only at h
  split at h
  · cases h
  rename_i hlive
  split at h
  · cases h
  rename_i hcool
  split at h
  · cases h
  rename_i hrate
  simp only [List.any_filter, List.any_eq_true, Bool.and_eq_true, decide_eq_true_eq, not_exists, not_and,
    Bool.not_eq_true, Int.not_lt] at hlive hcool
  refine ⟨fun e he hc => ⟨hlive e he hc, ?_⟩, ?_⟩
  · have := hcool e he hc
    omega
  · rw [List.filter_filter, ← List.countP_eq_length_filter, Nat.not_le] at hrate
    refine Nat.lt_of_le_of_lt (Nat.le_of_eq ?_) hrate
    refine List.countP_congr fun e _ => ?_
    rw [Bool.and_comm]

/-- What passing the guard-rails says of the policy of the host. -/
theorem accepting_of_guardrailViolation {action : GuardAction} {host : GuardHost} {sha : String}
    {recent : List RecentExecution} {now : Int} (h : guardrailViolation action host sha recent now = none) :
    host.remediationMode = some .any ∨ host.remediationMode = some .allowlist ∧ sha ∈ host.remediationAllowlist := by
  unfold guardrailViolation at h
  iterate 2 (split at h; · cases h)
  split at h
  · cases h
  rename_i haccepting
  split at h
  · cases h
  rename_i hlisted
  by_cases hmode : host.remediationMode = some .allowlist
  · refine Or.inr ⟨hmode, ?_⟩
    by_contra hnot
    exact hlisted ⟨hmode, by simpa using hnot⟩
  · refine Or.inl ?_
    by_contra hany
    exact haccepting ⟨hmode, hany⟩

end IkelyaneMonitor.Remediation
