import Mathlib
import IkelyaneMonitor.Auth.Permissions
import IkelyaneMonitor.Interleave.Table
import IkelyaneMonitor.Saas.Probe

/-!
# The runners of the synthetic checks (`modules/saas/runner/runner.ts`, `modules/saas/endpoints.ts`)

* `nextHealth`, `EndpointCheck`, `ClaimedCheck` : the health of an endpoint, its row, and what a runner takes from it;
* `claimDueChecks`, `recordResult`, `requestEndpointCheck` : the statements on the rows;
* `Store`, `Event`, `step` : the probes in flight; `recorded` : the results of each check, the last one first;
* `Counted` : the row of a check counts the failures since its last success; `Fresh` : a failure is recorded on the count it
  was claimed with;
* `counted_iff_fresh` : a run keeps the first exactly by the second, which nothing sees to (`stale_failure_count`).

Checks are numbered as they are created. What is probed, and the series and alerts of a result, are left out.
-/

namespace IkelyaneMonitor.Saas
open Interleave (Keyed Table key)
open Auth (Actor can)

inductive HealthStatus where
  | UNKNOWN | UP | DEGRADED | DOWN | MAINTENANCE
  deriving DecidableEq, Repr

def failuresBeforeDown : Nat := 2

def nextHealth (passed : Bool) (previousFailures : Nat) : HealthStatus × Nat :=
  if passed then (.UP, 0)
  else
    let consecutiveFailures := previousFailures + 1
    (if failuresBeforeDown ≤ consecutiveFailures then .DOWN else .DEGRADED, consecutiveFailures)

structure EndpointCheck where
  id : Nat
  orgId : Nat
  intervalSec : Nat
  enabled : Bool
  nextRunAt : Option Int
  status : HealthStatus
  consecutiveFailures : Nat
  lastCheckedAt : Option Int
  lastStatusCode : Option Int
  lastResponseMs : Option ℚ
  lastError : Option ProbeErrorCode
  lastErrorDetail : Option String
  sslExpiresAt : Option Int
  sslIssuer : Option String
  deriving DecidableEq

instance : Keyed EndpointCheck := ⟨EndpointCheck.id⟩

structure ClaimedCheck where
  id : Nat
  orgId : Nat
  consecutiveFailures : Nat
  deriving DecidableEq, Repr

/-- A new check, with the defaults of its columns. -/
def EndpointCheck.created (orgId intervalSec id : Nat) : EndpointCheck :=
  ⟨id, orgId, intervalSec, true, none, .UNKNOWN, 0, none, none, none, none, none, none, none⟩

def EndpointCheck.due (now : Int) (orgIds : Option (List Nat)) (e : EndpointCheck) : Bool :=
  e.enabled && e.nextRunAt.all (fun t => decide (t ≤ now)) && orgIds.all fun ids => decide (e.orgId ∈ ids)

/-- `"nextRunAt" ASC NULLS FIRST` -/
def EndpointCheck.runsBefore (a b : EndpointCheck) : Bool :=
  match a.nextRunAt, b.nextRunAt with
  | none, _ => true
  | some _, none => false
  | some s, some t => decide (s ≤ t)

/-- The rows a claim takes; those that another statement has locked are skipped. -/
def dueChecks (checks : Table EndpointCheck) (limit : Nat) (orgIds : Option (List Nat)) (locked : List Nat) (now : Int) :
    List EndpointCheck :=
  ((checks.rows.filter fun e => e.due now orgIds && decide (e.id ∉ locked)).insertionSort fun a b =>
    a.runsBefore b = true).take limit

def EndpointCheck.claimed (e : EndpointCheck) : ClaimedCheck := ⟨e.id, e.orgId, e.consecutiveFailures⟩

def EndpointCheck.postponed (now : Int) (e : EndpointCheck) : EndpointCheck :=
  { e with nextRunAt := some (now + e.intervalSec * 1000) }

/-- The columns `recordResult` writes. -/
def EndpointCheck.recorded (check : ClaimedCheck) (result : ProbeResult) (now : Int) (e : EndpointCheck) : EndpointCheck :=
  let health := nextHealth result.passed check.consecutiveFailures
  { e with
    status := health.1
    consecutiveFailures := health.2
    lastCheckedAt := some now
    lastStatusCode := result.statusCode
    lastResponseMs := result.responseMs
    lastError := result.error
    lastErrorDetail := result.errorDetail.map fun detail => String.ofList (detail.toList.take 200)
    sslExpiresAt := match result.tls with
      | some tls => some tls.validTo
      | none => e.sslExpiresAt
    sslIssuer := match result.tls with
      | some tls => tls.issuer.map fun issuer => String.ofList (issuer.toList.take 200)
      | none => e.sslIssuer }

@[simp] theorem key_postponed (now : Int) (e : EndpointCheck) : key (e.postponed now) = key e := rfl

@[simp] theorem key_recorded (check : ClaimedCheck) (result : ProbeResult) (now : Int) (e : EndpointCheck) :
    key (e.recorded check result now) = key e := rfl

theorem key_created (orgId intervalSec id : Nat) : key (EndpointCheck.created orgId intervalSec id) = id := rfl

theorem key_requested (e : EndpointCheck) : key { e with nextRunAt := none } = key e := rfl

def ClaimedCheck.isOf (check : ClaimedCheck) (e : EndpointCheck) : Bool := e.id == check.id && e.orgId == check.orgId

structure Store where
  checks : Table EndpointCheck
  inFlight : List ClaimedCheck
  /-- The results of each check, the last one first. -/
  recorded : Nat → List Bool

inductive Event where
  | create (orgId intervalSec : Nat)
  | claim (limit : Nat) (orgIds : Option (List Nat)) (locked : List Nat) (now : Int)
  | record (check : ClaimedCheck) (result : ProbeResult) (now : Int)
  | requestCheck (actor : Actor) (id : Nat)

def claimDueChecks (s : Store) (limit : Nat) (orgIds : Option (List Nat)) (locked : List Nat) (now : Int) : Store :=
  let due := dueChecks s.checks limit orgIds locked now
  { s with
    checks := s.checks.updateMany (fun e => decide (e.id ∈ due.map EndpointCheck.id)) (EndpointCheck.postponed now)
      (key_postponed now)
    inFlight := s.inFlight ++ due.map EndpointCheck.claimed }

/-- A result of a check that was deleted meanwhile is recorded nowhere. -/
def recordResult (s : Store) (check : ClaimedCheck) (result : ProbeResult) (now : Int) : Store where
  checks := s.checks.updateMany check.isOf (EndpointCheck.recorded check result now) (key_recorded check result now)
  inFlight := s.inFlight.erase check
  recorded :=
    if s.checks.rows.any check.isOf then Function.update s.recorded check.id (result.passed :: s.recorded check.id)
    else s.recorded

def requestEndpointCheck (s : Store) (actor : Actor) (id : Nat) : Store :=
  if can actor.role .endpointsCheck then
    { s with
      checks := s.checks.updateMany (fun e => e.id == id && e.orgId == actor.orgId && e.enabled)
        (fun e => { e with nextRunAt := none }) key_requested }
  else s

/-- `none` where the probe of a result is not in flight. -/
def step (s : Store) : Event → Option Store
  | .create orgId intervalSec =>
      some { s with
        checks := s.checks.insert (EndpointCheck.created orgId intervalSec) (key_created orgId intervalSec)
        recorded := Function.update s.recorded s.checks.next [] }
  | .claim limit orgIds locked now => some (claimDueChecks s limit orgIds locked now)
  | .record check result now => if check ∈ s.inFlight then some (recordResult s check result now) else none
  | .requestCheck actor id => some (requestEndpointCheck s actor id)

def emptyStore : Store := ⟨.empty, [], fun _ => []⟩

def run : Store → List Event → Option Store
  | s, [] => some s
  | s, event :: events => (step s event).bind fun s' => run s' events

/-! ## The count of failures -/

/-- The failures since the last success. -/
def failuresSince (results : List Bool) : Nat := (results.takeWhile fun passed => !passed).length

def Store.Counted (s : Store) : Prop :=
  ∀ e ∈ s.checks, e.consecutiveFailures = failuresSince (s.recorded e.id) ∧
    (e.status = .DOWN ↔ failuresBeforeDown ≤ failuresSince (s.recorded e.id))

/-- A failure is recorded on the count that it was claimed with. -/
def Store.Fresh (s : Store) : Event → Prop
  | .record check result _ => result.passed = true ∨ ∀ e ∈ s.checks, check.isOf e = true →
      e.consecutiveFailures = check.consecutiveFailures
  | _ => True

/-- Every state of the run satisfies `P`. -/
def Always (P : Store → Prop) : Store → List Event → Prop
  | s, [] => P s
  | s, event :: events => P s ∧ ∀ s', step s event = some s' → Always P s' events

/-- Every step of the run is fresh. -/
def AllFresh : Store → List Event → Prop
  | _, [] => True
  | s, event :: events => ∀ s', step s event = some s' → s.Fresh event ∧ AllFresh s' events

variable {s s' : Store}

@[simp] theorem failuresSince_nil : failuresSince [] = 0 := rfl

@[simp] theorem failuresSince_passed (results : List Bool) : failuresSince (true :: results) = 0 := rfl

@[simp] theorem failuresSince_failed (results : List Bool) :
    failuresSince (false :: results) = failuresSince results + 1 := by
  simp [failuresSince]

/-- A write that leaves the counts and the statuses alone. -/
theorem Store.Counted.updateMany (h : s.Counted) {p : EndpointCheck → Bool} {f : EndpointCheck → EndpointCheck}
    (hf : ∀ e, key (f e) = key e) (hsame : ∀ e, (f e).consecutiveFailures = e.consecutiveFailures ∧ (f e).status = e.status)
    (inFlight : List ClaimedCheck) : Store.Counted ⟨s.checks.updateMany p f hf, inFlight, s.recorded⟩ := by
  intro e' he'
  obtain ⟨e, he, heq⟩ := (@Table.mem_updateMany _ _ s.checks p f hf e').mp he'
  have hid : (f e).id = e.id := hf e
  rw [heq]
  split
  · show (f e).consecutiveFailures = failuresSince (s.recorded (f e).id) ∧
      ((f e).status = .DOWN ↔ failuresBeforeDown ≤ failuresSince (s.recorded (f e).id))
    rw [hid, (hsame e).1, (hsame e).2]
    exact h e he
  · exact h e he

theorem claimDueChecks_counted (h : s.Counted) (limit : Nat) (orgIds : Option (List Nat)) (locked : List Nat) (now : Int) :
    (claimDueChecks s limit orgIds locked now).Counted :=
  h.updateMany (key_postponed now) (fun _ => ⟨rfl, rfl⟩) _

theorem requestEndpointCheck_counted (h : s.Counted) (actor : Actor) (id : Nat) :
    (requestEndpointCheck s actor id).Counted := by
  unfold requestEndpointCheck
  split
  · exact h.updateMany key_requested (fun _ => ⟨rfl, rfl⟩) _
  · exact h

/-- One result: the count is right afterwards where the count of the claim was. -/
theorem nextHealth_counted (passed : Bool) (previous : Nat) (results : List Bool) :
    ((nextHealth passed previous).2 = failuresSince (passed :: results) ∧
        ((nextHealth passed previous).1 = .DOWN ↔ failuresBeforeDown ≤ failuresSince (passed :: results))) ↔
      passed = true ∨ previous = failuresSince results := by
  cases passed with
  | true => simp [nextHealth, failuresBeforeDown]
  | false =>
      have hcount : (nextHealth false previous).2 = previous + 1 := rfl
      have hstatus : (nextHealth false previous).1 = .DOWN ↔ failuresBeforeDown ≤ previous + 1 := by
        show (if failuresBeforeDown ≤ previous + 1 then HealthStatus.DOWN else .DEGRADED) = .DOWN ↔ _
        split
        · simp [*]
        · simp [*]
      rw [hcount, hstatus, failuresSince_failed]
      constructor
      · intro hboth
        exact .inr (Nat.succ.inj hboth.1)
      · intro hor
        have heq : previous = failuresSince results := by simpa using hor
        rw [heq]
        exact ⟨rfl, Iff.rfl⟩

theorem mem_recordResult {check : ClaimedCheck} {result : ProbeResult} {now : Int} {e' : EndpointCheck} :
    e' ∈ (recordResult s check result now).checks ↔
      ∃ e ∈ s.checks, e' = if check.isOf e = true then e.recorded check result now else e :=
  @Table.mem_updateMany _ _ s.checks check.isOf (EndpointCheck.recorded check result now) (key_recorded check result now) e'

theorem recordResult_counted (h : s.Counted) (check : ClaimedCheck) (result : ProbeResult) (now : Int) :
    (recordResult s check result now).Counted ↔ s.Fresh (.record check result now) := by
  have hrow : ∀ e ∈ s.checks, check.isOf e = true →
      ((e.recorded check result now).consecutiveFailures =
            failuresSince ((recordResult s check result now).recorded (e.recorded check result now).id) ∧
          ((e.recorded check result now).status = .DOWN ↔
            failuresBeforeDown ≤ failuresSince ((recordResult s check result now).recorded
              (e.recorded check result now).id)) ↔
        result.passed = true ∨ e.consecutiveFailures = check.consecutiveFailures) := by
    intro e he hof
    have hid : e.id = check.id := by
      unfold ClaimedCheck.isOf at hof
      simp only [Bool.and_eq_true, beq_iff_eq] at hof
      exact hof.1
    have hany : s.checks.rows.any check.isOf = true := List.any_eq_true.mpr ⟨e, he, hof⟩
    have hrecorded : (recordResult s check result now).recorded (e.recorded check result now).id =
        result.passed :: s.recorded check.id := by
      show (if s.checks.rows.any check.isOf then Function.update s.recorded check.id (result.passed :: s.recorded check.id)
        else s.recorded) e.id = _
      rw [if_pos hany, hid, Function.update_self]
    rw [hrecorded]
    show ((nextHealth result.passed check.consecutiveFailures).2 = _ ∧
      ((nextHealth result.passed check.consecutiveFailures).1 = .DOWN ↔ _)) ↔ _
    rw [nextHealth_counted, (h e he).1, hid, eq_comm (a := failuresSince _)]
  constructor
  · intro hcounted
    by_cases hpassed : result.passed = true
    · exact .inl hpassed
    · refine .inr fun e he hof => ?_
      have hmem : e.recorded check result now ∈ (recordResult s check result now).checks :=
        mem_recordResult.mpr ⟨e, he, (if_pos hof).symm⟩
      exact ((hrow e he hof).mp (hcounted _ hmem)).resolve_left hpassed
  · intro hfresh e' he'
    obtain ⟨e, he, rfl⟩ := mem_recordResult.mp he'
    split
    · rename_i hof
      exact (hrow e he hof).mpr (hfresh.imp_right fun hall => hall e he hof)
    · rename_i hother
      -- another check: one of this id would be the same row
      have hkept : (recordResult s check result now).recorded e.id = s.recorded e.id := by
        show (if s.checks.rows.any check.isOf then Function.update s.recorded check.id (result.passed :: s.recorded check.id)
          else s.recorded) e.id = _
        split
        · rename_i hany
          obtain ⟨e₀, he₀, hof⟩ := List.any_eq_true.mp hany
          have hid : e₀.id = check.id := by
            unfold ClaimedCheck.isOf at hof
            simp only [Bool.and_eq_true, beq_iff_eq] at hof
            exact hof.1
          refine Function.update_of_ne (fun heq => hother ?_) _ _
          rw [← Table.eq_of_key he₀ he (hid.trans heq.symm)]
          exact hof
        · rfl
      rw [hkept]
      exact h e he

theorem step_counted (h : s.Counted) {event : Event} (hstep : step s event = some s') : s'.Counted ↔ s.Fresh event := by
  cases event with
  | create orgId intervalSec =>
      obtain rfl := Option.some.inj hstep
      refine iff_of_true (fun e he => ?_) trivial
      rcases (@Table.mem_insert _ _ s.checks (EndpointCheck.created orgId intervalSec)
        (key_created orgId intervalSec) e).mp he with
        hold | rfl
      · have hne : e.id ≠ s.checks.next := Nat.ne_of_lt (s.checks.lt_next e hold)
        show e.consecutiveFailures = failuresSince (Function.update s.recorded s.checks.next [] e.id) ∧
          (e.status = .DOWN ↔ failuresBeforeDown ≤ failuresSince (Function.update s.recorded s.checks.next [] e.id))
        rw [Function.update_of_ne hne]
        exact h e hold
      · simp [EndpointCheck.created, failuresBeforeDown]
  | claim limit orgIds locked now =>
      obtain rfl := Option.some.inj hstep
      exact iff_of_true (claimDueChecks_counted h limit orgIds locked now) trivial
  | record check result now =>
      rw [step] at hstep
      split at hstep
      · obtain rfl := Option.some.inj hstep
        exact recordResult_counted h check result now
      · cases hstep
  | requestCheck actor id =>
      obtain rfl := Option.some.inj hstep
      exact iff_of_true (requestEndpointCheck_counted h actor id) trivial

/-- A run of claims, requests and results keeps every count right exactly when every failure is recorded on the count that it
was claimed with. -/
theorem counted_iff_fresh (events : List Event) : Always Store.Counted emptyStore events ↔ AllFresh emptyStore events := by
  have hrun : ∀ (events : List Event) (s : Store), s.Counted → (Always Store.Counted s events ↔ AllFresh s events) := by
    intro events
    induction events with
    | nil => exact fun s h => iff_of_true h trivial
    | cons event events ih =>
        intro s h
        refine (and_iff_right h).trans (forall_congr' fun s' => imp_congr_right fun hstep => ?_)
        constructor
        · intro halways
          have hcounted : s'.Counted := by
            cases events with
            | nil => exact halways
            | cons _ _ => exact halways.1
          exact ⟨(step_counted h hstep).mp hcounted, (ih s' hcounted).mp halways⟩
        · rintro ⟨hfresh, hall⟩
          exact (ih s' ((step_counted h hstep).mpr hfresh)).mpr hall
  exact hrun events emptyStore fun e he => absurd he (Table.not_mem_empty e)

section Counterexample

def unreachable : ProbeResult := ⟨false, none, none, some .connection, some "ECONNREFUSED", none⟩

/-- Two probes of one check overlap, the second one asked for by a member, and both fail: the check is at one failure. -/
theorem stale_failure_count :
    ∃ s, run emptyStore [.create 0 60, .claim 1 none [] 0, .requestCheck ⟨0, 0, .operator⟩ 0, .claim 1 none [] 1000,
        .record ⟨0, 0, 0⟩ unreachable 10000, .record ⟨0, 0, 0⟩ unreachable 11000] = some s ∧ ¬ s.Counted := by
  have hstale : (run emptyStore [.create 0 60, .claim 1 none [] 0, .requestCheck ⟨0, 0, .operator⟩ 0, .claim 1 none [] 1000,
      .record ⟨0, 0, 0⟩ unreachable 10000, .record ⟨0, 0, 0⟩ unreachable 11000]).any (fun s =>
        s.checks.rows.any fun e => e.consecutiveFailures != failuresSince (s.recorded e.id)) = true := by decide +kernel
  obtain ⟨s, hs, hany⟩ := (Option.any_eq_true _ _).mp hstale
  obtain ⟨e, he, hcount⟩ := List.any_eq_true.mp hany
  exact ⟨s, hs, fun hcounted => bne_iff_ne.mp hcount (hcounted e he).1⟩

end Counterexample

end IkelyaneMonitor.Saas
