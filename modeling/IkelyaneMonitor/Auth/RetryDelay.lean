import Mathlib
import IkelyaneMonitor.Auth.Throttle
import IkelyaneMonitor.Stats.OrderStatistics

/-!
# The delay that `checkLoginThrottle` announces

* `throttleDecision` : the decision on the failures on record;
* `blockedUntil` : the last millisecond at which a counter is at its limit; `refused_iff` : the check refuses up to the later
  one of the two counters;
* `retry_delay_iff` : the announced delay is exact unless that millisecond is a whole number of seconds away. A failure of
  exactly 15 minutes ago still counts, so the check announced for then refuses once more (`retry_delay_boundary`).
-/

namespace IkelyaneMonitor.Auth
open Interleave Stats

inductive ThrottleDecision where
  | allowed
  | refused (retryAfterSeconds : Int)
  deriving DecidableEq, Repr

section Decision
variable (attempts : Table LoginAttempt) (email : String) (ip : Option String) (now : Int)

def throttleDecision : ThrottleDecision :=
  let wait := throttleWait (emailFailures attempts email now) (ipFailures attempts ip now) now
  if 0 < wait then .refused wait else .allowed

/-- The failures that a counter finds in the window. -/
def windowCount (p : LoginAttempt → Bool) : Nat :=
  attempts.rows.countP fun a => p a && !a.success && decide (now - loginWindowSeconds * 1000 ≤ a.createdAt)

def fromIp (ip : Option String) (a : LoginAttempt) : Bool := ip.isSome && a.ipAddress == ip

/-- The queries read at most 500 failures; there are no more. -/
structure Complete : Prop where
  email : windowCount attempts now (fun a => a.email == email) ≤ 500
  ip : windowCount attempts now (fromIp ip) ≤ 500

/-- The last millisecond at which a counter is at its limit, if it is. -/
def blockedUntil (failures : List Int) (max : Nat) : Option Int :=
  if failures.length < max then none else some (failures.getD (failures.length - max) 0 + loginWindowSeconds * 1000)

/-- The last millisecond at which the check refuses, if it does. -/
def refusedUntil : Option Int :=
  ((blockedUntil (emailFailures attempts email now) loginMaxFailuresPerEmail).toList ++
    (blockedUntil (ipFailures attempts ip now) loginMaxFailuresPerIp).toList).max?

end Decision

/-! ## One counter -/

section Counter
variable {attempts : Table LoginAttempt} {p : LoginAttempt → Bool} {now later : Int} {max : Nat}

theorem length_failuresSince (h : windowCount attempts now p ≤ 500) :
    (failuresSince attempts p now).length = windowCount attempts now p := by
  unfold failuresSince
  rw [List.length_take, List.length_insertionSort, List.length_map, ← List.countP_eq_length_filter]
  exact min_eq_right h

/-- Later on, the failures are those of now that are in the later window. -/
theorem windowCount_later (h : windowCount attempts now p ≤ 500) (hle : now ≤ later) :
    windowCount attempts later p =
      (failuresSince attempts p now).countP fun t => decide (later - loginWindowSeconds * 1000 ≤ t) := by
  unfold failuresSince
  rw [List.take_of_length_le, (List.perm_insertionSort _ _).countP_eq, List.countP_map, List.countP_filter]
  · unfold windowCount
    apply List.countP_congr
    intro a _
    simp only [Function.comp_apply, Bool.and_eq_true, decide_eq_true_eq]
    constructor
    · rintro ⟨hfailed, hin⟩
      exact ⟨hin, hfailed, by omega⟩
    · rintro ⟨hin, hfailed, -⟩
      exact ⟨hfailed, hin⟩
  · rw [List.length_insertionSort, List.length_map, ← List.countP_eq_length_filter]
    exact h

theorem windowCount_le (hle : now ≤ later) : windowCount attempts later p ≤ windowCount attempts now p := by
  apply List.countP_mono_left
  intro a _ ha
  simp only [Bool.and_eq_true, decide_eq_true_eq] at ha ⊢
  exact ⟨ha.1, by omega⟩

theorem failuresSince_sorted : (failuresSince attempts p now).Pairwise (· ≤ ·) :=
  (List.pairwise_insertionSort _ _).sublist (List.take_sublist _ _)

/-- A counter is at its limit up to `blockedUntil`. -/
theorem blocked_iff (hmax : 0 < max) (h : windowCount attempts now p ≤ 500) (hle : now ≤ later) :
    0 < secondsUntilUnblocked (failuresSince attempts p later) max later ↔
      ∃ deadline ∈ blockedUntil (failuresSince attempts p now) max, later ≤ deadline := by
  have hlater : windowCount attempts later p ≤ 500 := (windowCount_le hle).trans h
  rw [secondsUntilUnblocked_pos_iff, length_failuresSince hlater, windowCount_later h hle]
  have hcount := List.countP_le_length (l := failuresSince attempts p now)
    (p := fun t => decide (later - loginWindowSeconds * 1000 ≤ t))
  unfold blockedUntil
  split
  · refine iff_of_false (by omega) ?_
    rintro ⟨_, hnone, _⟩
    cases hnone
  · rename_i hge
    have hk : (failuresSince attempts p now).length - max < (failuresSince attempts p now).length := by omega
    have hpivot := le_getElem_iff failuresSince_sorted hk (later - loginWindowSeconds * 1000)
    rw [List.getD_eq_getElem _ _ hk]
    simp only [Option.mem_def, Option.some.injEq, exists_eq_left']
    rw [← sub_le_iff_le_add, hpivot]
    omega

/-- The seconds until then, rounded up. -/
theorem secondsUntilUnblocked_eq {failures : List Int} {deadline : Int} (h : blockedUntil failures max = some deadline) :
    secondsUntilUnblocked failures max now = Max.max 1 (-((now - deadline) / 1000)) := by
  unfold blockedUntil at h
  unfold secondsUntilUnblocked
  split at h
  · cases h
  · rename_i hge
    rw [if_neg hge]
    obtain rfl := Option.some.inj h
    rfl

end Counter

/-! ## The check -/

section Check
variable {attempts : Table LoginAttempt} {email : String} {ip : Option String} {now later wait : Int}

theorem ipFailures_eq : ipFailures attempts ip now = failuresSince attempts (fromIp ip) now := by
  unfold ipFailures
  cases ip with
  | none =>
      unfold failuresSince
      simp [fromIp]
  | some ip => rfl

theorem refused_of_wait (h : throttleDecision attempts email ip now = .refused wait) :
    0 < wait ∧ throttleWait (emailFailures attempts email now) (ipFailures attempts ip now) now = wait := by
  unfold throttleDecision at h
  dsimp only at h
  split at h
  · rename_i hpos
    obtain rfl := ThrottleDecision.refused.inj h
    exact ⟨hpos, rfl⟩
  · cases h

/-- The check refuses up to `refusedUntil`. -/
theorem refused_iff (h : Complete attempts email ip now) (hle : now ≤ later) :
    throttleDecision attempts email ip later ≠ .allowed ↔
      ∃ deadline ∈ refusedUntil attempts email ip now, later ≤ deadline := by
  have hemail := blocked_iff (show 0 < loginMaxFailuresPerEmail by decide) h.email hle
  have hip := blocked_iff (show 0 < loginMaxFailuresPerIp by decide) h.ip hle
  have hdecision : throttleDecision attempts email ip later ≠ .allowed ↔
      0 < secondsUntilUnblocked (emailFailures attempts email later) loginMaxFailuresPerEmail later ∨
        0 < secondsUntilUnblocked (ipFailures attempts ip later) loginMaxFailuresPerIp later := by
    unfold throttleDecision throttleWait
    dsimp only
    split
    · rename_i hpos
      exact iff_of_true nofun (lt_max_iff.mp hpos)
    · rename_i hnot
      exact iff_of_false (fun hne => hne rfl) fun hpos => hnot (lt_max_iff.mpr hpos)
  rw [hdecision, ipFailures_eq, emailFailures, hemail, hip]
  unfold refusedUntil
  rw [ipFailures_eq, emailFailures]
  generalize blockedUntil _ _ = until₁
  generalize blockedUntil _ _ = until₂
  cases until₁ <;> cases until₂ <;> simp [List.max?]

/-- The delay is the time until then in seconds, rounded up, and at least one second. -/
theorem throttleWait_eq {deadline : Int} (h : refusedUntil attempts email ip now = some deadline) :
    throttleWait (emailFailures attempts email now) (ipFailures attempts ip now) now =
      max 1 (-((now - deadline) / 1000)) := by
  have hnone : ∀ {failures : List Int} {max : Nat}, blockedUntil failures max = none →
      secondsUntilUnblocked failures max now = 0 := by
    intro failures max hblocked
    unfold blockedUntil at hblocked
    split at hblocked
    · rename_i hless
      rw [secondsUntilUnblocked, if_pos hless]
    · cases hblocked
  unfold refusedUntil at h
  unfold throttleWait
  cases h₁ : blockedUntil (emailFailures attempts email now) loginMaxFailuresPerEmail with
  | none =>
      cases h₂ : blockedUntil (ipFailures attempts ip now) loginMaxFailuresPerIp with
      | none => simp [h₁, h₂] at h
      | some d₂ =>
          simp [h₁, h₂] at h
          rw [hnone h₁, secondsUntilUnblocked_eq h₂, h]
          omega
  | some d₁ =>
      cases h₂ : blockedUntil (ipFailures attempts ip now) loginMaxFailuresPerIp with
      | none =>
          simp [h₁, h₂] at h
          rw [hnone h₂, secondsUntilUnblocked_eq h₁, h]
          omega
      | some d₂ =>
          simp [h₁, h₂, List.max?] at h
          rw [secondsUntilUnblocked_eq h₁, secondsUntilUnblocked_eq h₂]
          omega

end Check

/-- **The announced delay.** When the check refuses and announces a delay, with nothing further recorded it refuses at every
whole second before and allows at the end of the delay, exactly when the last millisecond of the block is not a positive whole
number of seconds away. -/
theorem retry_delay_iff (attempts : Table LoginAttempt) (email : String) (ip : Option String) (now wait : Int)
    (hcomplete : Complete attempts email ip now) (hrefused : throttleDecision attempts email ip now = .refused wait) :
    (throttleDecision attempts email ip (now + wait * 1000) = .allowed ∧
      ∀ k, 0 ≤ k → k < wait → throttleDecision attempts email ip (now + k * 1000) ≠ .allowed) ↔
    ∀ n, 0 < n → refusedUntil attempts email ip now ≠ some (now + n * 1000) := by
  obtain ⟨hpos, hwait⟩ := refused_of_wait hrefused
  obtain ⟨deadline, hdeadline, hnow⟩ := (refused_iff hcomplete le_rfl).mp (by rw [hrefused]; nofun)
  have hlater : ∀ k, 0 ≤ k →
      (throttleDecision attempts email ip (now + k * 1000) ≠ .allowed ↔ now + k * 1000 ≤ deadline) := by
    intro k hk
    rw [refused_iff hcomplete (by omega), hdeadline]
    simp
  rw [throttleWait_eq hdeadline] at hwait
  have hend : throttleDecision attempts email ip (now + wait * 1000) = .allowed ↔ deadline < now + wait * 1000 := by
    rw [← not_iff_not, not_lt]
    exact hlater wait (by omega)
  rw [hend, hdeadline]
  simp only [ne_eq, Option.some.injEq]
  constructor
  · rintro ⟨hless, -⟩ n hn heq
    omega
  · intro h
    refine ⟨?_, fun k hk hlt => (hlater k hk).mpr ?_⟩
    · have := h wait hpos
      omega
    · omega

/-- Eight wrong passwords for one account, the first at `time` and one every 100 ms. -/
def eightFailures (time : Int) : Table LoginAttempt where
  rows := (List.range 8).map fun n => ⟨n, "me@example.org", none, false, time + 100 * n⟩
  next := 8
  lt_next := by
    intro a ha
    obtain ⟨n, hn, rfl⟩ := List.mem_map.mp ha
    exact List.mem_range.mp hn
  nodup := by
    rw [List.map_map]
    exact List.Nodup.map (fun _ _ h => h) List.nodup_range

theorem retry_delay_one_second :
    throttleDecision (eightFailures 1790000000000) "me@example.org" none 1790000000700 = .refused 900 ∧
      throttleDecision (eightFailures 1790000000000) "me@example.org" none (1790000000700 + 900 * 1000) = .allowed := by
  have hrefused : throttleDecision (eightFailures 1790000000000) "me@example.org" none 1790000000700 = .refused 900 := by
    decide +kernel
  refine ⟨hrefused, ((retry_delay_iff _ _ _ _ _ ⟨by decide +kernel, by decide +kernel⟩ hrefused).mpr fun n hn => ?_).1⟩
  have huntil : refusedUntil (eightFailures 1790000000000) "me@example.org" none 1790000000700 = some 1790000900000 := by
    decide +kernel
  rw [huntil, ne_eq, Option.some.injEq]
  omega

/-- **One second too early.** The first failure was one second ago: the check announces 899 s, and at their end it refuses. -/
theorem retry_delay_boundary :
    throttleDecision (eightFailures 1790000000000) "me@example.org" none 1790000001000 = .refused 899 ∧
      Complete (eightFailures 1790000000000) "me@example.org" none 1790000001000 ∧
      throttleDecision (eightFailures 1790000000000) "me@example.org" none (1790000001000 + 899 * 1000) = .refused 1 :=
  ⟨by decide +kernel, ⟨by decide +kernel, by decide +kernel⟩, by decide +kernel⟩

end IkelyaneMonitor.Auth
