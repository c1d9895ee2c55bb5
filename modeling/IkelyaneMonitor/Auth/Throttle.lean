import Mathlib.Data.List.Sort
import IkelyaneMonitor.Interleave.Table

/-!
# Sign-in throttling (`lib/auth/throttle.ts`, `lib/auth/constants.ts`)

* `secondsUntilUnblocked` : how long a counter of failures stays at its limit;
* `emailFailures`, `ipFailures` : what the two queries of `checkLoginThrottle` return; `throttleWait` : its decision on them.
-/

namespace IkelyaneMonitor.Auth
open Interleave

structure LoginAttempt where
  id : Nat
  email : String
  ipAddress : Option String
  success : Bool
  createdAt : Int

instance : Keyed LoginAttempt := ⟨LoginAttempt.id⟩

def loginWindowSeconds : Int := 15 * 60
def loginMaxFailuresPerEmail : Nat := 8
def loginMaxFailuresPerIp : Nat := 30

/-- Seconds until failures, oldest first, fall back under `max`; 0 when they are under it. -/
def secondsUntilUnblocked (failureTimesAsc : List Int) (max : Nat) (now : Int) : Int :=
  if failureTimesAsc.length < max then 0
  else
    let pivot := failureTimesAsc.getD (failureTimesAsc.length - max) 0
    -- `Math.ceil` of a quotient
    Max.max 1 (-((now - (pivot + loginWindowSeconds * 1000)) / 1000))

theorem secondsUntilUnblocked_pos_iff {times : List Int} {max : Nat} {now : Int} :
    0 < secondsUntilUnblocked times max now ↔ max ≤ times.length := by
  unfold secondsUntilUnblocked
  split
  · omega
  · rename_i h
    exact iff_of_true (lt_of_lt_of_le Int.one_pos (le_max_left _ _)) (not_lt.mp h)

/-- The times of the failures that `p` selects since the start of the window, oldest first, 500 at most. -/
def failuresSince (attempts : Table LoginAttempt) (p : LoginAttempt → Bool) (now : Int) : List Int :=
  (((attempts.rows.filter fun a => p a && !a.success && decide (now - loginWindowSeconds * 1000 ≤ a.createdAt)).map
    LoginAttempt.createdAt).insertionSort (· ≤ ·)).take 500

def emailFailures (attempts : Table LoginAttempt) (email : String) (now : Int) : List Int :=
  failuresSince attempts (fun a => a.email == email) now

def ipFailures (attempts : Table LoginAttempt) (ip : Option String) (now : Int) : List Int :=
  match ip with
  | none => []
  | some ip => failuresSince attempts (fun a => a.ipAddress == some ip) now

/-- `retryAfterSeconds` of `checkLoginThrottle`, or 0 when the attempt may proceed. -/
def throttleWait (emailFailures ipFailures : List Int) (now : Int) : Int :=
  max (secondsUntilUnblocked emailFailures loginMaxFailuresPerEmail now)
    (secondsUntilUnblocked ipFailures loginMaxFailuresPerIp now)

end IkelyaneMonitor.Auth
