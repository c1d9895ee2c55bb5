import Mathlib.Algebra.Order.Field.Rat
import IkelyaneMonitor.Wire.Json
import IkelyaneMonitor.Wire.Rounding
import IkelyaneMonitor.Wire.Time

/-!
# What the collectors of the agent share

* `Instant` : a reading of the clock, with its text and its place on the axis of time;
* `floatSeconds` : `time.Duration.Seconds`; `perSeconds` : a counter's increase by the seconds it took;
* `textField`, `numField`, `natField`, `listField` : the fields of a JSON object that are left out when there is nothing to
  say.

Strings of the agent are bytes. Floating-point numbers are fractions, rounded after each operation.
-/

namespace IkelyaneMonitor.Agent
open Wire

structure Instant where
  wall : Civil
  /-- Nanoseconds. -/
  nanos : Int
  deriving DecidableEq

/-- `now.Format(time.RFC3339)`. -/
def Instant.format (t : Instant) : List UInt8 := utf8 t.wall.rfc3339

/-- A time of day, in minutes after noon. -/
def noon (n : Nat) : Instant where
  wall := ⟨2026, 3, 1, 12, 0, 0, 3600, by decide, by decide, by decide, by decide, by decide, by decide, by decide⟩
  nanos := 1772362800000000000 + n * 60000000000

section Floats
variable (fl : Rounding)

/-- The seconds of a number of nanoseconds: the whole ones and the rest are added as floating-point numbers. -/
def floatSeconds (d : Int) : ℚ := fl.round (fl.round (d.tdiv (10 ^ 9)) + fl.round (fl.round (d.tmod (10 ^ 9)) / 10 ^ 9))

/-- `float64(n) / seconds`. -/
def perSeconds (n : Nat) (seconds : ℚ) : ℚ := fl.round (fl.round n / seconds)

variable {fl}

theorem perSeconds_nonneg (n : Nat) {seconds : ℚ} (h : 0 < seconds) : 0 ≤ perSeconds fl n seconds :=
  fl.nonneg (div_nonneg (fl.nonneg (Nat.cast_nonneg n)) h.le)

theorem floatSeconds_exact (d : Int) : floatSeconds .exact d = d / 10 ^ 9 := by
  have hsplit := Int.mul_tdiv_add_tmod d (10 ^ 9)
  show ((d.tdiv (10 ^ 9) : Int) : ℚ) + ((d.tmod (10 ^ 9) : Int) : ℚ) / 10 ^ 9 = d / 10 ^ 9
  rw [eq_div_iff (by norm_num), add_mul, div_mul_cancel₀ _ (by norm_num)]
  exact_mod_cast (by omega : d.tdiv (10 ^ 9) * 10 ^ 9 + d.tmod (10 ^ 9) = d)

end Floats

/-- `omitempty` of a string. -/
def textField (bytes : List UInt8) : Option (Json (List UInt8) ℚ) := if bytes = [] then none else some (.str bytes)

/-- `omitempty` of a pointer to a number. -/
def numField (n : Option ℚ) : Option (Json (List UInt8) ℚ) := n.map .num

def natField (n : Option Nat) : Option (Json (List UInt8) ℚ) := n.map fun n => .num (n : ℚ)

/-- `omitempty` of a slice. -/
def listField (items : List (Json (List UInt8) ℚ)) : Option (Json (List UInt8) ℚ) :=
  if items = [] then none else some (.arr items)

end IkelyaneMonitor.Agent
