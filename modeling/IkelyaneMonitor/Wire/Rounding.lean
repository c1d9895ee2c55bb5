import Mathlib.Algebra.Order.Ring.Rat
import Mathlib.Order.Monotone.Basic

/-!
# Rounded arithmetic

* `Rounding` : how the results of a floating-point format are rounded, as far as bounds need it: in order, and whole numbers
  that the format holds stay;
* `nonneg` : a bound that rounding keeps; `exact` : the rounding of numbers that the format holds.

The values are those without overflow: every number here is far below the largest that the format holds.
-/

namespace Wire

structure Rounding where
  round : ℚ → ℚ
  mono : Monotone round
  /-- Of the binary format with 53 bits. -/
  whole : ∀ n : ℤ, n.natAbs ≤ 2 ^ 53 → round n = n

namespace Rounding
variable (fl : Rounding) {x : ℚ}

theorem nonneg (h : 0 ≤ x) : 0 ≤ fl.round x := by
  have hzero : fl.round ((0 : ℤ) : ℚ) = ((0 : ℤ) : ℚ) := fl.whole 0 (by decide)
  have hmono : fl.round ((0 : ℤ) : ℚ) ≤ fl.round x := fl.mono (by simpa using h)
  rw [hzero] at hmono
  simpa using hmono

/-- Nothing is rounded. -/
def exact : Rounding := ⟨id, monotone_id, fun _ _ => rfl⟩

end Rounding

end Wire
