import Mathlib.Data.List.Basic

/-!
# Calls run one after another, with what they returned

`run op s` is the store after the call `op` and the value it returned, or `none` when it does not get through.

* `History run ok s h s'` : calls run one after another from `s` led to `s'`. `h` is the log of the calls and their values,
  the last one first; each call satisfied `ok` on the log and the store it found;
* `History.split` : the run before an entry of the log, and the one after it;
* `runAll` : a run, executable (`History.of_runAll`).
-/

namespace Interleave

variable {κ σ α : Type} (run : κ → σ → Option (σ × α))

inductive History (ok : List (κ × α) → κ → σ → Prop) (s : σ) : List (κ × α) → σ → Prop
  | start : History ok s [] s
  | call {h : List (κ × α)} {s' s'' : σ} {op : κ} {a : α} :
      History ok s h s' → ok h op s' → run op s' = some (s'', a) → History ok s ((op, a) :: h) s''

/-- Run the calls that are left while each one satisfies `p`. -/
def runAll (p : List (κ × α) → κ → σ → Bool) : List κ → List (κ × α) → σ → Option (List (κ × α) × σ)
  | [], h, s => some (h, s)
  | op :: ops, h, s => if p h op s then (run op s).bind fun r => runAll p ops ((op, r.2) :: h) r.1 else none

variable {run} {ok : List (κ × α) → κ → σ → Prop} {s s' : σ} {h : List (κ × α)}

/-- The run up to the older entries, and the one that made the newer ones. -/
theorem History.split {newer older : List (κ × α)} (hr : History run ok s (newer ++ older) s') :
    ∃ mid, History run ok s older mid ∧ History run (fun h => ok (h ++ older)) mid newer s' := by
  induction newer generalizing s' with
  | nil => exact ⟨s', hr, .start⟩
  | cons entry newer ih =>
      cases hr with
      | call hr hok hrun =>
          obtain ⟨mid, hold, hnew⟩ := ih hr
          exact ⟨mid, hold, .call hnew hok hrun⟩

theorem History.of_runAll {p : List (κ × α) → κ → σ → Bool} (hok : ∀ h op s, p h op s = true → ok h op s) {s₀ : σ}
    (hr : History run ok s₀ h s) {ops : List κ} {h' : List (κ × α)} (hrun : runAll run p ops h s = some (h', s')) :
    History run ok s₀ h' s' := by
  induction ops generalizing h s with
  | nil =>
      cases hrun
      exact hr
  | cons op ops ih =>
      rw [runAll] at hrun
      split at hrun
      · rename_i hp
        obtain ⟨⟨s₁, a⟩, hop, hrest⟩ := Option.bind_eq_some_iff.mp hrun
        exact ih (.call hr (hok _ _ _ hp) hop) hrest
      · cases hrun

end Interleave
