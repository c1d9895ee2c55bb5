import IkelyaneMonitor.Interleave.Prog

/-!
# What a call rests on

A call may run a statement because of what it read earlier, in stores that are gone by then. So runs carry their past here.

* `Past sem c₀ h c` : a run from `c₀` to `c`, and the stores that its statements found, the latest first (`Reach.past`);
* `Once P h` : at some time of `h`, `P` held of the store and of the past it had then;
* `Prog.Rests I W h p` : of a call that has the past `h`, every statement satisfies `W` when it is run, whatever the others do
  before it and as long as `I` holds (`Rests.later`);
* `Past.rests` : what calls rest on makes an invariant of the run and its past.
-/

namespace Interleave

variable {ι ω σ α : Type}

/-! ## Runs with their past -/

section Runs
variable [DecidableEq ι] (sem : ι → ω → σ → Option σ)

inductive Past (c₀ : Conf ι ω σ α) : List σ → Conf ι ω σ α → Prop
  | start : Past c₀ [] c₀
  | step {h : List σ} {c c' : Conf ι ω σ α} {i : ι} : Past c₀ h c → c.step sem i = some c' → Past c₀ (c.store :: h) c'

variable {sem}

theorem Reach.past {ok : Conf ι ω σ α → ι → Prop} {c₀ c : Conf ι ω σ α} (hr : Reach sem ok c₀ c) :
    ∃ h, Past sem c₀ h c := by
  induction hr with
  | refl => exact ⟨[], .start⟩
  | step _ _ hs ih =>
      obtain ⟨h, hpast⟩ := ih
      exact ⟨_, hpast.step hs⟩

end Runs

/-- `P` held of a store of the past, and of what was past then. -/
def Once (P : σ → List σ → Prop) : List σ → Prop
  | [] => False
  | s :: h => P s h ∨ Once P h

section Once
variable {P : σ → List σ → Prop} {h h' : List σ}

theorem Once.now {s : σ} (hs : P s h) : Once P (s :: h) := .inl hs

theorem Once.later (hP : Once P h) (hle : h <:+ h') : Once P h' := by
  induction h' with
  | nil => rwa [List.suffix_nil.mp hle] at hP
  | cons s h' ih =>
      rcases List.suffix_cons_iff.mp hle with rfl | hle
      · exact hP
      · exact .inr (ih hle)

end Once

/-! ## What the statements of a call rest on -/

/-- Every statement satisfies `W` when it is run: `W` is told the store it finds and the past, which has `h` at its end. -/
def Prog.Rests (I : List σ → Prop) (W : List σ → ω → Prop) : List σ → Prog ω σ α → Prop
  | _, .ret _ => True
  | h, .stmt w k => ∀ h' s, h <:+ h' → I (s :: h') → W (s :: h') w ∧ (k s).Rests I W (s :: h')

section Rests
variable {I : List σ → Prop} {W : List σ → ω → Prop} {h h' : List σ} {p : Prog ω σ α}

theorem Rests.later (hp : p.Rests I W h) (hle : h <:+ h') : p.Rests I W h' := by
  cases p with
  | ret a => trivial
  | stmt w k => exact fun h'' s hle' hI => hp h'' s (hle.trans hle') hI

end Rests

end Interleave
