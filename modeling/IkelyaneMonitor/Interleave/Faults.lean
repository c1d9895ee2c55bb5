import IkelyaneMonitor.Interleave.RelyGuarantee

/-!
# Calls that fail half-way

* `Prog.failAt undo a n p` : the call `p` whose statement number `n` fails: it runs `undo` instead and returns `a`;
* `Spec.Sat.failAt` : it keeps its promises as `p` does, when what a call relies on does not depend on its next statement
  and `undo` may run at any time.
-/

namespace Interleave

variable {ι ω σ α : Type}

def Prog.failAt (undo : ω) (a : α) : Nat → Prog ω σ α → Prog ω σ α
  | _, .ret b => .ret b
  | 0, .stmt _ _ => .stmt undo fun _ => .ret a
  | n + 1, .stmt w k => .stmt w fun s => (k s).failAt undo a n

variable {undo : ω} {a : α}

@[simp] theorem Prog.failAt_ret (n : Nat) (b : α) : (Prog.ret b : Prog ω σ α).failAt undo a n = .ret b := by
  cases n <;> rfl

theorem Prog.failAt_eq_ret {n : Nat} {p : Prog ω σ α} {b : α} : p.failAt undo a n = .ret b ↔ p = .ret b := by
  cases p with
  | ret b' => rw [failAt_ret]
  | stmt w k => cases n <;> exact ⟨nofun, nofun⟩

namespace Spec

variable {S : Spec ι ω σ α} {sem : ι → ω → σ → Option σ} {i : ι}

theorem Stable.of_rely (hrely : ∀ w w' s s', S.rely i w s s' → S.rely i w' s s') {w w' : Option ω} {P : σ → Prop}
    (h : S.Stable i w P) : S.Stable i w' P :=
  fun s s' hs hs' hr => h s s' hs hs' (hrely w' w s s' hr)

theorem Sat.failAt (hrely : ∀ w w' s s', S.rely i w s s' → S.rely i w' s s')
    (hguar : ∀ s w s' p n, S.guar i s w s' p → S.guar i s w s' (p.failAt undo a n))
    (hundo : S.Sat sem i (.stmt undo fun _ => .ret a) fun _ => True) {p : Prog ω σ α} {P : σ → Prop}
    (hp : S.Sat sem i p P) (n : Nat) : S.Sat sem i (p.failAt undo a n) P := by
  induction p generalizing P n with
  | ret b =>
      rw [Prog.failAt_ret]
      exact hp
  | stmt w k ih =>
      cases n with
      | zero => exact hundo.mono fun _ _ => trivial
      | succ n =>
          intro s s' hs hP hsem
          obtain ⟨hinv, hg, P', hstable, hP', hsat⟩ := hp s s' hs hP hsem
          exact ⟨hinv, hguar s w s' _ n hg, P', hstable.of_rely hrely, hP', ih s hsat n⟩

end Spec

end Interleave
