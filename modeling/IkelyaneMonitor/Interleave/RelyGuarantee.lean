import IkelyaneMonitor.Interleave.Prog

/-!
# Rely and guarantee

`Spec` says what the calls of a system promise each other: an invariant of the store, what a call may assume of the moves
of the others while its next statement is `w`, what its own moves do, and what holds of a value it returned.

* `Spec.Sat S sem i p P` : call `p` of caller `i` keeps its promises from any store of `P`;
* `Spec.Good` : a configuration all of whose calls do; `Good.step` : one move keeps it, provided what the mover did is
  what the others rely on; `Good.reach` : so does a run;
* `Good.single_use` : of the calls that returned, at most one took a given resource.
-/

namespace Interleave

variable {ι ω σ α : Type}

structure Spec (ι ω σ α : Type) where
  inv : σ → Prop
  /-- What the others may do while the next statement of the caller is this one. -/
  rely : ι → Option ω → σ → σ → Prop
  /-- What one move does, with the call as it is afterwards. -/
  guar : ι → σ → ω → σ → Prog ω σ α → Prop
  post : ι → α → σ → Prop

namespace Spec

variable (S : Spec ι ω σ α) (sem : ι → ω → σ → Option σ)

/-- No move of the others breaks `P` while the caller waits at `w`. -/
def Stable (i : ι) (w : Option ω) (P : σ → Prop) : Prop :=
  ∀ s s', S.inv s → S.inv s' → S.rely i w s s' → P s → P s'

def Sat (i : ι) : Prog ω σ α → (σ → Prop) → Prop
  | .ret a, P => ∀ s, S.inv s → P s → S.post i a s
  | .stmt w k, P => ∀ s s', S.inv s → P s → sem i w s = some s' →
      S.inv s' ∧ S.guar i s w s' (k s) ∧ ∃ P', S.Stable i (k s).next? P' ∧ P' s' ∧ Sat i (k s) P'

/-- The invariant holds and every call keeps its promises from here. -/
def Good (c : Conf ι ω σ α) : Prop :=
  S.inv c.store ∧ ∀ i, ∃ P, S.Stable i (c.calls i).next? P ∧ P c.store ∧ S.Sat sem i (c.calls i) P

variable {S sem}

theorem Stable.true (i : ι) (w : Option ω) : S.Stable i w fun _ => True := fun _ _ _ _ _ _ => trivial

/-- A call that starts from any store of the invariant. -/
theorem Good.init {c : Conf ι ω σ α} (hinv : S.inv c.store) (h : ∀ i, S.Sat sem i (c.calls i) fun _ => True) :
    S.Good sem c :=
  ⟨hinv, fun i => ⟨fun _ => True, Stable.true i _, trivial, h i⟩⟩

theorem Good.post {c : Conf ι ω σ α} (h : S.Good sem c) {i : ι} {a : α} (hi : c.calls i = .ret a) :
    S.post i a c.store := by
  obtain ⟨P, _, hP, hsat⟩ := h.2 i
  rw [hi] at hsat
  exact hsat _ h.1 hP

/-- A call that keeps its promises knowing less. -/
theorem Sat.mono {i : ι} {p : Prog ω σ α} {P P' : σ → Prop} (h : ∀ s, P' s → P s) (hp : S.Sat sem i p P) :
    S.Sat sem i p P' := by
  cases p with
  | ret a => exact fun s hs hP => hp s hs (h s hP)
  | stmt w k => exact fun s s' hs hP hsem => hp s s' hs (h s hP) hsem

/-- A call that needs to know nothing of the store to keep its promises. -/
theorem Sat.of_all {i : ι} {W : ω → Prop} {Q : α → Prop}
    (hinv : ∀ w s s', W w → S.inv s → sem i w s = some s' → S.inv s')
    (hguar : ∀ w s s' p, W w → p.All S.inv W Q → S.inv s → sem i w s = some s' → S.guar i s w s' p)
    (hpost : ∀ a s, Q a → S.inv s → S.post i a s) {p : Prog ω σ α} (hp : p.All S.inv W Q) :
    S.Sat sem i p fun _ => True := by
  induction p with
  | ret a => exact fun s hs _ => hpost a s hp hs
  | stmt w k ih =>
      intro s s' hs _ hsem
      exact ⟨hinv w s s' hp.1 hs hsem, hguar w s s' _ hp.1 (hp.2 s hs) hs hsem, fun _ => True, Stable.true i _, trivial,
        ih s (hp.2 s hs)⟩

variable [DecidableEq ι]

/-- What the mover guarantees, from its own promises alone. -/
theorem Good.guar {c c' : Conf ι ω σ α} {i : ι} (h : S.Good sem c) (hs : c.step sem i = some c') :
    S.inv c'.store ∧ ∃ w k, c.calls i = .stmt w k ∧ sem i w c.store = some c'.store ∧
      c'.calls = Function.update c.calls i (k c.store) ∧ S.guar i c.store w c'.store (k c.store) := by
  obtain ⟨w, k, s', hw, hsem, rfl⟩ := (Conf.step_eq_some sem).mp hs
  obtain ⟨P, _, hP, hsat⟩ := h.2 i
  rw [hw] at hsat
  obtain ⟨hinv, hg, _⟩ := hsat _ _ h.1 hP hsem
  exact ⟨hinv, w, k, hw, hsem, rfl, hg⟩

/-- One move: the mover goes on keeping its promises, and so do the others, whose assertions survive it. -/
theorem Good.step {c c' : Conf ι ω σ α} {i : ι} (h : S.Good sem c) (hs : c.step sem i = some c')
    (hrely : ∀ j, j ≠ i → S.rely j (c.calls j).next? c.store c'.store) : S.Good sem c' := by
  obtain ⟨w, k, s', hw, hsem, rfl⟩ := (Conf.step_eq_some sem).mp hs
  obtain ⟨P, _, hP, hsat⟩ := h.2 i
  rw [hw] at hsat
  obtain ⟨hinv, _, P', hst', hP', hsat'⟩ := hsat _ _ h.1 hP hsem
  refine ⟨hinv, fun j => ?_⟩
  change ∃ P, S.Stable j (Function.update c.calls i (k c.store) j).next? P ∧ P s' ∧
    S.Sat sem j (Function.update c.calls i (k c.store) j) P
  by_cases hj : j = i
  · subst hj
    rw [Function.update_self]
    exact ⟨P', hst', hP', hsat'⟩
  · obtain ⟨Q, hstQ, hQ, hsatQ⟩ := h.2 j
    rw [Function.update_of_ne hj]
    exact ⟨Q, hstQ, hstQ _ _ h.1 hinv (hrely j hj) hQ, hsatQ⟩

/-- What the mover does is what every other call relies on. -/
def Compatible (S : Spec ι ω σ α) (sem : ι → ω → σ → Option σ) (ok : Conf ι ω σ α → ι → Prop) : Prop :=
  ∀ (c : Conf ι ω σ α) (i : ι) (w : ω) (k : σ → Prog ω σ α) (s' : σ), S.inv c.store → ok c i → c.calls i = .stmt w k →
    sem i w c.store = some s' → S.guar i c.store w s' (k c.store) →
      ∀ j, j ≠ i → S.rely j (c.calls j).next? c.store s'

theorem Good.reach {ok : Conf ι ω σ α → ι → Prop} (hcompat : S.Compatible sem ok) {c c' : Conf ι ω σ α}
    (h : S.Good sem c) (hr : Reach sem ok c c') : S.Good sem c' := by
  induction hr with
  | refl => exact h
  | step _ hi hs ih =>
      obtain ⟨_, w, k, hw, hsem, _, hg⟩ := ih.guar hs
      exact ih.step hs (hcompat _ _ w k _ ih.1 hi hw hsem hg)

/-- A move that returns a value using `x` finds `x` available, and no value using `x` is around while it is: so at most
one call ever returns one. -/
theorem Good.single_use {β : Type} (avail : β → σ → Prop) (takes : α → β → Prop) {ok : Conf ι ω σ α → ι → Prop}
    (hcompat : S.Compatible sem ok)
    (hpost : ∀ i a s x, S.post i a s → takes a x → ¬ avail x s)
    (hguar : ∀ i s w s' a x, S.guar i s w s' (.ret a) → takes a x → avail x s)
    {c₀ c : Conf ι ω σ α} (h₀ : S.Good sem c₀) (hinit : ∀ i a x, c₀.calls i = .ret a → ¬ takes a x)
    (hr : Reach sem ok c₀ c) {i j : ι} {a b : α} {x : β} (hi : c.calls i = .ret a) (hj : c.calls j = .ret b)
    (ha : takes a x) (hb : takes b x) : i = j := by
  induction hr generalizing i j a b with
  | refl => exact absurd ha (hinit i a x hi)
  | @step c₁ c₂ m hr₁ hok hs ih =>
      have hgood := h₀.reach hcompat hr₁
      obtain ⟨_, w, k, hw, _, hcalls, hg⟩ := hgood.guar hs
      rw [hcalls] at hi hj
      by_cases him : i = m
      · by_cases hjm : j = m
        · exact him.trans hjm.symm
        · subst him
          rw [Function.update_self] at hi
          rw [Function.update_of_ne hjm] at hj
          rw [hi] at hg
          exact absurd (hguar _ _ _ _ _ _ hg ha) (hpost _ _ _ _ (hgood.post hj) hb)
      · rw [Function.update_of_ne him] at hi
        by_cases hjm : j = m
        · subst hjm
          rw [Function.update_self] at hj
          rw [hj] at hg
          exact absurd (hguar _ _ _ _ _ _ hg hb) (hpost _ _ _ _ (hgood.post hi) ha)
        · rw [Function.update_of_ne hjm] at hj
          exact ih hi hj ha hb

end Spec

end Interleave
