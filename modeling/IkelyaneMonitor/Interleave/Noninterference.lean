import IkelyaneMonitor.Interleave.Faults

/-!
# What the calls of one owner notice of the others

Every call has an owner. `Secure` says what a store looks like to an owner, by relating it to another that looks the same
(`alike`), and what a call may count on of the moves of all others (`rely`).

* `Secure.Sat S sem i p P` : call `p` of caller `i`, from any store of `P`, leaves what the other owners see, and goes on in
  the same way from two stores that look the same to its own;
* `Secure.Sat.map`, `Secure.Sat.failAt` : so does the call whose value is mapped, and the one a statement of which fails;
* `Secure.Safe` : every call of a configuration does (`Safe.step`, `Safe.reach`);
* `Secure.Twins` : a run, and another one in which only the calls of one owner move; `Secure.Twins.run` : the second one keeps
  up with the first, `Secure.alone` : so these calls may as well run alone.
-/

namespace Interleave

variable {ι ω σ α δ : Type}

/-- The call with another value. -/
def Prog.map {β : Type} (f : α → β) : Prog ω σ α → Prog ω σ β
  | .ret a => .ret (f a)
  | .stmt w k => .stmt w fun s => (k s).map f

theorem Prog.exec_map {β : Type} {sem : ι → ω → σ → Option σ} (f : α → β) (p : Prog ω σ α) (i : ι) (s : σ) :
    (p.map f).exec sem i s = (p.exec sem i s).map fun r => (r.1, f r.2) := by
  induction p generalizing s with
  | ret a => rfl
  | stmt w k ih => simp only [Prog.map, Prog.exec, ih, Option.map_bind, Function.comp_def]

structure Secure (ι ω σ δ : Type) where
  owner : ι → δ
  inv : σ → Prop
  /-- The second store looks to the owner as the first does. -/
  alike : δ → σ → σ → Prop
  /-- What a statement of any call may do. -/
  rely : σ → σ → Prop
  alike_refl : ∀ d s, alike d s s
  rely_refl : ∀ s, rely s s

namespace Secure

variable (S : Secure ι ω σ δ) (sem : ι → ω → σ → Option σ)

/-- No statement of another call breaks `P`. -/
def Stable (P : σ → Prop) : Prop := ∀ s s', S.inv s → S.rely s s' → P s → P s'

/-- What a statement does to the store, whatever the owners see. -/
structure Quiet (i : ι) (w : ω) (s : σ) : Prop where
  inv : ∀ s', sem i w s = some s' → S.inv s'
  rely : ∀ s', sem i w s = some s' → S.rely s s'
  others : ∀ s', sem i w s = some s' → ∀ d, d ≠ S.owner i → ∀ t, S.inv t → S.alike d s t → S.alike d s' t

def Sat (i : ι) : Prog ω σ α → (σ → Prop) → Prop
  | .ret _, _ => True
  | .stmt w k, P => ∀ s, S.inv s → P s → S.Quiet sem i w s ∧ ∃ P', S.Stable P' ∧ Sat i (k s) P' ∧
      ∀ s' t, S.inv t → P t → S.alike (S.owner i) s t → sem i w s = some s' →
        ∃ t', sem i w t = some t' ∧ S.alike (S.owner i) s' t' ∧ k t = k s ∧ P' s' ∧ P' t'

variable {S sem}

theorem Stable.true : S.Stable fun _ => True := fun _ _ _ _ _ => trivial

theorem Stable.and {P Q : σ → Prop} (hP : S.Stable P) (hQ : S.Stable Q) : S.Stable fun s => P s ∧ Q s :=
  fun s s' hs hrely h => ⟨hP s s' hs hrely h.1, hQ s s' hs hrely h.2⟩

theorem Stable.imp {b : Prop} {P : σ → Prop} (hP : S.Stable P) : S.Stable fun s => b → P s :=
  fun s s' hs hrely h hb => hP s s' hs hrely (h hb)

theorem Sat.mono {i : ι} {p : Prog ω σ α} {P P' : σ → Prop} (h : ∀ s, P' s → P s) (hp : S.Sat sem i p P) :
    S.Sat sem i p P' := by
  cases p with
  | ret a => trivial
  | stmt w k =>
      intro s hs hP
      obtain ⟨hquiet, Q, hstable, hsat, hnext⟩ := hp s hs (h s hP)
      exact ⟨hquiet, Q, hstable, hsat, fun s' t ht hPt halike hsem => hnext s' t ht (h t hPt) halike hsem⟩

theorem Sat.map {β : Type} (f : α → β) {i : ι} {p : Prog ω σ α} {P : σ → Prop} (hp : S.Sat sem i p P) :
    S.Sat sem i (p.map f) P := by
  induction p generalizing P with
  | ret a => trivial
  | stmt w k ih =>
      intro s hs hP
      obtain ⟨hquiet, Q, hstable, hsat, hnext⟩ := hp s hs hP
      refine ⟨hquiet, Q, hstable, ih s hsat, fun s' t ht hPt halike h => ?_⟩
      obtain ⟨t', ht', halike', hk, hQ, hQ'⟩ := hnext s' t ht hPt halike h
      exact ⟨t', ht', halike', congrArg (Prog.map f) hk, hQ, hQ'⟩

/-- A call that neither reads nor writes at `w`. -/
theorem Sat.idle {i : ι} {w : ω} {p : Prog ω σ α} {P : σ → Prop} (hsem : ∀ s, sem i w s = some s)
    (hstable : S.Stable P) (hp : S.Sat sem i p P) : S.Sat sem i (.stmt w fun _ => p) P := by
  intro s hs hP
  refine ⟨⟨?_, ?_, ?_⟩, P, hstable, hp, ?_⟩
  · rintro s' h
    obtain rfl := Option.some.inj ((hsem s).symm.trans h)
    exact hs
  · rintro s' h
    obtain rfl := Option.some.inj ((hsem s).symm.trans h)
    exact S.rely_refl s
  · rintro s' h d - t - halike
    obtain rfl := Option.some.inj ((hsem s).symm.trans h)
    exact halike
  · rintro s' t - hPt halike h
    obtain rfl := Option.some.inj ((hsem s).symm.trans h)
    exact ⟨t, hsem t, halike, rfl, hP, hPt⟩

/-- The call that fails at its statement number `n` instead, and does nothing there. -/
theorem Sat.failAt {i : ι} {undo : ω} {a : α} (hsem : ∀ s, sem i undo s = some s)
    {p : Prog ω σ α} {P : σ → Prop} (hp : S.Sat sem i p P) (n : Nat) : S.Sat sem i (p.failAt undo a n) P := by
  induction p generalizing P n with
  | ret b =>
      rw [Prog.failAt_ret]
      exact hp
  | stmt w k ih =>
      cases n with
      | zero => exact (Sat.idle hsem Stable.true (p := .ret a) trivial).mono fun _ _ => trivial
      | succ n =>
          intro s hs hP
          obtain ⟨hquiet, Q, hstable, hsat, hnext⟩ := hp s hs hP
          refine ⟨hquiet, Q, hstable, ih s hsat n, fun s' t ht hPt halike h => ?_⟩
          obtain ⟨t', ht', halike', hk, hQ, hQ'⟩ := hnext s' t ht hPt halike h
          exact ⟨t', ht', halike', congrArg (Prog.failAt undo a n) hk, hQ, hQ'⟩

/-! ## Runs -/

variable [DecidableEq ι]

/-- The invariant holds and every call is confined from here. -/
def Safe (S : Secure ι ω σ δ) (sem : ι → ω → σ → Option σ) (c : Conf ι ω σ α) : Prop :=
  S.inv c.store ∧ ∀ i, ∃ P, S.Stable P ∧ P c.store ∧ S.Sat sem i (c.calls i) P

omit [DecidableEq ι] in
theorem Safe.init {c : Conf ι ω σ α} (hinv : S.inv c.store) (h : ∀ i, S.Sat sem i (c.calls i) fun _ => True) :
    S.Safe sem c :=
  ⟨hinv, fun i => ⟨fun _ => True, Stable.true, trivial, h i⟩⟩

theorem Safe.step {c c' : Conf ι ω σ α} {i : ι} (h : S.Safe sem c) (hs : c.step sem i = some c') :
    S.Safe sem c' ∧ S.rely c.store c'.store := by
  obtain ⟨w, k, s', hw, hsem, rfl⟩ := (Conf.step_eq_some sem).mp hs
  obtain ⟨P, -, hP, hsat⟩ := h.2 i
  rw [hw] at hsat
  obtain ⟨hquiet, Q, hstable, hk, hnext⟩ := hsat _ h.1 hP
  refine ⟨⟨hquiet.inv s' hsem, fun j => ?_⟩, hquiet.rely s' hsem⟩
  by_cases hj : j = i
  · subst hj
    -- the store compared with itself: what the call counts on next
    obtain ⟨-, -, -, -, hQ, -⟩ := hnext s' c.store h.1 hP (S.alike_refl _ _) hsem
    simp only [Function.update_self]
    exact ⟨Q, hstable, hQ, hk⟩
  · simp only [Function.update_of_ne hj]
    obtain ⟨Pj, hPj, hPs, hsatj⟩ := h.2 j
    exact ⟨Pj, hPj, hPj _ _ h.1 (hquiet.rely s' hsem) hPs, hsatj⟩

theorem Safe.reach {ok : Conf ι ω σ α → ι → Prop} {c c' : Conf ι ω σ α} (h : S.Safe sem c) (hr : Reach sem ok c c') :
    S.Safe sem c' := by
  induction hr with
  | refl => exact h
  | step _ _ hs ih => exact (ih.step hs).1

/-- The first run moves all calls, the second those of `d` only; to `d` they look the same. -/
structure Twins (S : Secure ι ω σ δ) (sem : ι → ω → σ → Option σ) (d : δ) (c₁ c₂ : Conf ι ω σ α) : Prop where
  safe : S.Safe sem c₁
  inv : S.inv c₂.store
  alike : S.alike d c₁.store c₂.store
  calls : ∀ i, S.owner i = d → c₂.calls i = c₁.calls i ∧
    ∃ P, S.Stable P ∧ P c₁.store ∧ P c₂.store ∧ S.Sat sem i (c₁.calls i) P

/-- The call of another owner moves. -/
theorem Twins.step_other {d : δ} {c₁ c₁' c₂ : Conf ι ω σ α} {i : ι} (h : S.Twins sem d c₁ c₂) (hi : S.owner i ≠ d)
    (hs : c₁.step sem i = some c₁') : S.Twins sem d c₁' c₂ := by
  obtain ⟨hsafe, hrely⟩ := h.safe.step hs
  obtain ⟨w, k, s', hw, hsem, rfl⟩ := (Conf.step_eq_some sem).mp hs
  obtain ⟨P, -, hP, hsat⟩ := h.safe.2 i
  rw [hw] at hsat
  obtain ⟨hquiet, -⟩ := hsat _ h.safe.1 hP
  refine ⟨hsafe, h.inv, hquiet.others s' hsem d (Ne.symm hi) _ h.inv h.alike, fun j hj => ?_⟩
  have hji : j ≠ i := fun e => hi (e ▸ hj)
  obtain ⟨hcall, Q, hQ, hQ₁, hQ₂, hk⟩ := h.calls j hj
  simp only [Function.update_of_ne hji]
  exact ⟨hcall, Q, hQ, hQ _ _ h.safe.1 hrely hQ₁, hQ₂, hk⟩

/-- A call of the owner moves: it makes the same move in both runs. -/
theorem Twins.step_own {d : δ} {c₁ c₁' c₂ : Conf ι ω σ α} {i : ι} (h : S.Twins sem d c₁ c₂) (hi : S.owner i = d)
    (hs : c₁.step sem i = some c₁') : ∃ c₂', c₂.step sem i = some c₂' ∧ S.Twins sem d c₁' c₂' := by
  obtain ⟨hsafe, hrely⟩ := h.safe.step hs
  obtain ⟨w, k, s', hw, hsem, rfl⟩ := (Conf.step_eq_some sem).mp hs
  obtain ⟨hcall, P, -, hP₁, hP₂, hsat⟩ := h.calls i hi
  rw [hw] at hcall hsat
  obtain ⟨-, Q, hQ, hk, hnext⟩ := hsat _ h.safe.1 hP₁
  obtain ⟨t', ht', halike, hkt, hQ₁, hQ₂⟩ := hnext s' c₂.store h.inv hP₂ (hi ▸ h.alike) hsem
  obtain ⟨hquiet₂, -⟩ := hsat _ h.inv hP₂
  refine ⟨⟨t', Function.update c₂.calls i (k c₂.store)⟩, (Conf.step_eq_some sem).mpr ⟨w, k, t', hcall, ht', rfl⟩, hsafe,
    hquiet₂.inv t' ht', hi ▸ halike, fun j hj => ?_⟩
  by_cases hji : j = i
  · subst hji
    simp only [Function.update_self]
    exact ⟨hkt, Q, hQ, hQ₁, hQ₂, hk⟩
  · obtain ⟨hcallj, Qj, hQj, hQj₁, hQj₂, hkj⟩ := h.calls j hj
    simp only [Function.update_of_ne hji]
    exact ⟨hcallj, Qj, hQj, hQj _ _ h.safe.1 hrely hQj₁, hQj _ _ h.inv (hquiet₂.rely t' ht') hQj₂, hkj⟩

theorem Twins.run [DecidableEq δ] {d : δ} {c₁ c₁' c₂ : Conf ι ω σ α} {is : List ι} (h : S.Twins sem d c₁ c₂)
    (hr : c₁.run sem is = some c₁') :
    ∃ c₂', c₂.run sem (is.filter fun i => S.owner i = d) = some c₂' ∧ S.Twins sem d c₁' c₂' := by
  induction is generalizing c₁ c₂ with
  | nil =>
      cases hr
      exact ⟨c₂, rfl, h⟩
  | cons i is ih =>
      rw [Conf.run, Option.bind_eq_some_iff] at hr
      obtain ⟨m, hs, hr⟩ := hr
      by_cases hi : S.owner i = d
      · obtain ⟨m₂, hs₂, hm⟩ := h.step_own hi hs
        obtain ⟨c₂', hr₂, h'⟩ := ih hm hr
        refine ⟨c₂', ?_, h'⟩
        rw [List.filter_cons_of_pos (by simpa using hi), Conf.run, hs₂, Option.bind_some]
        exact hr₂
      · rw [List.filter_cons_of_neg (by simpa using hi)]
        exact ih (h.step_other hi hs) hr

/-- The calls of one owner can be run alone, to the same end for it. -/
theorem alone [DecidableEq δ] {c c' : Conf ι ω σ α} {is : List ι} (hinv : S.inv c.store)
    (h : ∀ i, S.Sat sem i (c.calls i) fun _ => True) (d : δ) (hr : c.run sem is = some c') :
    ∃ c₂, c.run sem (is.filter fun i => S.owner i = d) = some c₂ ∧ S.alike d c'.store c₂.store := by
  have htwins : S.Twins sem d c c :=
    ⟨.init hinv h, hinv, S.alike_refl d _, fun i _ => ⟨rfl, fun _ => True, Stable.true, trivial, trivial, h i⟩⟩
  obtain ⟨c₂, hr₂, h₂⟩ := htwins.run hr
  exact ⟨c₂, hr₂, h₂.alike⟩

/-- Two runs in which the calls of `d` are the same and move in the same order, whatever the others do. -/
theorem Twins.two_runs [DecidableEq δ] {d : δ} {c₁ c₁' c₂ c₂' c : Conf ι ω σ α} {is js : List ι}
    (h₁ : S.Twins sem d c₁ c) (h₂ : S.Twins sem d c₂ c) (hr₁ : c₁.run sem is = some c₁')
    (hr₂ : c₂.run sem js = some c₂')
    (hproj : is.filter (fun i => S.owner i = d) = js.filter fun i => S.owner i = d) :
    ∃ c', S.Twins sem d c₁' c' ∧ S.Twins sem d c₂' c' := by
  obtain ⟨m, hm, h₁'⟩ := h₁.run hr₁
  obtain ⟨m', hm', h₂'⟩ := h₂.run hr₂
  rw [hproj, hm'] at hm
  obtain rfl := Option.some.inj hm
  exact ⟨m', h₁', h₂'⟩

end Secure

end Interleave
