import Mathlib.Logic.Function.Basic
import Mathlib.Data.List.Basic

/-!
# Calls that interleave statement by statement

A call is a tree of statements: it waits to run one, and goes on from the store that statement found. What a statement
does is given by `sem i w s`, the store after caller `i` ran `w` on `s`, or `none` while it has to wait (for a lock).

* `Conf` : the store and the calls in flight; `Conf.step sem c i` runs one statement of call `i`;
* `Conf.run` : a schedule, executable; `Reach sem ok c c'` : `c'` is reached from `c` by steps that each satisfy `ok`
  (`Reach.of_run`, `Reach.trans`); `Conf.allSteps` checks a schedule for `ok`;
* `restrict` : the same statements, run only where a condition allows them (`Reach.restrict`);
* `Prog.Residual` : what is left of a call after some statements (`Reach.residual`);
* `Prog.All P W Q` : the statements and the values of a call, on stores of `P` (`Reach.all`);
* `Prog.exec`, `Prog.stmts` : one call run alone to its end, and the statements it ran with the store each one found;
* `Seq` : calls run one after another, each satisfying a condition (`Seq.of_execAll`, `Seq.rel`).
-/

namespace Interleave

/-- A call in flight: what it returned, or the statement it waits to run and how it goes on. -/
inductive Prog (ω σ α : Type) where
  | ret (a : α)
  | stmt (w : ω) (k : σ → Prog ω σ α)

/-- The calls in flight over one store. -/
structure Conf (ι ω σ α : Type) where
  store : σ
  calls : ι → Prog ω σ α

variable {ι ω σ α : Type}

/-- The statement the call waits to run. -/
def Prog.next? : Prog ω σ α → Option ω
  | .ret _ => none
  | .stmt w _ => some w

@[simp] theorem Prog.next?_stmt (w : ω) (k : σ → Prog ω σ α) : (Prog.stmt w k).next? = some w := rfl

theorem Prog.stmt_ne_ret {w : ω} {k : σ → Prog ω σ α} {a : α} : Prog.stmt w k ≠ .ret a := nofun

/-- Every step is allowed. -/
def anyStep (_ : Conf ι ω σ α) (_ : ι) : Prop := True

section Runs
variable [DecidableEq ι] (sem : ι → ω → σ → Option σ)

def Conf.step (c : Conf ι ω σ α) (i : ι) : Option (Conf ι ω σ α) :=
  match c.calls i with
  | .ret _ => none
  | .stmt w k => (sem i w c.store).map fun s => ⟨s, Function.update c.calls i (k c.store)⟩

def Conf.run : Conf ι ω σ α → List ι → Option (Conf ι ω σ α)
  | c, [] => some c
  | c, i :: is => (c.step sem i).bind fun c' => c'.run is

/-- Every step of the schedule satisfies `p`. -/
def Conf.allSteps (p : Conf ι ω σ α → ι → Bool) : Conf ι ω σ α → List ι → Bool
  | _, [] => true
  | c, i :: is => p c i && (c.step sem i).all fun c' => c'.allSteps p is

theorem Conf.step_eq_some {c c' : Conf ι ω σ α} {i : ι} : c.step sem i = some c' ↔
    ∃ w k s', c.calls i = .stmt w k ∧ sem i w c.store = some s' ∧
      c' = ⟨s', Function.update c.calls i (k c.store)⟩ := by
  unfold Conf.step
  cases h : c.calls i with
  | ret a => simp
  | stmt w k =>
      simp only [Option.map_eq_some_iff, Prog.stmt.injEq]
      constructor
      · rintro ⟨s', hs, rfl⟩
        exact ⟨w, k, s', ⟨rfl, rfl⟩, hs, rfl⟩
      · rintro ⟨_, _, s', ⟨rfl, rfl⟩, hs, rfl⟩
        exact ⟨s', hs, rfl⟩

/-- `c'` is reached from `c` by steps that each satisfy `ok`. -/
inductive Reach (ok : Conf ι ω σ α → ι → Prop) (c : Conf ι ω σ α) : Conf ι ω σ α → Prop
  | refl : Reach ok c c
  | step {c' c'' : Conf ι ω σ α} {i : ι} : Reach ok c c' → ok c' i → c'.step sem i = some c'' → Reach ok c c''

variable {sem}

theorem Reach.trans {ok : Conf ι ω σ α → ι → Prop} {c c' c'' : Conf ι ω σ α} (h : Reach sem ok c c')
    (h' : Reach sem ok c' c'') : Reach sem ok c c'' := by
  induction h' with
  | refl => exact h
  | step _ hi hs ih => exact .step ih hi hs

theorem Reach.single {ok : Conf ι ω σ α → ι → Prop} {c c' : Conf ι ω σ α} {i : ι} (hi : ok c i)
    (h : c.step sem i = some c') : Reach sem ok c c' := .step .refl hi h

theorem Reach.of_allSteps {ok : Conf ι ω σ α → ι → Prop} {p : Conf ι ω σ α → ι → Bool}
    (hok : ∀ c i, p c i = true → ok c i) {c c' : Conf ι ω σ α} {is : List ι} (hp : c.allSteps sem p is = true)
    (h : c.run sem is = some c') : Reach sem ok c c' := by
  induction is generalizing c with
  | nil =>
      rw [Conf.run] at h
      cases h
      exact .refl
  | cons i is ih =>
      rw [Conf.run, Option.bind_eq_some_iff] at h
      obtain ⟨c₁, hs, hr⟩ := h
      rw [Conf.allSteps, hs, Option.all_some, Bool.and_eq_true] at hp
      exact (Reach.single (hok c i hp.1) hs).trans (ih hp.2 hr)

theorem Reach.of_run {c c' : Conf ι ω σ α} {is : List ι} (h : c.run sem is = some c') : Reach sem anyStep c c' := by
  have hall : ∀ (c : Conf ι ω σ α), c.allSteps sem (fun _ _ => true) is = true := by
    clear h
    induction is with
    | nil => exact fun _ => rfl
    | cons i is ih => exact fun c => by simp [Conf.allSteps, ih]
  exact Reach.of_allSteps (fun _ _ _ => trivial) (hall c) h

theorem Conf.run_append (c : Conf ι ω σ α) (is js : List ι) :
    c.run sem (is ++ js) = (c.run sem is).bind fun c' => c'.run sem js := by
  induction is generalizing c with
  | nil => rfl
  | cons i is ih => simp only [List.cons_append, Conf.run, Option.bind_assoc, ih]

/-- The calls a schedule does not name stay where they are. -/
theorem Conf.run_calls {c c' : Conf ι ω σ α} {is : List ι} (h : c.run sem is = some c') {i : ι} (hi : i ∉ is) :
    c'.calls i = c.calls i := by
  induction is generalizing c with
  | nil =>
      cases h
      rfl
  | cons j is ih =>
      rw [Conf.run, Option.bind_eq_some_iff] at h
      obtain ⟨c₁, hs, hr⟩ := h
      obtain ⟨w, k, s', _, _, rfl⟩ := (Conf.step_eq_some sem).mp hs
      rw [List.mem_cons, not_or] at hi
      exact (ih hr hi.2).trans (Function.update_of_ne hi.1 _ _)

/-- A relation on stores that every statement keeps is kept by a run. -/
theorem Reach.store_rel {ok : Conf ι ω σ α → ι → Prop} {R : σ → σ → Prop} (hrefl : ∀ s, R s s)
    (htrans : ∀ a b c, R a b → R b c → R a c) (hsem : ∀ i w s s', sem i w s = some s' → R s s')
    {c c' : Conf ι ω σ α} (h : Reach sem ok c c') : R c.store c'.store := by
  induction h with
  | refl => exact hrefl _
  | step _ _ hs ih =>
      obtain ⟨w, k, s', _, hw, rfl⟩ := (Conf.step_eq_some sem).mp hs
      exact htrans _ _ _ ih (hsem _ _ _ _ hw)

/-- Statements run only where `q` allows them. -/
def restrict (sem : ι → ω → σ → Option σ) (q : ι → ω → σ → Bool) (i : ι) (w : ω) (s : σ) : Option σ :=
  if q i w s then sem i w s else none

omit [DecidableEq ι] in
theorem restrict_eq_some {q : ι → ω → σ → Bool} {i : ι} {w : ω} {s s' : σ} :
    restrict sem q i w s = some s' ↔ q i w s = true ∧ sem i w s = some s' := by
  unfold restrict
  split <;> simp [*]

/-- A run all of whose statements are allowed. -/
theorem Reach.restrict {ok : Conf ι ω σ α → ι → Prop} {q : ι → ω → σ → Bool}
    (hok : ∀ c i w k, ok c i → c.calls i = .stmt w k → q i w c.store = true) {c c' : Conf ι ω σ α}
    (h : Reach sem ok c c') : Reach (Interleave.restrict sem q) ok c c' := by
  induction h with
  | refl => exact .refl
  | step _ hi hs ih =>
      obtain ⟨w, k, s', hw, hsem, rfl⟩ := (Conf.step_eq_some sem).mp hs
      have hq := hok _ _ w k hi hw
      exact .step ih hi ((Conf.step_eq_some _).mpr ⟨w, k, s', hw, restrict_eq_some.mpr ⟨hq, hsem⟩, rfl⟩)

/-- On stores of `P`, every statement of the call satisfies `W` and every value it returns satisfies `Q`. -/
def Prog.All (P : σ → Prop) (W : ω → Prop) (Q : α → Prop) : Prog ω σ α → Prop
  | .ret a => Q a
  | .stmt w k => W w ∧ ∀ s, P s → (k s).All P W Q

theorem Prog.All.mono {P P' : σ → Prop} {W W' : ω → Prop} {Q Q' : α → Prop} (hP : ∀ s, P' s → P s)
    (hW : ∀ w, W w → W' w) (hQ : ∀ a, Q a → Q' a) {p : Prog ω σ α} (h : p.All P W Q) : p.All P' W' Q' := by
  induction p with
  | ret a => exact hQ a h
  | stmt w k ih => exact ⟨hW w h.1, fun s hs => ih s (h.2 s (hP s hs))⟩

/-- While the stores satisfy `P`, what holds of all statements of the calls goes on holding. -/
theorem Reach.all {ok : Conf ι ω σ α → ι → Prop} {P : σ → Prop} {W : ι → ω → Prop} {Q : ι → α → Prop}
    (hok : ∀ c i, ok c i → P c.store) {c c' : Conf ι ω σ α} (h : Reach sem ok c c')
    (hc : ∀ i, (c.calls i).All P (W i) (Q i)) : ∀ i, (c'.calls i).All P (W i) (Q i) := by
  induction h with
  | refl => exact hc
  | @step c₁ c₂ m _ hi hs ih =>
      obtain ⟨w, k, s', hw, _, rfl⟩ := (Conf.step_eq_some sem).mp hs
      intro i
      by_cases him : i = m
      · subst him
        have hm := ih i
        rw [hw] at hm
        simp only [Function.update_self]
        exact hm.2 _ (hok _ _ hi)
      · simp only [Function.update_of_ne him]
        exact ih i

/-- What is left of a call after some of its statements. -/
inductive Prog.Residual (p : Prog ω σ α) : Prog ω σ α → Prop
  | refl : Residual p p
  | step {w : ω} {k : σ → Prog ω σ α} (s : σ) : Residual p (.stmt w k) → Residual p (k s)

theorem Reach.residual {ok : Conf ι ω σ α → ι → Prop} {c c' : Conf ι ω σ α} (h : Reach sem ok c c') (i : ι) :
    (c.calls i).Residual (c'.calls i) := by
  induction h with
  | refl => exact .refl
  | @step c₁ c₂ m _ _ hs ih =>
      obtain ⟨w, k, s', hw, _, rfl⟩ := (Conf.step_eq_some sem).mp hs
      by_cases him : i = m
      · subst him
        simp only [Function.update_self]
        exact .step _ (hw ▸ ih)
      · simp only [Function.update_of_ne him]
        exact ih

end Runs

section Alone
variable (sem : ι → ω → σ → Option σ) (i : ι)

/-- The call run to its end with nobody else moving. -/
def Prog.exec : Prog ω σ α → σ → Option (σ × α)
  | .ret a, s => some (s, a)
  | .stmt w k, s => (sem i w s).bind fun s' => (k s).exec s'

/-- The statements of the call run alone, each with the store it found. -/
def Prog.stmts : Prog ω σ α → σ → List (σ × ω)
  | .ret _, _ => []
  | .stmt w k, s => (s, w) :: ((sem i w s).map fun s' => (k s).stmts s').getD []

variable {sem i}

/-- A relation that every statement of the call keeps, on stores of `P`, is kept by the call. -/
theorem Prog.All.exec {P : σ → Prop} {W : ω → Prop} {Q : α → Prop} {R : σ → σ → Prop} (hrefl : ∀ s, R s s)
    (htrans : ∀ a b c, R a b → R b c → R a c) (hW : ∀ w s s', W w → P s → sem i w s = some s' → P s' ∧ R s s')
    {p : Prog ω σ α} (hp : p.All P W Q) {s s' : σ} {a : α} (hs : P s) (h : p.exec sem i s = some (s', a)) : R s s' := by
  induction p generalizing s with
  | ret b =>
      cases h
      exact hrefl _
  | stmt w k ih =>
      rw [Prog.exec, Option.bind_eq_some_iff] at h
      obtain ⟨s₁, hw, hk⟩ := h
      obtain ⟨hP, hR⟩ := hW w s s₁ hp.1 hs hw
      exact htrans _ _ _ hR (ih s (hp.2 s hs) hP hk)

/-- A call that runs alone on a store of `P` returns a value of `Q`. -/
theorem Prog.All.value {P : σ → Prop} {W : ω → Prop} {Q : α → Prop}
    (hW : ∀ w s s', W w → P s → sem i w s = some s' → P s') {p : Prog ω σ α} (hp : p.All P W Q) {s s' : σ} {a : α} (hs : P s)
    (h : p.exec sem i s = some (s', a)) : Q a := by
  induction p generalizing s with
  | ret b =>
      cases h
      exact hp
  | stmt w k ih =>
      rw [Prog.exec, Option.bind_eq_some_iff] at h
      obtain ⟨s₁, hw, hk⟩ := h
      exact ih s (hp.2 s hs) (hW w s s₁ hp.1 hs hw) hk

variable {κ : Type} (sem i) (call : κ → Prog ω σ α)

/-- `s'` is reached from `s` by calls run one after another, each satisfying `ok` on the store it starts from. -/
inductive Seq (ok : κ → σ → Prop) (s : σ) : σ → Prop
  | refl : Seq ok s s
  | call {s' s'' : σ} {op : κ} {a : α} : Seq ok s s' → ok op s' → (call op).exec sem i s' = some (s'', a) → Seq ok s s''

def execAll : List κ → σ → Option σ
  | [], s => some s
  | op :: ops, s => ((call op).exec sem i s).bind fun r => execAll ops r.1

/-- Every call of the sequence satisfies `p` on the store it starts from. -/
def allCalls (p : κ → σ → Bool) : List κ → σ → Bool
  | [], _ => true
  | op :: ops, s => p op s && ((call op).exec sem i s).all fun r => allCalls p ops r.1

variable {sem i call}

theorem Seq.trans {ok : κ → σ → Prop} {s s' s'' : σ} (h : Seq sem i call ok s s') (h' : Seq sem i call ok s' s'') :
    Seq sem i call ok s s'' := by
  induction h' with
  | refl => exact h
  | call _ hok hx ih => exact .call ih hok hx

theorem Seq.of_execAll {ok : κ → σ → Prop} {p : κ → σ → Bool} (hok : ∀ op s, p op s = true → ok op s) {ops : List κ}
    {s s' : σ} (hp : allCalls sem i call p ops s = true) (h : execAll sem i call ops s = some s') :
    Seq sem i call ok s s' := by
  induction ops generalizing s with
  | nil =>
      cases h
      exact .refl
  | cons op ops ih =>
      rw [execAll, Option.bind_eq_some_iff] at h
      obtain ⟨r, hx, hr⟩ := h
      rw [allCalls, hx, Option.all_some, Bool.and_eq_true] at hp
      exact (Seq.call .refl (hok op s hp.1) hx).trans (ih hp.2 hr)

theorem Seq.rel {ok : κ → σ → Prop} {R : σ → σ → Prop} (hrefl : ∀ s, R s s) (htrans : ∀ a b c, R a b → R b c → R a c)
    (hcall : ∀ op s s' a, ok op s → (call op).exec sem i s = some (s', a) → R s s') {s s' : σ}
    (h : Seq sem i call ok s s') : R s s' := by
  induction h with
  | refl => exact hrefl s
  | call _ hok hx ih => exact htrans _ _ _ ih (hcall _ _ _ _ hok hx)

end Alone

end Interleave
