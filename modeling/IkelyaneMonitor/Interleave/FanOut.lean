import Mathlib.Algebra.BigOperators.Group.Finset.Basic
import Mathlib.Algebra.Order.BigOperators.Group.Finset
import IkelyaneMonitor.Interleave.Prog

/-!
# A bounded fan-out

A loop starts a worker for each task, waits for a token before each, and then for all workers. A worker runs its task over the
store that all share, writes down the result, gives its token back and reports that it is done. Statements do not wait.

* `Prog.eval` : a task alone; `Prog.Within act K` : it reads and writes the keys of `K` only (`Within.eval_agree`,
  `Within.eval_outside`); `Prog.AtMost` : how many statements it has at most;
* `Fan`, `Fan.step`, `Fan.run` : the loop and the workers in any interleaving; `evalAll` : the tasks one after another;
* `Fan.Counts` : tokens and counter say what the workers are doing (`tokens_le`); `Fan.Spent` : the steps that are left
  (`length_le`); `Fan.not_stuck` : while it has not returned, something can move;
* `Fan.Local`, `Local.returned` : what each worker keeps of itself and of the store, whatever the others do to it;
* `Fan.Carries`, `Fan.alone`, `Fan.eq_evalAll` : tasks over disjoint keys end as each does alone, and as all do in turn.
-/

namespace Interleave

variable {ω κ ν α : Type}

/-! ## One task -/

def Prog.eval {σ : Type} (act : ω → σ → σ) : Prog ω σ α → σ → α × σ
  | .ret a, s => (a, s)
  | .stmt w k, s => (k s).eval act (act w s)

/-- The stores are the same at these keys. -/
def Agree (K : κ → Prop) (s t : κ → ν) : Prop := ∀ key, K key → s key = t key

theorem Agree.refl (K : κ → Prop) (s : κ → ν) : Agree K s s := fun _ _ => rfl

theorem Agree.trans {K : κ → Prop} {s t u : κ → ν} (h : Agree K s t) (h' : Agree K t u) : Agree K s u := fun key hkey =>
  (h key hkey).trans (h' key hkey)

/-- It reads and writes the keys of `K` only. -/
def Prog.Within (act : ω → (κ → ν) → κ → ν) (K : κ → Prop) : Prog ω (κ → ν) α → Prop
  | .ret _ => True
  | .stmt w k => (∀ s t, Agree K s t → k s = k t ∧ Agree K (act w s) (act w t)) ∧ (∀ s key, ¬ K key → act w s key = s key) ∧
      ∀ s, (k s).Within act K

def Prog.AtMost {σ : Type} : Nat → Prog ω σ α → Prop
  | _, .ret _ => True
  | 0, .stmt _ _ => False
  | n + 1, .stmt _ k => ∀ s, (k s).AtMost n

theorem Prog.AtMost.mono {σ : Type} {m n : Nat} {p : Prog ω σ α} (h : p.AtMost m) (hle : m ≤ n) : p.AtMost n := by
  induction p generalizing m n with
  | ret a => cases n <;> trivial
  | stmt w k ih =>
      cases m with
      | zero => cases h
      | succ m =>
          cases n with
          | zero => omega
          | succ n => exact fun s => ih s (h s) (Nat.le_of_succ_le_succ hle)

section Alone
variable {act : ω → (κ → ν) → κ → ν} {K : κ → Prop} {p : Prog ω (κ → ν) α}

theorem Within.eval_agree (h : p.Within act K) {s t : κ → ν} (hst : Agree K s t) :
    (p.eval act s).1 = (p.eval act t).1 ∧ Agree K (p.eval act s).2 (p.eval act t).2 := by
  induction p generalizing s t with
  | ret a => exact ⟨rfl, hst⟩
  | stmt w k ih =>
      obtain ⟨hk, hact⟩ := h.1 s t hst
      rw [Prog.eval, Prog.eval, ← hk]
      exact ih s (h.2.2 s) hact

theorem Within.eval_outside (h : p.Within act K) (s : κ → ν) {key : κ} (hkey : ¬ K key) : (p.eval act s).2 key = s key := by
  induction p generalizing s with
  | ret a => rfl
  | stmt w k ih => exact (ih s (h.2.2 s) (act w s)).trans (h.2.1 s key hkey)

end Alone

/-! ## The machine -/

/-- What a worker is at. -/
inductive Worker (ω σ α : Type) where
  | waiting
  | working (p : Prog ω σ α)
  /-- The result is written down. -/
  | wrote
  /-- The token is given back. -/
  | released
  | done

/-- It has a token. -/
def Worker.holds {σ : Type} : Worker ω σ α → Nat
  | .working _ | .wrote => 1
  | .waiting | .released | .done => 0

/-- The loop waits for it. -/
def Worker.counted {σ : Type} : Worker ω σ α → Nat
  | .working _ | .wrote | .released => 1
  | .waiting | .done => 0

/-- The steps that a worker has left, with `B` statements when it starts and `b` now. -/
def Worker.cost {σ : Type} (B b : Nat) : Worker ω σ α → Nat
  | .waiting => B + 4
  | .working _ => b + 3
  | .wrote => 2
  | .released => 1
  | .done => 0

structure Fan (ω σ α : Type) where
  store : σ
  launched : Nat
  /-- The next worker is counted, and waits for a token. -/
  added : Bool
  tokens : Nat
  /-- The workers that are counted and not done. -/
  pending : Nat
  workers : Nat → Worker ω σ α
  results : Nat → Option α
  returned : Bool

namespace Fan

section Machine
variable {σ : Type} (act : ω → σ → σ) (cap : Nat) (tasks : List (Prog ω σ α))

def start (s : σ) : Fan ω σ α where
  store := s
  launched := 0
  added := false
  tokens := 0
  pending := 0
  workers := fun _ => .waiting
  results := fun _ => none
  returned := false

/-- The loop. -/
def main (f : Fan ω σ α) : Option (Fan ω σ α) :=
  if f.returned then none
  else
    match tasks[f.launched]? with
    | some p =>
      if f.added then
        if f.tokens < cap then
          some { f with
            launched := f.launched + 1
            added := false
            tokens := f.tokens + 1
            workers := Function.update f.workers f.launched (.working p) }
        else none
      else some { f with added := true, pending := f.pending + 1 }
    | none => if f.pending = 0 then some { f with returned := true } else none

def work (f : Fan ω σ α) (i : Nat) : Option (Fan ω σ α) :=
  match f.workers i with
  | .waiting | .done => none
  | .working (.stmt w k) =>
    some { f with store := act w f.store, workers := Function.update f.workers i (.working (k f.store)) }
  | .working (.ret a) =>
    some { f with results := Function.update f.results i (some a), workers := Function.update f.workers i .wrote }
  | .wrote => some { f with tokens := f.tokens - 1, workers := Function.update f.workers i .released }
  | .released => some { f with pending := f.pending - 1, workers := Function.update f.workers i .done }

/-- The loop moves, or a worker does. -/
def step (f : Fan ω σ α) : Option Nat → Option (Fan ω σ α)
  | none => f.main cap tasks
  | some i => f.work act i

def run : List (Option Nat) → Fan ω σ α → Option (Fan ω σ α)
  | [], f => some f
  | e :: es, f => (f.step act cap tasks e).bind (run es)

end Machine

/-! ## Counting the workers -/

section Counts
variable {σ : Type} {act : ω → σ → σ} {cap : Nat} {tasks : List (Prog ω σ α)} {f f' : Fan ω σ α}

/-- A change of one worker changes its part of a sum. -/
theorem sum_update {n i : Nat} (hi : i < n) (g g' : Nat → Worker ω σ α → Nat) (hg : ∀ j, j ≠ i → g' j = g j)
    (workers : Nat → Worker ω σ α) (x : Worker ω σ α) :
    (∑ j ∈ Finset.range n, g' j (Function.update workers i x j)) + g i (workers i) =
      (∑ j ∈ Finset.range n, g j (workers j)) + g' i x := by
  have hmem : i ∈ Finset.range n := Finset.mem_range.mpr hi
  rw [← Finset.add_sum_erase _ _ hmem, ← Finset.add_sum_erase (Finset.range n) (fun j => g j (workers j)) hmem,
    Function.update_self]
  have hrest : ∑ j ∈ (Finset.range n).erase i, g' j (Function.update workers i x j) =
      ∑ j ∈ (Finset.range n).erase i, g j (workers j) := by
    refine Finset.sum_congr rfl fun j hj => ?_
    have hne := Finset.ne_of_mem_erase hj
    rw [Function.update_of_ne hne, hg j hne]
  omega

/-- The part of a worker in a sum. -/
theorem le_sum {n i : Nat} (hi : i < n) (g : Worker ω σ α → Nat) (workers : Nat → Worker ω σ α) :
    g (workers i) ≤ ∑ j ∈ Finset.range n, g (workers j) :=
  Finset.single_le_sum (f := fun j => g (workers j)) (fun _ _ => Nat.zero_le _) (Finset.mem_range.mpr hi)

/-- Tokens and counter are those of the workers that were started. -/
structure Counts (cap n : Nat) (f : Fan ω σ α) : Prop where
  launched_le : f.launched ≤ n
  waiting : ∀ i, f.launched ≤ i → f.workers i = .waiting
  started : ∀ i, i < f.launched → f.workers i ≠ .waiting
  tokens : f.tokens = ∑ i ∈ Finset.range n, (f.workers i).holds
  tokens_le : f.tokens ≤ cap
  pending : f.pending = (∑ i ∈ Finset.range n, (f.workers i).counted) + if f.added then 1 else 0
  added : f.added = true → f.launched < n
  returned : f.returned = true → f.launched = n ∧ ∀ i, i < n → f.workers i = .done

theorem counts_start (s : σ) : Counts cap tasks.length (start (ω := ω) (α := α) s) where
  launched_le := Nat.zero_le _
  waiting _ _ := rfl
  started _ h := absurd h (Nat.not_lt_zero _)
  tokens := by simp [start, Worker.holds]
  tokens_le := Nat.zero_le _
  pending := by simp [start, Worker.counted]
  added h := absurd h Bool.false_ne_true
  returned h := absurd h Bool.false_ne_true

theorem Counts.lt_launched {n i : Nat} (h : Counts cap n f) (hi : f.workers i ≠ .waiting) : i < f.launched := by
  by_contra hge
  exact hi (h.waiting i (Nat.le_of_not_lt hge))

/-- A worker that is not done goes on to something else. -/
theorem Counts.worker {n i : Nat} (h : Counts cap n f) (hwaiting : f.workers i ≠ .waiting) (hdone : f.workers i ≠ .done)
    (x : Worker ω σ α) (hx : x ≠ .waiting) (hworkers : f'.workers = Function.update f.workers i x)
    (hlaunched : f'.launched = f.launched) (hadded : f'.added = f.added) (hreturned : f'.returned = f.returned)
    (htokens : f'.tokens + (f.workers i).holds = f.tokens + x.holds) (hle : f'.tokens ≤ f.tokens)
    (hpending : f'.pending + (f.workers i).counted = f.pending + x.counted) : Counts cap n f' := by
  have hi := h.lt_launched hwaiting
  have hin : i < n := Nat.lt_of_lt_of_le hi h.launched_le
  refine ⟨hlaunched ▸ h.launched_le, fun j hj => ?_, fun j hj => ?_, ?_, hle.trans h.tokens_le, ?_, ?_, fun hr => ?_⟩
  · rw [hlaunched] at hj
    have hji : j ≠ i := by omega
    rw [hworkers, Function.update_of_ne hji]
    exact h.waiting j hj
  · rw [hworkers]
    by_cases hji : j = i
    · subst hji
      rwa [Function.update_self]
    · rw [Function.update_of_ne hji]
      exact h.started j (hlaunched ▸ hj)
  · have hsum := sum_update hin (fun _ => Worker.holds) (fun _ => Worker.holds) (fun _ _ => rfl) f.workers x
    have hbefore := h.tokens
    rw [hworkers]
    omega
  · have hsum := sum_update hin (fun _ => Worker.counted) (fun _ => Worker.counted) (fun _ _ => rfl) f.workers x
    have hbefore := h.pending
    rw [hworkers, hadded]
    omega
  · rw [hadded, hlaunched]
    exact h.added
  · rw [hreturned] at hr
    exact absurd ((h.returned hr).2 i hin) hdone

theorem Counts.work (h : Counts cap tasks.length f) {i : Nat} (hs : f.work act i = some f') : Counts cap tasks.length f' := by
  unfold Fan.work at hs
  split at hs
  · cases hs
  · cases hs
  · rename_i w k hw
    cases hs
    exact h.worker (by simp [hw]) (by simp [hw]) (.working (k f.store)) (by simp) rfl rfl rfl rfl (by rw [hw]; rfl)
      (le_refl _)
      (by rw [hw]; rfl)
  · rename_i a hw
    cases hs
    exact h.worker (by simp [hw]) (by simp [hw]) .wrote (by simp) rfl rfl rfl rfl (by rw [hw]; rfl) (le_refl _)
      (by rw [hw]; rfl)
  · rename_i hw
    cases hs
    -- its own token is among those that are held
    have hpos : 0 < f.tokens := by
      have hlt : i < tasks.length := (h.lt_launched (show f.workers i ≠ .waiting by simp [hw])).trans_le h.launched_le
      have hle := le_sum hlt Worker.holds f.workers
      rw [hw, ← h.tokens] at hle
      exact hle
    refine h.worker (by simp [hw]) (by simp [hw]) .released (by simp) rfl rfl rfl rfl ?_ (Nat.sub_le _ _) (by rw [hw]; rfl)
    rw [hw]
    show f.tokens - 1 + 1 = f.tokens + 0
    omega
  · rename_i hw
    cases hs
    have hpos : 0 < f.pending := by
      have hlt : i < tasks.length := (h.lt_launched (show f.workers i ≠ .waiting by simp [hw])).trans_le h.launched_le
      have hle := le_sum hlt Worker.counted f.workers
      rw [hw] at hle
      have hpending := h.pending
      have hone : (Worker.released : Worker ω σ α).counted = 1 := rfl
      omega
    refine h.worker (by simp [hw]) (by simp [hw]) .done (by simp) rfl rfl rfl rfl (by rw [hw]; rfl) (le_refl _) ?_
    rw [hw]
    show f.pending - 1 + 1 = f.pending + 0
    omega

theorem Counts.main (h : Counts cap tasks.length f) (hs : f.main cap tasks = some f') : Counts cap tasks.length f' := by
  unfold Fan.main at hs
  split at hs
  · cases hs
  rename_i hreturned
  split at hs
  · rename_i p htask
    have hlt : f.launched < tasks.length := (List.getElem?_eq_some_iff.mp htask).1
    split at hs
    · rename_i hadded
      split at hs <;> cases hs
      rename_i htoken
      have hwaiting := h.waiting f.launched (le_refl _)
      refine ⟨hlt, fun i hi => ?_, fun i hi => ?_, ?_, htoken, ?_, fun hadd => absurd hadd Bool.false_ne_true,
        fun hr => absurd hr hreturned⟩
      · have hne : i ≠ f.launched := by
          change f.launched + 1 ≤ i at hi
          omega
        show Function.update f.workers f.launched _ i = .waiting
        rw [Function.update_of_ne hne]
        exact h.waiting i (Nat.le_of_succ_le hi)
      · show Function.update f.workers f.launched _ i ≠ .waiting
        by_cases hi' : i = f.launched
        · rw [hi', Function.update_self]
          exact fun hworking => by cases hworking
        · rw [Function.update_of_ne hi']
          exact h.started i (by change i < f.launched + 1 at hi; omega)
      · have hsum := sum_update hlt (fun _ => Worker.holds) (fun _ => Worker.holds) (fun _ _ => rfl) f.workers (.working p)
        have hbefore := h.tokens
        rw [hwaiting] at hsum
        simp only [Worker.holds] at hsum hbefore ⊢
        omega
      · have hsum := sum_update hlt (fun _ => Worker.counted) (fun _ => Worker.counted) (fun _ _ => rfl) f.workers
          (.working p)
        have hbefore := h.pending
        rw [hwaiting] at hsum
        rw [if_pos hadded] at hbefore
        simp only [Worker.counted, Bool.false_eq_true, if_false] at hsum hbefore ⊢
        omega
    · rename_i hadded
      cases hs
      refine ⟨h.launched_le, h.waiting, h.started, h.tokens, h.tokens_le, ?_, fun _ => hlt, fun hr => absurd hr hreturned⟩
      have hbefore := h.pending
      rw [if_neg hadded] at hbefore
      simp only [if_true]
      omega
  · rename_i htask
    have hge : tasks.length ≤ f.launched := List.getElem?_eq_none_iff.mp htask
    have hall : f.launched = tasks.length := le_antisymm h.launched_le hge
    split at hs <;> cases hs
    rename_i hpending
    refine ⟨h.launched_le, h.waiting, h.started, h.tokens, h.tokens_le, h.pending, h.added, fun _ => ⟨hall, fun i hi => ?_⟩⟩
    -- no worker is counted any more
    have hzero : ∑ i ∈ Finset.range tasks.length, (f.workers i).counted = 0 := by
      have hbefore := h.pending
      omega
    have hcounted := Finset.sum_eq_zero_iff.mp hzero i (Finset.mem_range.mpr hi)
    have hstarted := h.started i (hall ▸ hi)
    show f.workers i = .done
    cases hw : f.workers i with
    | done => rfl
    | waiting => exact absurd hw hstarted
    | working | wrote | released =>
        rw [hw] at hcounted
        cases hcounted

theorem Counts.step (h : Counts cap tasks.length f) {e : Option Nat} (hs : f.step act cap tasks e = some f') :
    Counts cap tasks.length f' := by
  cases e with
  | none => exact h.main hs
  | some i => exact h.work hs

/-- What a step keeps while the counts are right, a run keeps: `P` is told how many steps there were. -/
theorem Counts.run {P : Nat → Fan ω σ α → Prop}
    (hstep : ∀ (n : Nat) (e : Option Nat) (f f' : Fan ω σ α), Counts cap tasks.length f → P n f →
      f.step act cap tasks e = some f' → P (n + 1) f')
    {n : Nat} (h : Counts cap tasks.length f) (hP : P n f) {es : List (Option Nat)}
    (hr : f.run act cap tasks es = some f') : Counts cap tasks.length f' ∧ P (n + es.length) f' := by
  induction es generalizing n f with
  | nil =>
      cases hr
      exact ⟨h, hP⟩
  | cons e es ih =>
      rw [Fan.run, Option.bind_eq_some_iff] at hr
      obtain ⟨f₁, hs, hrest⟩ := hr
      obtain ⟨hcounts, hlast⟩ := ih (h.step hs) (hstep n e f f₁ h hP hs) hrest
      rw [List.length_cons, Nat.add_comm es.length, ← Nat.add_assoc]
      exact ⟨hcounts, hlast⟩

theorem counts_run (s : σ) {es : List (Option Nat)} (hr : (start s).run act cap tasks es = some f') :
    Counts cap tasks.length f' :=
  (Counts.run (P := fun _ _ => True) (n := 0) (fun _ _ _ _ _ _ _ => trivial) (counts_start s) trivial hr).1

/-- While it has not returned, the loop or a worker can move. -/
theorem Counts.not_stuck (hcap : 0 < cap) (h : Counts cap tasks.length f) (hr : f.returned = false) :
    ∃ e f', f.step act cap tasks e = some f' := by
  by_cases hbusy : ∃ i, f.workers i ≠ .waiting ∧ f.workers i ≠ .done
  · obtain ⟨i, hwaiting, hdone⟩ := hbusy
    refine ⟨some i, ?_⟩
    show ∃ f', f.work act i = some f'
    unfold Fan.work
    cases hw : f.workers i with
    | waiting => exact absurd hw hwaiting
    | done => exact absurd hw hdone
    | working p => cases p <;> exact ⟨_, rfl⟩
    | wrote => exact ⟨_, rfl⟩
    | released => exact ⟨_, rfl⟩
  · -- all tokens are free, and nobody is counted but the next worker
    have hidle : ∀ i, (f.workers i).holds = 0 ∧ (f.workers i).counted = 0 := by
      intro i
      by_cases hwaiting : f.workers i = .waiting
      · rw [hwaiting]
        exact ⟨rfl, rfl⟩
      · have hdone : f.workers i = .done := by
          by_contra hne
          exact hbusy ⟨i, hwaiting, hne⟩
        rw [hdone]
        exact ⟨rfl, rfl⟩
    have htokens : f.tokens = 0 := by
      rw [h.tokens]
      exact Finset.sum_eq_zero fun i _ => (hidle i).1
    have hpending : f.pending = if f.added then 1 else 0 := by
      rw [h.pending, Finset.sum_eq_zero fun i _ => (hidle i).2, Nat.zero_add]
    refine ⟨none, ?_⟩
    show ∃ f', f.main cap tasks = some f'
    unfold Fan.main
    rw [hr]
    cases htask : tasks[f.launched]? with
    | some p =>
        by_cases hadded : f.added = true
        · simp only [hadded, htokens, hcap, if_true]
          exact ⟨_, rfl⟩
        · simp only [hadded]
          exact ⟨_, rfl⟩
    | none =>
        have hadded : ¬ f.added = true := fun hadded => by
          have hlt := h.added hadded
          have hge := List.getElem?_eq_none_iff.mp htask
          omega
        rw [if_neg hadded] at hpending
        simp only [hpending, if_true]
        exact ⟨_, rfl⟩

/-! ## Counting the steps -/

/-- The steps that the loop has left. -/
def cost (n : Nat) (f : Fan ω σ α) : Nat :=
  2 * (n - f.launched) + (if f.added then 0 else 1) + if f.returned then 0 else 1

/-- All steps there can be. -/
def total (n : Nat) (B : Nat → Nat) : Nat := (∑ i ∈ Finset.range n, (B i + 4)) + 2 * n + 2

/-- After so many steps, the steps that are left are not more than the rest. -/
def Spent (n : Nat) (B : Nat → Nat) (f : Fan ω σ α) (spent : Nat) : Prop :=
  ∃ b : Nat → Nat, (∀ i p, f.workers i = .working p → p.AtMost (b i)) ∧
    spent + f.cost n + ∑ i ∈ Finset.range n, Worker.cost (B i) (b i) (f.workers i) ≤ total n B

theorem spent_start (B : Nat → Nat) (s : σ) : Spent tasks.length B (start (ω := ω) (α := α) s) 0 := by
  refine ⟨B, fun i p hp => ?_, ?_⟩
  · cases hp
  · show 0 + (2 * (tasks.length - 0) + 1 + 1) + ∑ i ∈ Finset.range tasks.length, (B i + 4) ≤ _
    unfold total
    omega

/-- A worker moves. -/
theorem Spent.worker {n i : Nat} {B : Nat → Nat} {spent : Nat} {b : Nat → Nat} (hin : i < n)
    (hb : ∀ i p, f.workers i = .working p → p.AtMost (b i))
    (hle : spent + f.cost n + ∑ i ∈ Finset.range n, Worker.cost (B i) (b i) (f.workers i) ≤ total n B) (x : Worker ω σ α)
    (m : Nat) (hm : ∀ p, x = .working p → p.AtMost m) (hworkers : f'.workers = Function.update f.workers i x)
    (hcost : f'.cost n + Worker.cost (B i) m x < f.cost n + Worker.cost (B i) (b i) (f.workers i)) :
    Spent n B f' (spent + 1) := by
  refine ⟨Function.update b i m, fun j p hj => ?_, ?_⟩
  · rw [hworkers] at hj
    by_cases hji : j = i
    · subst hji
      rw [Function.update_self] at hj ⊢
      exact hm p hj
    · rw [Function.update_of_ne hji] at hj ⊢
      exact hb j p hj
  · have hsum := sum_update hin (fun j => Worker.cost (B j) (b j))
      (fun j => Worker.cost (B j) (Function.update b i m j)) (fun j hj => by rw [Function.update_of_ne hj]) f.workers x
    rw [Function.update_self] at hsum
    rw [hworkers]
    omega

theorem Spent.work {B : Nat → Nat} {spent : Nat} (h : Spent tasks.length B f spent) (hcounts : Counts cap tasks.length f)
    {i : Nat} (hs : f.work act i = some f') : Spent tasks.length B f' (spent + 1) := by
  obtain ⟨b, hb, hle⟩ := h
  have hlt : ∀ x : Worker ω σ α, f.workers i = x → x ≠ .waiting → i < tasks.length := fun x hx hwaiting =>
    (hcounts.lt_launched (hx ▸ hwaiting)).trans_le hcounts.launched_le
  unfold Fan.work at hs
  split at hs
  · cases hs
  · cases hs
  · rename_i w k hw
    cases hs
    have hmost := hb i _ hw
    cases hbi : b i with
    | zero =>
        rw [hbi] at hmost
        cases hmost
    | succ m =>
        rw [hbi] at hmost
        refine Spent.worker (hlt _ hw (by simp)) hb hle (.working (k f.store)) m (fun p hp => ?_) rfl ?_
        · cases hp
          exact hmost f.store
        · rw [hw, hbi]
          show f.cost _ + (m + 3) < f.cost _ + (m + 1 + 3)
          omega
  · rename_i a hw
    cases hs
    refine Spent.worker (hlt _ hw (by simp)) hb hle .wrote 0 (fun p hp => by cases hp) rfl ?_
    rw [hw]
    show f.cost _ + 2 < f.cost _ + (b i + 3)
    omega
  · rename_i hw
    cases hs
    refine Spent.worker (hlt _ hw (by simp)) hb hle .released 0 (fun p hp => by cases hp) rfl ?_
    rw [hw]
    show f.cost _ + 1 < f.cost _ + 2
    omega
  · rename_i hw
    cases hs
    refine Spent.worker (hlt _ hw (by simp)) hb hle .done 0 (fun p hp => by cases hp) rfl ?_
    rw [hw]
    show f.cost _ + 0 < f.cost _ + 1
    omega

theorem Spent.main {B : Nat → Nat} (hB : ∀ i (p : Prog ω σ α), tasks[i]? = some p → p.AtMost (B i)) {spent : Nat}
    (h : Spent tasks.length B f spent) (hcounts : Counts cap tasks.length f) (hs : f.main cap tasks = some f') :
    Spent tasks.length B f' (spent + 1) := by
  obtain ⟨b, hb, hle⟩ := h
  unfold Fan.main at hs
  split at hs
  · cases hs
  rename_i hreturned
  split at hs
  · rename_i p htask
    have hlt : f.launched < tasks.length := (List.getElem?_eq_some_iff.mp htask).1
    split at hs
    · rename_i hadded
      split at hs <;> cases hs
      refine Spent.worker hlt hb hle (.working p) (B f.launched) (fun p' hp => ?_) rfl ?_
      · cases hp
        exact hB _ _ htask
      · rw [hcounts.waiting _ (le_refl _)]
        simp only [cost, hadded, hreturned, Worker.cost, if_true]
        simp only [Bool.false_eq_true, if_false]
        omega
    · rename_i hadded
      cases hs
      refine ⟨b, hb, ?_⟩
      simp only [cost, hadded, hreturned] at hle ⊢
      simp only [Bool.false_eq_true, if_false, if_true] at hle ⊢
      omega
  · split at hs <;> cases hs
    refine ⟨b, hb, ?_⟩
    simp only [cost, hreturned] at hle ⊢
    simp only [Bool.false_eq_true, if_false, if_true] at hle ⊢
    omega

/-- No run is longer. -/
theorem length_le {B : Nat → Nat} (hB : ∀ i (p : Prog ω σ α), tasks[i]? = some p → p.AtMost (B i)) (s : σ)
    {es : List (Option Nat)} (hr : (start s).run act cap tasks es = some f') : es.length ≤ total tasks.length B := by
  have hstep : ∀ (spent : Nat) (e : Option Nat) (f f' : Fan ω σ α), Counts cap tasks.length f →
      Spent tasks.length B f spent → f.step act cap tasks e = some f' → Spent tasks.length B f' (spent + 1) := by
    intro spent e f f' hcounts h hs
    cases e with
    | none => exact h.main hB hcounts hs
    | some i => exact h.work hcounts hs
  obtain ⟨-, b, -, hle⟩ := Counts.run (P := fun spent f => Spent tasks.length B f spent) hstep (counts_start s)
    (spent_start B s) hr
  omega

end Counts

/-! ## What each worker keeps -/

section Local
variable {σ : Type} {act : ω → σ → σ} {cap : Nat} {tasks : List (Prog ω σ α)} {f f' : Fan ω σ α}
  {I : Nat → σ → Option α → Worker ω σ α → Prop}

/-- What is so of a worker is so after its own steps and after those of the others. -/
structure Local (act : ω → σ → σ) (tasks : List (Prog ω σ α)) (I : Nat → σ → Option α → Worker ω σ α → Prop) : Prop where
  launch : ∀ {i p s r}, tasks[i]? = some p → I i s r .waiting → I i s r (.working p)
  move : ∀ {i s r w k}, I i s r (.working (.stmt w k)) → I i (act w s) r (.working (k s))
  frame : ∀ {i j s r r' w k x}, j ≠ i → I j s r' (.working (.stmt w k)) → I i s r x → I i (act w s) r x
  write : ∀ {i s r a}, I i s r (.working (.ret a)) → I i s (some a) .wrote
  release : ∀ {i s r}, I i s r .wrote → I i s r .released
  finish : ∀ {i s r}, I i s r .released → I i s r .done

/-- It is so of every worker. -/
def Each (n : Nat) (I : Nat → σ → Option α → Worker ω σ α → Prop) (f : Fan ω σ α) : Prop :=
  ∀ i, i < n → I i f.store (f.results i) (f.workers i)

/-- One worker is at something else, and the store is the same. -/
theorem Each.worker {n i : Nat} (h : Each n I f) {x : Worker ω σ α} (hstore : f'.store = f.store)
    (hworkers : f'.workers = Function.update f.workers i x) (hresults : ∀ j, j ≠ i → f'.results j = f.results j)
    (hx : i < n → I i f.store (f.results i) (f.workers i) → I i f.store (f'.results i) x) : Each n I f' := by
  intro j hj
  by_cases hji : j = i
  · subst hji
    rw [hstore, hworkers, Function.update_self]
    exact hx hj (h j hj)
  · rw [hstore, hworkers, Function.update_of_ne hji, hresults j hji]
    exact h j hj

theorem Local.work (h : Local act tasks I) (hcounts : Counts cap tasks.length f) (heach : Each tasks.length I f) {i : Nat}
    (hs : f.work act i = some f') : Each tasks.length I f' := by
  have hlt : f.workers i ≠ .waiting → i < tasks.length := fun hwaiting =>
    (hcounts.lt_launched hwaiting).trans_le hcounts.launched_le
  unfold Fan.work at hs
  split at hs
  · cases hs
  · cases hs
  · rename_i w k hw
    cases hs
    have hi := heach i (hlt (by simp [hw]))
    rw [hw] at hi
    intro j hj
    by_cases hji : j = i
    · subst hji
      show I j _ _ (Function.update f.workers j _ j)
      rw [Function.update_self]
      exact h.move hi
    · show I j _ _ (Function.update f.workers i _ j)
      rw [Function.update_of_ne hji]
      exact h.frame (Ne.symm hji) hi (heach j hj)
  · rename_i a hw
    cases hs
    refine heach.worker rfl rfl (fun j hj => Function.update_of_ne hj _ _) fun _ hi => ?_
    rw [hw] at hi
    show I i f.store (Function.update f.results i _ i) .wrote
    rw [Function.update_self]
    exact h.write hi
  · rename_i hw
    cases hs
    exact heach.worker rfl rfl (fun _ _ => rfl) fun _ hi => h.release (hw ▸ hi)
  · rename_i hw
    cases hs
    exact heach.worker rfl rfl (fun _ _ => rfl) fun _ hi => h.finish (hw ▸ hi)

theorem Local.main (h : Local act tasks I) (hcounts : Counts cap tasks.length f) (heach : Each tasks.length I f)
    (hs : f.main cap tasks = some f') : Each tasks.length I f' := by
  unfold Fan.main at hs
  split at hs
  · cases hs
  split at hs
  · rename_i p htask
    split at hs
    · split at hs <;> cases hs
      refine heach.worker (i := f.launched) rfl rfl (fun _ _ => rfl) fun _ hi => h.launch htask ?_
      rwa [hcounts.waiting _ (le_refl _)] at hi
    · cases hs
      exact heach
  · split at hs <;> cases hs
    exact heach

/-- When the loop returns, it is so of all workers, which are done. -/
theorem Local.returned (h : Local act tasks I) {s : σ} (hs : ∀ i, i < tasks.length → I i s none .waiting)
    {es : List (Option Nat)} (hr : (start s).run act cap tasks es = some f') (hreturned : f'.returned = true) :
    ∀ i, i < tasks.length → I i f'.store (f'.results i) .done := by
  have hstep : ∀ (_ : Nat) (e : Option Nat) (f f' : Fan ω σ α), Counts cap tasks.length f → Each tasks.length I f →
      f.step act cap tasks e = some f' → Each tasks.length I f' := by
    intro _ e f f' hcounts heach hs
    cases e with
    | none => exact h.main hcounts heach hs
    | some i => exact h.work hcounts heach hs
  obtain ⟨hcounts, heach⟩ := Counts.run (P := fun _ f => Each tasks.length I f) (n := 0) hstep (counts_start s) hs hr
  intro i hi
  have hdone := heach i hi
  rwa [(hcounts.returned hreturned).2 i hi] at hdone

end Local

/-! ## Tasks over disjoint keys -/

section Disjoint
variable {act : ω → (κ → ν) → κ → ν} {cap : Nat} {tasks : List (Prog ω (κ → ν) α)} {K : Nat → κ → Prop} {s₀ : κ → ν}
  {f f' : Fan ω (κ → ν) α}

/-- No two tasks have a key in common. -/
def Apart (n : Nat) (K : Nat → κ → Prop) : Prop := ∀ i j, i < n → j < n → i ≠ j → ∀ key, K i key → ¬ K j key

/-- On its keys the worker is where its task would be alone. -/
def Carried (act : ω → (κ → ν) → κ → ν) (K : κ → Prop) (s₀ store : κ → ν) (result : Option α) (p : Prog ω (κ → ν) α) :
    Worker ω (κ → ν) α → Prop
  | .waiting => Agree K store s₀
  | .working q => q.Within act K ∧ (q.eval act store).1 = (p.eval act s₀).1 ∧ Agree K (q.eval act store).2 (p.eval act s₀).2
  | .wrote | .released | .done => result = some (p.eval act s₀).1 ∧ Agree K store (p.eval act s₀).2

theorem Carried.frame {K : κ → Prop} {store store' : κ → ν} {result : Option α} {p : Prog ω (κ → ν) α}
    {w : Worker ω (κ → ν) α} (h : Carried act K s₀ store result p w) (hs : Agree K store' store) :
    Carried act K s₀ store' result p w := by
  cases w with
  | waiting => exact hs.trans h
  | working q =>
      obtain ⟨hwithin, hvalue, hstore⟩ := h
      obtain ⟨hvalue', hstore'⟩ := Within.eval_agree hwithin hs
      exact ⟨hwithin, hvalue'.trans hvalue, hstore'.trans hstore⟩
  | wrote | released | done => exact ⟨h.1, hs.trans h.2⟩

structure Carries (act : ω → (κ → ν) → κ → ν) (tasks : List (Prog ω (κ → ν) α)) (K : Nat → κ → Prop) (s₀ : κ → ν)
    (f : Fan ω (κ → ν) α) : Prop where
  each : ∀ i p, tasks[i]? = some p → Carried act (K i) s₀ f.store (f.results i) p (f.workers i)
  outside : ∀ key, (∀ i, i < tasks.length → ¬ K i key) → f.store key = s₀ key

/-- A worker moves, on its own keys. -/
theorem Carries.worker (h : Carries act tasks K s₀ f) (hapart : Apart tasks.length K) {i : Nat} (hi : i < tasks.length)
    (hstore : ∀ key, ¬ K i key → f'.store key = f.store key) (hworkers : ∀ j, j ≠ i → f'.workers j = f.workers j)
    (hresults : ∀ j, j ≠ i → f'.results j = f.results j)
    (hown : ∀ p, tasks[i]? = some p → Carried act (K i) s₀ f'.store (f'.results i) p (f'.workers i)) :
    Carries act tasks K s₀ f' where
  each j p hp := by
    by_cases hji : j = i
    · subst hji
      exact hown p hp
    · rw [hworkers j hji, hresults j hji]
      refine (h.each j p hp).frame fun key hkey => hstore key ?_
      exact hapart j i (List.getElem?_eq_some_iff.mp hp).1 hi hji key hkey
  outside key hkey := (hstore key (hkey i hi)).trans (h.outside key hkey)

/-- A worker that has written its result down goes on. -/
theorem Carries.goes_on (h : Carries act tasks K s₀ f) (hapart : Apart tasks.length K) {i : Nat} (hi : i < tasks.length)
    {x : Worker ω (κ → ν) α} (hstore : f'.store = f.store) (hresults : f'.results = f.results)
    (hworkers : f'.workers = Function.update f.workers i x)
    (hx : ∀ p, Carried act (K i) s₀ f.store (f.results i) p (f.workers i) → Carried act (K i) s₀ f.store (f.results i) p x) :
    Carries act tasks K s₀ f' := by
  refine h.worker hapart hi (fun key _ => congrFun hstore key) (fun j hj => ?_) (fun j _ => congrFun hresults j)
    fun p hp => ?_
  · rw [hworkers, Function.update_of_ne hj]
  · rw [hstore, hresults, hworkers, Function.update_self]
    exact hx p (h.each i p hp)

theorem Carries.work (h : Carries act tasks K s₀ f) (hcounts : Counts cap tasks.length f) (hapart : Apart tasks.length K)
    {i : Nat} (hs : f.work act i = some f') : Carries act tasks K s₀ f' := by
  have hlt : f.workers i ≠ .waiting → i < tasks.length := fun hwaiting =>
    (hcounts.lt_launched hwaiting).trans_le hcounts.launched_le
  have hcarried := h.each i
  unfold Fan.work at hs
  split at hs
  · cases hs
  · cases hs
  · rename_i w k hw
    cases hs
    obtain ⟨p, hp⟩ : ∃ p, tasks[i]? = some p := ⟨_, List.getElem?_eq_getElem (hlt (by simp [hw]))⟩
    have hwithin := hcarried p hp
    rw [hw] at hwithin
    refine h.worker hapart (hlt (by simp [hw])) (fun key hkey => hwithin.1.2.1 f.store key hkey)
      (fun j hj => Function.update_of_ne hj _ _) (fun _ _ => rfl) fun p' hp' => ?_
    obtain rfl := Option.some.inj (hp.symm.trans hp')
    show Carried act (K i) s₀ _ _ p (Function.update f.workers i _ i)
    rw [Function.update_self]
    exact ⟨hwithin.1.2.2 f.store, hwithin.2⟩
  · rename_i a hw
    cases hs
    refine h.worker hapart (hlt (by simp [hw])) (fun _ _ => rfl) (fun j hj => Function.update_of_ne hj _ _)
      (fun j hj => Function.update_of_ne hj _ _) fun p hp => ?_
    have hdone := hcarried p hp
    rw [hw] at hdone
    show Carried act (K i) s₀ f.store (Function.update f.results i _ i) p (Function.update f.workers i _ i)
    rw [Function.update_self, Function.update_self]
    exact ⟨congrArg some hdone.2.1, hdone.2.2⟩
  · rename_i hw
    cases hs
    refine h.goes_on hapart (hlt (by simp [hw])) rfl rfl rfl fun p hdone => ?_
    rwa [hw] at hdone
  · rename_i hw
    cases hs
    refine h.goes_on hapart (hlt (by simp [hw])) rfl rfl rfl fun p hdone => ?_
    rwa [hw] at hdone

theorem Carries.main (h : Carries act tasks K s₀ f) (hcounts : Counts cap tasks.length f) (hapart : Apart tasks.length K)
    (hwithin : ∀ i (p : Prog ω (κ → ν) α), tasks[i]? = some p → p.Within act (K i)) (hs : f.main cap tasks = some f') :
    Carries act tasks K s₀ f' := by
  unfold Fan.main at hs
  split at hs
  · cases hs
  split at hs
  · rename_i p htask
    split at hs
    · split at hs <;> cases hs
      have hlt : f.launched < tasks.length := (List.getElem?_eq_some_iff.mp htask).1
      refine h.worker hapart hlt (fun _ _ => rfl) (fun j hj => Function.update_of_ne hj _ _) (fun _ _ => rfl) fun p' hp' => ?_
      obtain rfl := Option.some.inj (htask.symm.trans hp')
      have hwaiting := h.each _ p htask
      rw [hcounts.waiting _ (le_refl _)] at hwaiting
      show Carried act (K f.launched) s₀ f.store _ p (Function.update f.workers f.launched _ f.launched)
      rw [Function.update_self]
      have hp := hwithin _ p htask
      exact ⟨hp, Within.eval_agree hp hwaiting⟩
    · cases hs
      exact ⟨h.each, h.outside⟩
  · split at hs <;> cases hs
    exact ⟨h.each, h.outside⟩

/-- The tasks one after another. -/
def evalAll {σ : Type} (act : ω → σ → σ) : List (Prog ω σ α) → σ → List α × σ
  | [], s => ([], s)
  | p :: ps, s =>
    let one := p.eval act s
    let rest := evalAll act ps one.2
    (one.1 :: rest.1, rest.2)

/-- Tasks over disjoint keys do one after another what each does alone. -/
theorem evalAll_eq {tasks : List (Prog ω (κ → ν) α)} {K : Nat → κ → Prop} (hapart : Apart tasks.length K)
    (hwithin : ∀ i (p : Prog ω (κ → ν) α), tasks[i]? = some p → p.Within act (K i)) (s : κ → ν) :
    (evalAll act tasks s).1 = tasks.map (fun p => (p.eval act s).1) ∧
      (∀ i p, tasks[i]? = some p → Agree (K i) (evalAll act tasks s).2 (p.eval act s).2) ∧
      ∀ key, (∀ i, i < tasks.length → ¬ K i key) → (evalAll act tasks s).2 key = s key := by
  induction tasks generalizing K s with
  | nil => exact ⟨rfl, fun i p hp => by simp at hp, fun _ _ => rfl⟩
  | cons p ps ih =>
      have hp : p.Within act (K 0) := hwithin 0 p rfl
      have hnext : ∀ j, j < ps.length → ∀ key, K (j + 1) key → (p.eval act s).2 key = s key := by
        intro j hj key hkey
        refine Within.eval_outside hp s ?_
        exact hapart (j + 1) 0 (by simpa using hj) (by simp) (by omega) key hkey
      have hapart' : Apart ps.length fun j => K (j + 1) := fun i j hi hj hij =>
        hapart (i + 1) (j + 1) (by simpa using hi) (by simpa using hj) (by omega)
      obtain ⟨hvalues, hown, hout⟩ := ih hapart' (fun i q hq => hwithin (i + 1) q hq) (p.eval act s).2
      have hsame : ∀ i q, ps[i]? = some q → (q.eval act (p.eval act s).2).1 = (q.eval act s).1 ∧
          Agree (K (i + 1)) (q.eval act (p.eval act s).2).2 (q.eval act s).2 := fun i q hq =>
        Within.eval_agree (hwithin (i + 1) q hq) (hnext i (List.getElem?_eq_some_iff.mp hq).1)
      refine ⟨?_, fun i q hq => ?_, fun key hkey => ?_⟩
      · rw [evalAll, List.map_cons]
        dsimp only
        rw [hvalues]
        refine congrArg _ (List.map_congr_left fun q hq => ?_)
        obtain ⟨i, hi⟩ := List.mem_iff_getElem?.mp hq
        exact (hsame i q hi).1
      · cases i with
        | zero =>
            cases hq
            refine fun key hkey => hout key fun j hj hkey' => ?_
            exact hapart 0 (j + 1) (by simp) (by simpa using hj) (by omega) key hkey hkey'
        | succ i => exact (hown i q hq).trans (hsame i q hq).2
      · refine (hout key fun j hj => hkey (j + 1) (by simpa using hj)).trans ?_
        exact Within.eval_outside hp s (hkey 0 (by simp))

/-- When the loop returns, each task has done what it does alone. -/
theorem alone (hapart : Apart tasks.length K) (hwithin : ∀ i (p : Prog ω (κ → ν) α), tasks[i]? = some p → p.Within act (K i))
    (s : κ → ν) {es : List (Option Nat)} (hr : (start s).run act cap tasks es = some f') (hreturned : f'.returned = true) :
    (∀ i p, tasks[i]? = some p → f'.results i = some (p.eval act s).1 ∧ Agree (K i) f'.store (p.eval act s).2) ∧
      ∀ key, (∀ i, i < tasks.length → ¬ K i key) → f'.store key = s key := by
  have hstep : ∀ (_ : Nat) (e : Option Nat) (f f' : Fan ω (κ → ν) α), Counts cap tasks.length f → Carries act tasks K s f →
      f.step act cap tasks e = some f' → Carries act tasks K s f' := by
    intro _ e f f' hcounts h hs
    cases e with
    | none => exact h.main hcounts hapart hwithin hs
    | some i => exact h.work hcounts hapart hs
  obtain ⟨hcounts, hcarries⟩ := Counts.run (P := fun _ f => Carries act tasks K s f) (n := 0) hstep (counts_start s)
    ⟨fun i p _ => Agree.refl _ _, fun _ _ => rfl⟩ hr
  obtain ⟨-, hdone⟩ := hcounts.returned hreturned
  refine ⟨fun i p hp => ?_, hcarries.outside⟩
  have hcarried := hcarries.each i p hp
  rw [hdone i (List.getElem?_eq_some_iff.mp hp).1] at hcarried
  exact hcarried

/-- When the loop returns, the tasks have done what they do one after another. -/
theorem eq_evalAll (hapart : Apart tasks.length K)
    (hwithin : ∀ i (p : Prog ω (κ → ν) α), tasks[i]? = some p → p.Within act (K i)) (s : κ → ν) {es : List (Option Nat)}
    (hr : (start s).run act cap tasks es = some f') (hreturned : f'.returned = true) :
    (List.range tasks.length).map f'.results = (evalAll act tasks s).1.map some ∧ f'.store = (evalAll act tasks s).2 := by
  obtain ⟨hown, houtside⟩ := alone hapart hwithin s hr hreturned
  obtain ⟨hvalues, hkeys, hout⟩ := evalAll_eq hapart hwithin s
  refine ⟨?_, funext fun key => ?_⟩
  · rw [hvalues, List.map_map]
    refine List.ext_getElem? fun i => ?_
    rw [List.getElem?_map, List.getElem?_map]
    by_cases hi : i < tasks.length
    · rw [List.getElem?_range hi, List.getElem?_eq_getElem hi]
      exact congrArg some (hown i _ (List.getElem?_eq_getElem hi)).1
    · rw [List.getElem?_eq_none (by simpa using hi), List.getElem?_eq_none (by simpa using hi)]
      rfl
  · by_cases hkey : ∃ i, i < tasks.length ∧ K i key
    · obtain ⟨i, hi, hkey⟩ := hkey
      have hp := List.getElem?_eq_getElem hi
      exact ((hown i _ hp).2 key hkey).trans (hkeys i _ hp key hkey).symm
    · have hnone : ∀ i, i < tasks.length → ¬ K i key := fun i hi hk => hkey ⟨i, hi, hk⟩
      exact (houtside key hnone).trans (hout key hnone).symm

end Disjoint

end Fan

end Interleave
