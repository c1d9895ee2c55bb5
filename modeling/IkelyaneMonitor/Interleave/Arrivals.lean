import IkelyaneMonitor.Interleave.Prog

/-!
# Calls that arrive while others run

`Conf` has all its calls from the start. Here requests come in one by one, in an order nobody knows beforehand.

* `Open` : the store, the requests received so far and what is left of the call of each; `receive` takes one more request,
  `serve` runs one statement;
* `Open.Completes`, `Open.close` : the requests that are still to come, and the configuration that has their calls too;
* `Served` : whatever is still to come, the closed configuration is reached by a run; `Served.receive`, `Served.serve` keep
  it, so that what holds of every run holds here.
-/

namespace Interleave

variable {κ ω σ α : Type}

structure Open (κ ω σ α : Type) where
  store : σ
  received : List κ
  calls : Nat → Prog ω σ α

namespace Open

variable (sem : Nat → ω → σ → Option σ) (call : κ → Prog ω σ α)

def receive (c : Open κ ω σ α) (x : κ) : Open κ ω σ α where
  store := c.store
  received := c.received ++ [x]
  calls := Function.update c.calls c.received.length (call x)

def serve (c : Open κ ω σ α) (i : Nat) : Option (Open κ ω σ α) :=
  if i < c.received.length then
    ((⟨c.store, c.calls⟩ : Conf Nat ω σ α).step sem i).map fun c' => ⟨c'.store, c.received, c'.calls⟩
  else none

/-- The requests so far are the first of `ops`. -/
def Completes (c : Open κ ω σ α) (ops : Nat → κ) : Prop := ∀ i x, c.received[i]? = some x → ops i = x

def close (c : Open κ ω σ α) (ops : Nat → κ) : Conf Nat ω σ α where
  store := c.store
  calls := fun i => if i < c.received.length then c.calls i else call (ops i)

/-- Whatever is still to come, a run from `s` leads here. -/
def Served (s : σ) (c : Open κ ω σ α) : Prop := ∀ ops, c.Completes ops →
  Reach sem anyStep ⟨s, fun i => call (ops i)⟩ (c.close call ops)

variable {sem call} {c c' : Open κ ω σ α} {s : σ} {i : Nat} {x : κ}

/-! ## One step -/

@[simp] theorem receive_store : (c.receive call x).store = c.store := rfl

@[simp] theorem receive_received : (c.receive call x).received = c.received ++ [x] := rfl

theorem receive_calls (h : i < c.received.length) : (c.receive call x).calls i = c.calls i :=
  Function.update_of_ne (Nat.ne_of_lt h) _ _

theorem serve_eq_some : c.serve sem i = some c' ↔ i < c.received.length ∧ ∃ w k s', c.calls i = .stmt w k ∧
    sem i w c.store = some s' ∧ c' = ⟨s', c.received, Function.update c.calls i (k c.store)⟩ := by
  unfold serve
  split
  · rename_i hi
    rw [Option.map_eq_some_iff]
    constructor
    · rintro ⟨c₁, hs, rfl⟩
      obtain ⟨w, k, s', hw, hsem, rfl⟩ := (Conf.step_eq_some sem).mp hs
      exact ⟨hi, w, k, s', hw, hsem, rfl⟩
    · rintro ⟨-, w, k, s', hw, hsem, rfl⟩
      exact ⟨_, (Conf.step_eq_some sem).mpr ⟨w, k, s', hw, hsem, rfl⟩, rfl⟩
  · rename_i hi
    simp [hi]

theorem serve_received (h : c.serve sem i = some c') : c'.received = c.received := by
  obtain ⟨-, w, k, s', -, -, rfl⟩ := serve_eq_some.mp h
  rfl

/-- A call that returned stays as it is. -/
theorem serve_ret (h : c.serve sem i = some c') {j : Nat} {a : α} (hj : c.calls j = .ret a) : c'.calls j = .ret a := by
  obtain ⟨-, w, k, s', hw, -, rfl⟩ := serve_eq_some.mp h
  have hne : j ≠ i := by
    rintro rfl
    rw [hw] at hj
    exact Prog.stmt_ne_ret hj
  exact (Function.update_of_ne hne _ _).trans hj

/-! ## Completions -/

theorem Completes.of_receive {ops : Nat → κ} (h : (c.receive call x).Completes ops) :
    c.Completes ops ∧ ops c.received.length = x := by
  constructor
  · intro i y hi
    have hlt : i < c.received.length := (List.getElem?_eq_some_iff.mp hi).1
    exact h i y ((List.getElem?_append_left hlt).trans hi)
  · exact h _ x (by simp)

/-- The requests so far, and `x` for ever after. -/
theorem completes_getD (c : Open κ ω σ α) (x : κ) : c.Completes fun i => c.received.getD i x := by
  intro i y hi
  show c.received.getD i x = y
  rw [List.getD_eq_getElem?_getD, hi, Option.getD_some]

theorem close_calls (h : i < c.received.length) (ops : Nat → κ) : (c.close call ops).calls i = c.calls i := if_pos h

/-! ## Runs -/

theorem served_start (s : σ) (calls : Nat → Prog ω σ α) : Served sem call s ⟨s, [], calls⟩ :=
  fun _ _ => .refl

theorem Served.receive (h : Served sem call s c) (x : κ) : Served sem call s (c.receive call x) := by
  intro ops hops
  obtain ⟨hc, hx⟩ := hops.of_receive
  have hclose : (c.receive call x).close call ops = c.close call ops := by
    simp only [close, receive_store, receive_received, List.length_append, List.length_singleton, Conf.mk.injEq, true_and]
    funext i
    rcases Nat.lt_trichotomy i c.received.length with hlt | rfl | hgt
    · rw [if_pos (by omega), if_pos hlt, receive_calls hlt]
    · rw [if_pos (by omega), if_neg (by omega), hx]
      exact Function.update_self ..
    · rw [if_neg (by omega), if_neg (by omega)]
  rw [hclose]
  exact h ops hc

theorem Served.serve (h : Served sem call s c) (hs : c.serve sem i = some c') : Served sem call s c' := by
  intro ops hops
  obtain ⟨hi, w, k, s', hw, hsem, rfl⟩ := serve_eq_some.mp hs
  refine .step (h ops hops) trivial ((Conf.step_eq_some sem).mpr ⟨w, k, s', ?_, hsem, ?_⟩)
  · rw [close_calls hi, hw]
  · simp only [close, Conf.mk.injEq, true_and]
    funext j
    by_cases hj : j = i
    · subst hj
      rw [if_pos hi, Function.update_self, Function.update_self]
    · rw [Function.update_of_ne hj, Function.update_of_ne hj]

end Open

end Interleave
