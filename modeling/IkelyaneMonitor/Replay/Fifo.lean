import Mathlib

/-!
# Bounded queues whose entries age

A queue that makes room at its front and keeps an entry until it is removed, and one that also forgets what is stale whenever
it is read.

* `push`, `remove`, `fresh` : the operations, on the entries from the first to the last;
* `Ages` : what is stale stays so, and so is all that came before it;
* `Lags` : one queue is another without some entries at its front that are stale from now on; `Lags.push`, `Lags.remove`,
  `Lags.prune` : the operations keep that; `Lags.fresh_eq` : both read the same.
-/

namespace Fifo
variable {α τ : Type*}

def push (bound : Nat) (x : α) (queue : List α) : List α := (if queue.length < bound then queue else queue.tail) ++ [x]

def remove (gone : α → Bool) (queue : List α) : List α := queue.filter fun x => !gone x

def fresh (stale : τ → α → Bool) (now : τ) (queue : List α) : List α := queue.filter fun x => !stale now x

theorem length_push_le {bound : Nat} (hpos : 0 < bound) {queue : List α} (h : queue.length ≤ bound) (x : α) :
    (push bound x queue).length ≤ bound := by
  unfold push
  rw [List.length_append, List.length_singleton]
  split
  · omega
  · rw [List.length_tail]
    omega

theorem length_remove_le (gone : α → Bool) (queue : List α) : (remove gone queue).length ≤ queue.length :=
  List.length_filter_le _ _

/-- What stays when room is made was there. -/
theorem mem_of_mem_room {p : Prop} [Decidable p] {y : α} {queue : List α} (h : y ∈ if p then queue else queue.tail) :
    y ∈ queue := by
  split at h
  · exact h
  · exact List.mem_of_mem_tail h

/-- Of a queue that is not over its bound one entry goes at most. -/
theorem drop_excess {bound : Nat} {queue : List α} (h : queue.length ≤ bound) :
    (if queue.length < bound then queue else queue.drop (queue.length - bound + 1)) =
      if queue.length < bound then queue else queue.tail := by
  split
  · rfl
  · have hone : queue.length - bound + 1 = 1 := by omega
    rw [hone, List.drop_one]

theorem mem_of_mem_push {bound : Nat} {x y : α} {queue : List α} (h : y ∈ push bound x queue) : y ∈ queue ∨ y = x := by
  rcases List.mem_append.mp h with hold | hnew
  · exact Or.inl (mem_of_mem_room hold)
  · exact Or.inr (List.mem_singleton.mp hnew)

/-- What the entries of a queue have in order is kept when the new entry comes after all of them. -/
theorem pairwise_push {r : α → α → Prop} {bound : Nat} {x : α} {queue : List α} (h : queue.Pairwise r)
    (hx : ∀ y ∈ queue, r y x) : (push bound x queue).Pairwise r := by
  unfold push
  rw [List.pairwise_append]
  refine ⟨?_, List.pairwise_singleton _ _, fun y hy z hz => ?_⟩
  · split
    · exact h
    · exact h.tail
  · rw [List.mem_singleton.mp hz]
    exact hx y (mem_of_mem_room hy)

/-! ## A queue that forgets what is stale -/

section Lags
variable (stale : τ → α → Bool)

/-- `kept` is `queue` without entries at its front that are stale. -/
def Lags (now : τ) (kept queue : List α) : Prop :=
  ∃ old, queue = old ++ kept ∧ ∀ x ∈ old, stale now x = true

variable {stale} {now : τ} {kept queue : List α}

theorem Lags.refl (now : τ) (queue : List α) : Lags stale now queue queue := ⟨[], rfl, fun _ h => absurd h List.not_mem_nil⟩

/-- A queue with less in it makes room later, and by then only for what is stale. -/
theorem Lags.push (h : Lags stale now kept queue) {bound : Nat} (hbound : queue.length ≤ bound) (x : α) :
    Lags stale now (push bound x kept) (push bound x queue) := by
  obtain ⟨old, rfl, hstale⟩ := h
  rw [List.length_append] at hbound
  unfold Fifo.push
  rw [List.length_append]
  by_cases hroom : old.length + kept.length < bound
  · rw [if_pos hroom, if_pos (by omega), List.append_assoc]
    exact ⟨old, rfl, hstale⟩
  rw [if_neg hroom]
  cases old with
  | nil =>
      rw [List.length_nil] at hbound hroom
      rw [if_neg (by omega), List.nil_append]
      exact Lags.refl _ _
  | cons y old =>
      rw [List.length_cons] at hbound
      rw [if_pos (by omega), List.cons_append, List.tail_cons, List.append_assoc]
      exact ⟨old, rfl, fun z hz => hstale z (List.mem_cons_of_mem _ hz)⟩

theorem Lags.remove (h : Lags stale now kept queue) (gone : α → Bool) :
    Lags stale now (remove gone kept) (remove gone queue) := by
  obtain ⟨old, rfl, hstale⟩ := h
  refine ⟨Fifo.remove gone old, List.filter_append .., fun x hx => ?_⟩
  exact hstale x (List.mem_of_mem_filter hx)

theorem Lags.fresh_eq (h : Lags stale now kept queue) : fresh stale now kept = fresh stale now queue := by
  obtain ⟨old, rfl, hstale⟩ := h
  have hnone : fresh stale now old = [] := by
    rw [fresh, List.filter_eq_nil_iff]
    intro x hx
    simp [hstale x hx]
  unfold fresh at hnone ⊢
  rw [List.filter_append, hnone, List.nil_append]

variable (stale) in
structure Ages [Preorder τ] (before : α → α → Prop) : Prop where
  later : ∀ {now now' : τ} {x : α}, now ≤ now' → stale now x = true → stale now' x = true
  earlier : ∀ {now : τ} {x y : α}, before x y → stale now y = true → stale now x = true

variable [Preorder τ] {before : α → α → Prop}

theorem Lags.mono {now' : τ} (hages : Ages stale before) (hle : now ≤ now') (h : Lags stale now kept queue) :
    Lags stale now' kept queue := by
  obtain ⟨old, rfl, hstale⟩ := h
  exact ⟨old, rfl, fun x hx => hages.later hle (hstale x hx)⟩

/-- What is stale is at the front. -/
theorem filter_stale_append_fresh (hages : Ages stale before) (hsorted : queue.Pairwise before) (now : τ) :
    queue.filter (stale now) ++ fresh stale now queue = queue := by
  induction queue with
  | nil => rfl
  | cons x queue ih =>
      obtain ⟨hfirst, hrest⟩ := List.pairwise_cons.mp hsorted
      by_cases hx : stale now x = true
      · unfold fresh at ih ⊢
        rw [List.filter_cons_of_pos hx, List.filter_cons_of_neg (by simp [hx]), List.cons_append, ih hrest]
      · -- behind a fresh entry nothing is stale
        have hnone : ∀ y ∈ x :: queue, ¬ stale now y = true := by
          intro y hy
          rcases List.mem_cons.mp hy with rfl | hy
          · exact hx
          · exact fun hstale => hx (hages.earlier (hfirst y hy) hstale)
        rw [List.filter_eq_nil_iff.mpr hnone, List.nil_append, fresh, List.filter_eq_self]
        intro y hy
        simpa using hnone y hy

theorem Lags.prune (hages : Ages stale before) (hsorted : kept.Pairwise before) (h : Lags stale now kept queue) :
    Lags stale now (fresh stale now kept) queue := by
  obtain ⟨old, rfl, hstale⟩ := h
  refine ⟨old ++ kept.filter (stale now), ?_, fun x hx => ?_⟩
  · rw [List.append_assoc, filter_stale_append_fresh hages hsorted]
  · rcases List.mem_append.mp hx with hold | hpruned
    · exact hstale x hold
    · exact (List.mem_filter.mp hpruned).2

end Lags

end Fifo
