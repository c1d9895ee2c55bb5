import Mathlib.Data.List.Sort
import Mathlib.Order.Interval.Set.Basic

/-!
# Order statistics of a sorted list

* `upper_getElem_iff` : the `k`th entry of a sorted list has a property that larger ones inherit exactly when as many entries
  have it as there are from the `k`th on; `le_getElem_iff`, `getElem_le_iff` : bounds on the `k`th entry;
* `insertionSort_eq_of_perm` : sorting forgets the order;
* `mem_Icc_of_majority` : when more than half of the entries lie in an interval, so do the middle ones. Whatever the others
  are: the breakdown point of the median.
-/

namespace Stats

variable {α : Type} [LinearOrder α] {l : List α}

theorem upper_getElem_iff (hs : l.Pairwise (· ≤ ·)) {k : Nat} (hk : k < l.length) {p : α → Bool}
    (hp : ∀ x y, x ≤ y → p x = true → p y = true) : p l[k] = true ↔ l.length ≤ k + l.countP p := by
  have hmono := List.pairwise_iff_getElem.mp hs
  have hsplit : ∀ n, l.countP p = (l.take n).countP p + (l.drop n).countP p := by
    intro n
    rw [← List.countP_append, List.take_append_drop]
  constructor
  · -- all entries from the `k`th on
    intro h
    have hall : (l.drop k).countP p = (l.drop k).length := by
      apply List.countP_eq_length.mpr
      intro x hx
      obtain ⟨i, hi, rfl⟩ := List.getElem_of_mem hx
      rw [List.getElem_drop]
      rcases Nat.eq_zero_or_pos i with rfl | hpos
      · exact h
      · exact hp _ _ (hmono k (k + i) hk (by simp at hi; omega) (by omega)) h
    rw [hsplit k, hall]
    simp
    omega
  · -- otherwise none of those up to it
    intro h
    by_contra hnot
    have hnone : (l.take (k + 1)).countP p = 0 := by
      apply List.countP_eq_zero.mpr
      intro x hx hpx
      obtain ⟨i, hi, rfl⟩ := List.getElem_of_mem hx
      rw [List.getElem_take] at hpx
      rcases Nat.lt_or_eq_of_le (show i ≤ k by simp at hi; omega) with hik | rfl
      · exact hnot (hp _ _ (hmono i k (by omega) hk hik) hpx)
      · exact hnot hpx
    have hrest := List.countP_le_length (p := p) (l := l.drop (k + 1))
    rw [hsplit (k + 1), hnone] at h
    simp at hrest
    omega

/-- The entries from the `k`th on are the ones that are at least as large. -/
theorem le_getElem_iff (hs : l.Pairwise (· ≤ ·)) {k : Nat} (hk : k < l.length) (t : α) :
    t ≤ l[k] ↔ l.length ≤ k + l.countP (fun x => decide (t ≤ x)) := by
  rw [← upper_getElem_iff hs hk, decide_eq_true_eq]
  intro x y hxy hx
  exact decide_eq_true ((of_decide_eq_true hx).trans hxy)

/-- The entries up to the `k`th are the ones that are at most as large. -/
theorem getElem_le_iff (hs : l.Pairwise (· ≤ ·)) {k : Nat} (hk : k < l.length) (t : α) :
    l[k] ≤ t ↔ k < l.countP (fun x => decide (x ≤ t)) := by
  have habove : t < l[k] ↔ l.length ≤ k + l.countP (fun x => decide (t < x)) := by
    rw [← upper_getElem_iff hs hk, decide_eq_true_eq]
    intro x y hxy hx
    exact decide_eq_true ((of_decide_eq_true hx).trans_le hxy)
  have hcount := List.length_eq_countP_add_countP (fun x => decide (x ≤ t)) (l := l)
  simp only [decide_eq_true_eq, not_le] at hcount
  rw [← not_lt, habove]
  omega

theorem insertionSort_eq_of_perm {l' : List α} (h : l.Perm l') :
    l.insertionSort (· ≤ ·) = l'.insertionSort (· ≤ ·) := by
  have hperm : (l.insertionSort (· ≤ ·)).Perm (l'.insertionSort (· ≤ ·)) :=
    (List.perm_insertionSort _ l).trans (h.trans (List.perm_insertionSort _ l').symm)
  exact hperm.eq_of_pairwise' (List.pairwise_insertionSort _ l) (List.pairwise_insertionSort _ l')

/-- Between the lower and the upper middle of a sorted list. -/
theorem mem_Icc_of_majority (hs : l.Pairwise (· ≤ ·)) {lo hi : α}
    (hmost : l.length < 2 * l.countP fun x => decide (lo ≤ x) && decide (x ≤ hi)) {k : Nat} (hk : k < l.length)
    (hlow : l.length ≤ 2 * k + 2) (hhigh : 2 * k ≤ l.length) : l[k] ∈ Set.Icc lo hi := by
  have hge : (l.countP fun x => decide (lo ≤ x) && decide (x ≤ hi)) ≤ l.countP fun x => decide (lo ≤ x) :=
    List.countP_mono_left fun x _ hx => (Bool.and_eq_true_iff.mp hx).1
  have hle : (l.countP fun x => decide (lo ≤ x) && decide (x ≤ hi)) ≤ l.countP fun x => decide (x ≤ hi) :=
    List.countP_mono_left fun x _ hx => (Bool.and_eq_true_iff.mp hx).2
  constructor
  · apply (le_getElem_iff hs hk lo).mpr
    omega
  · apply (getElem_le_iff hs hk hi).mpr
    omega

end Stats
