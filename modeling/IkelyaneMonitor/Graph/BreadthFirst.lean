import Mathlib.Data.List.Nodup
import Mathlib.Data.List.Perm.Subperm
import Mathlib.Logic.Relation

/-!
# Breadth-first walks

A walk over any directed graph, given by the successors of each node.

* `Walk`, `Walk.visit`, `Walk.run`, `reach` : the walk with its queue, for so many nodes taken from the queue;
* `fresh` : what a walk finds new in a list; `levels`, `level` : the same walk one level after the other;
* `reach_eq` : with fuel for every node that is a successor, the queue runs empty and the levels follow one another;
* `mem_level` : a level holds the nodes at its distance; `mem_reach` : the walk finds what a path leads to;
* `level_perm`, `head_level` : the order of the edges moves nodes within their level only, and can put any of them first.
-/

namespace BreadthFirst

/-! ## Distances -/

section Distance
variable {α : Type} (next : α → List α)

/-- A walk of so many edges. -/
inductive Path : Nat → α → α → Prop where
  | nil (a : α) : Path 0 a a
  | snoc {k : Nat} {a b c : α} (walk : Path k a b) (edge : c ∈ next b) : Path (k + 1) a c

/-- `b` is so many edges from `a`, and no fewer. -/
def AtDistance (k : Nat) (a b : α) : Prop := Path next k a b ∧ ∀ j < k, ¬ Path next j a b

variable {next} {a b : α} {k : Nat}

/-- One node or more further on. -/
abbrev Reaches (next : α → List α) : α → α → Prop := Relation.TransGen fun a b => b ∈ next a

theorem exists_path : (∃ j, Path next j a b) ↔ b = a ∨ Reaches next a b := by
  constructor
  · rintro ⟨j, hpath⟩
    induction hpath with
    | nil a => exact .inl rfl
    | snoc walk edge ih =>
        rcases ih with rfl | hreach
        · exact .inr (.single edge)
        · exact .inr (hreach.tail edge)
  · rintro (rfl | hreach)
    · exact ⟨0, .nil b⟩
    · induction hreach with
      | single edge => exact ⟨1, .snoc (.nil a) edge⟩
      | tail _ edge ih =>
          obtain ⟨j, hpath⟩ := ih
          exact ⟨j + 1, .snoc hpath edge⟩

/-- A node that some walk leads to has a distance. -/
theorem exists_atDistance (h : Path next k a b) : ∃ j ≤ k, AtDistance next j a b := by
  induction k using Nat.strongRecOn with
  | ind k ih =>
      by_cases hless : ∃ j < k, Path next j a b
      · obtain ⟨j, hj, hpath⟩ := hless
        obtain ⟨i, hi, hat⟩ := ih j hj hpath
        exact ⟨i, Nat.le_trans hi (Nat.le_of_lt hj), hat⟩
      · exact ⟨k, Nat.le_refl k, h, fun j hj hpath => hless ⟨j, hj, hpath⟩⟩

theorem AtDistance.unique {i j : Nat} (hi : AtDistance next i a b) (hj : AtDistance next j a b) : i = j := by
  rcases Nat.lt_trichotomy i j with hlt | heq | hlt
  · exact absurd hi.1 (hj.2 i hlt)
  · exact heq
  · exact absurd hj.1 (hi.2 j hlt)

theorem AtDistance.mem_of_succ (h : AtDistance next (k + 1) a b) : ∃ c, AtDistance next k a c ∧ b ∈ next c := by
  obtain ⟨hpath, hleast⟩ := h
  cases hpath with
  | snoc walk edge => exact ⟨_, ⟨walk, fun j hj hless => hleast (j + 1) (Nat.succ_lt_succ hj) (.snoc hless edge)⟩, edge⟩

/-- The nodes of a shortest walk, each at its distance. -/
theorem AtDistance.exists_nodes (h : AtDistance next k a b) :
    ∃ f : Nat → α, f k = b ∧ (∀ i < k, f (i + 1) ∈ next (f i)) ∧ ∀ i ≤ k, AtDistance next i a (f i) := by
  induction k generalizing b with
  | zero =>
      refine ⟨fun _ => b, rfl, fun i hi => absurd hi (Nat.not_lt_zero i), fun i hi => ?_⟩
      obtain rfl := Nat.le_zero.mp hi
      exact h
  | succ k ih =>
      obtain ⟨c, hc, hedge⟩ := h.mem_of_succ
      obtain ⟨f, hf, hnext, hat⟩ := ih hc
      refine ⟨fun i => if i ≤ k then f i else b, if_neg (by omega), fun i hi => ?_, fun i hi => ?_⟩
      · by_cases hik : i + 1 ≤ k
        · simp only [if_pos hik, if_pos (show i ≤ k by omega)]
          exact hnext i hik
        · obtain rfl : i = k := by omega
          simp only [if_neg hik, Nat.le_refl, if_true, hf]
          exact hedge
      · by_cases hik : i ≤ k
        · simp only [if_pos hik]
          exact hat i hik
        · obtain rfl : i = k + 1 := by omega
          simp only [if_neg hik]
          exact h

theorem Path.congr {next' : α → List α} (h : ∀ a b, b ∈ next a → b ∈ next' a) (hpath : Path next k a b) :
    Path next' k a b := by
  induction hpath with
  | nil a => exact .nil a
  | snoc walk edge ih => exact .snoc ih (h _ _ edge)

theorem atDistance_congr {next' : α → List α} (h : ∀ a b, b ∈ next a ↔ b ∈ next' a) :
    AtDistance next k a b ↔ AtDistance next' k a b := by
  have hpath : ∀ j, Path next j a b ↔ Path next' j a b := fun j =>
    ⟨Path.congr fun a b => (h a b).mp, Path.congr fun a b => (h a b).mpr⟩
  unfold AtDistance
  simp only [hpath]

end Distance

variable {α : Type} [DecidableEq α]

/-- The walk, with the nodes seen, the order they were found in, and those still to be followed. -/
structure Walk (α : Type) where
  visited : List α
  order : List α
  queue : List α

def Walk.visit (w : Walk α) (neighbour : α) : Walk α :=
  if neighbour ∈ w.visited then w
  else ⟨w.visited ++ [neighbour], w.order ++ [neighbour], w.queue ++ [neighbour]⟩

def Walk.run (next : α → List α) : (fuel : Nat) → Walk α → Walk α
  | 0, w => w
  | fuel + 1, w =>
      match w.queue with
      | [] => w
      | node :: rest => run next fuel ((next node).foldl Walk.visit { w with queue := rest })

def walkFrom (next : α → List α) (start : α) (fuel : Nat) : Walk α := Walk.run next fuel ⟨[start], [], [start]⟩

def reach (next : α → List α) (start : α) (fuel : Nat) : List α := (walkFrom next start fuel).order

/-! ## What is new in a list -/

/-- The elements that were not seen, each once. -/
def fresh (seen : List α) : List α → List α
  | [] => []
  | x :: xs => if x ∈ seen then fresh seen xs else x :: fresh (seen ++ [x]) xs

variable {seen xs ys : List α} {x : α}

@[simp] theorem fresh_nil : fresh seen ([] : List α) = [] := rfl

theorem fresh_cons_new (h : x ∉ seen) : fresh seen (x :: xs) = x :: fresh (seen ++ [x]) xs := if_neg h

theorem fresh_cons_seen (h : x ∈ seen) : fresh seen (x :: xs) = fresh seen xs := if_pos h

@[simp] theorem mem_fresh : x ∈ fresh seen xs ↔ x ∈ xs ∧ x ∉ seen := by
  induction xs generalizing seen with
  | nil => simp
  | cons y ys ih =>
      by_cases hy : y ∈ seen
      · rw [fresh_cons_seen hy, ih, List.mem_cons]
        refine ⟨fun ⟨hx, hs⟩ => ⟨.inr hx, hs⟩, fun ⟨hx, hs⟩ => ⟨?_, hs⟩⟩
        exact hx.resolve_left fun h => hs (h ▸ hy)
      · rw [fresh_cons_new hy, List.mem_cons, ih, List.mem_cons, List.mem_append, List.mem_singleton]
        by_cases hxy : x = y
        · simp [hxy, hy]
        · simp [hxy]

theorem nodup_fresh (seen xs : List α) : (fresh seen xs).Nodup := by
  induction xs generalizing seen with
  | nil => exact List.nodup_nil
  | cons y ys ih =>
      by_cases hy : y ∈ seen
      · rw [fresh_cons_seen hy]
        exact ih seen
      · rw [fresh_cons_new hy, List.nodup_cons]
        exact ⟨fun h => (mem_fresh.mp h).2 (by simp), ih _⟩

theorem fresh_append (seen xs ys : List α) :
    fresh seen (xs ++ ys) = fresh seen xs ++ fresh (seen ++ fresh seen xs) ys := by
  induction xs generalizing seen with
  | nil => simp
  | cons x xs ih =>
      rw [List.cons_append]
      by_cases hx : x ∈ seen
      · rw [fresh_cons_seen hx, fresh_cons_seen hx, ih]
      · rw [fresh_cons_new hx, fresh_cons_new hx, ih, List.cons_append, List.append_assoc, List.singleton_append]

theorem foldl_visit (w : Walk α) (xs : List α) :
    xs.foldl Walk.visit w =
      ⟨w.visited ++ fresh w.visited xs, w.order ++ fresh w.visited xs, w.queue ++ fresh w.visited xs⟩ := by
  induction xs generalizing w with
  | nil => simp
  | cons x xs ih =>
      rw [List.foldl_cons, ih]
      unfold Walk.visit
      by_cases hx : x ∈ w.visited
      · rw [if_pos hx, fresh_cons_seen hx]
      · rw [if_neg hx, fresh_cons_new hx]
        simp only [List.append_assoc, List.singleton_append]

/-! ## Levels -/

section Levels
variable (next : α → List α) (start : α)

/-- The nodes seen up to a level, and those of the level. -/
def levels : Nat → List α × List α
  | 0 => ([start], [start])
  | k + 1 =>
      let new := fresh (levels k).1 ((levels k).2.flatMap next)
      ((levels k).1 ++ new, new)

def level (k : Nat) : List α := (levels next start k).2

def seenUpTo (k : Nat) : List α := (levels next start k).1

@[simp] theorem level_zero : level next start 0 = [start] := rfl

@[simp] theorem seenUpTo_zero : seenUpTo next start 0 = [start] := rfl

theorem level_succ (k : Nat) :
    level next start (k + 1) = fresh (seenUpTo next start k) ((level next start k).flatMap next) := rfl

theorem seenUpTo_succ (k : Nat) : seenUpTo next start (k + 1) = seenUpTo next start k ++ level next start (k + 1) := rfl

/-- The nodes after the first, level by level. -/
def found (k : Nat) : List α := (List.range k).flatMap fun i => level next start (i + 1)

theorem found_succ (k : Nat) : found next start (k + 1) = found next start k ++ level next start (k + 1) := by
  unfold found
  rw [List.range_succ, List.flatMap_append, List.flatMap_singleton]

theorem seenUpTo_eq (k : Nat) : seenUpTo next start k = start :: found next start k := by
  induction k with
  | zero => rfl
  | succ k ih => rw [seenUpTo_succ, found_succ, ih, List.cons_append]

theorem nodup_seenUpTo (k : Nat) : (seenUpTo next start k).Nodup := by
  induction k with
  | zero => exact List.nodup_singleton start
  | succ k ih =>
      rw [seenUpTo_succ]
      refine List.nodup_append.mpr ⟨ih, nodup_fresh _ _, ?_⟩
      rintro a ha b hb rfl
      rw [level_succ, mem_fresh] at hb
      exact hb.2 ha

theorem nodup_level (k : Nat) : (level next start k).Nodup := by
  cases k with
  | zero => exact List.nodup_singleton start
  | succ k => exact nodup_fresh _ _

theorem level_eq_nil {k : Nat} (h : level next start k = []) (j : Nat) : level next start (k + j) = [] := by
  induction j with
  | zero => exact h
  | succ j ih =>
      rw [← Nat.add_assoc, level_succ, ih]
      rfl

theorem found_add {k : Nat} (h : level next start (k + 1) = []) (j : Nat) :
    found next start (k + j) = found next start k := by
  induction j with
  | zero => rfl
  | succ j ih =>
      rw [← Nat.add_assoc, found_succ, ih, show k + j + 1 = k + 1 + j by omega, level_eq_nil next start h,
        List.append_nil]

/-- The nodes of a level are taken from the queue one after the other. -/
theorem run_front (front back visited order : List α) (fuel : Nat) :
    Walk.run next (front.length + fuel) ⟨visited, order, front ++ back⟩ =
      Walk.run next fuel ⟨visited ++ fresh visited (front.flatMap next), order ++ fresh visited (front.flatMap next),
        back ++ fresh visited (front.flatMap next)⟩ := by
  induction front generalizing back visited order with
  | nil => simp
  | cons node front ih =>
      rw [List.length_cons, show front.length + 1 + fuel = front.length + fuel + 1 by omega, List.cons_append]
      show Walk.run next (front.length + fuel) ((next node).foldl Walk.visit ⟨visited, order, front ++ back⟩) = _
      rw [foldl_visit]
      dsimp only
      rw [List.append_assoc, ih, List.flatMap_cons, fresh_append]
      simp only [List.append_assoc]

theorem run_levels (k fuel : Nat) :
    walkFrom next start ((levels next start k).1.length - (level next start k).length + fuel) =
      Walk.run next fuel ⟨seenUpTo next start k, found next start k, level next start k⟩ := by
  induction k generalizing fuel with
  | zero =>
      show walkFrom next start (1 - 1 + fuel) = _
      rw [Nat.sub_self, Nat.zero_add]
      rfl
  | succ k ih =>
      have hsub : (level next start k).length ≤ (seenUpTo next start k).length := by
        cases k with
        | zero => exact Nat.le_refl 1
        | succ k => rw [seenUpTo_succ, List.length_append]; omega
      have hlen : (levels next start (k + 1)).1.length - (level next start (k + 1)).length + fuel =
          (levels next start k).1.length - (level next start k).length + ((level next start k).length + fuel) := by
        show (seenUpTo next start (k + 1)).length - (level next start (k + 1)).length + fuel =
          (seenUpTo next start k).length - (level next start k).length + ((level next start k).length + fuel)
        rw [seenUpTo_succ, List.length_append]
        omega
      have hfront := run_front next (level next start k) [] (seenUpTo next start k) (found next start k) fuel
      rw [List.append_nil] at hfront
      rw [hlen, ih, hfront, List.nil_append, ← level_succ, ← seenUpTo_succ, ← found_succ]

end Levels

/-! ## Levels by distance -/

section ByDistance
variable {next : α → List α} {start b : α} {k : Nat}

theorem path_of_mem_level (h : x ∈ level next start k) : Path next k start x := by
  induction k generalizing x with
  | zero =>
      rw [level_zero, List.mem_singleton] at h
      subst h
      exact .nil x
  | succ k ih =>
      rw [level_succ, mem_fresh, List.mem_flatMap] at h
      obtain ⟨⟨b, hb, hx⟩, -⟩ := h
      exact .snoc (ih hb) hx

theorem seenUpTo_mono {j : Nat} (hjk : j ≤ k) (h : x ∈ seenUpTo next start j) : x ∈ seenUpTo next start k := by
  obtain ⟨d, rfl⟩ := Nat.exists_eq_add_of_le hjk
  induction d with
  | zero => exact h
  | succ d ih =>
      rw [← Nat.add_assoc, seenUpTo_succ]
      exact List.mem_append_left _ (ih (Nat.le_add_right j d))

theorem mem_seenUpTo_succ (hb : b ∈ seenUpTo next start k) (hx : x ∈ next b) : x ∈ seenUpTo next start (k + 1) := by
  have hfront : ∀ k, b ∈ level next start k → x ∈ seenUpTo next start (k + 1) := by
    intro k hb
    by_cases hx' : x ∈ seenUpTo next start k
    · exact seenUpTo_mono (Nat.le_succ k) hx'
    · rw [seenUpTo_succ, level_succ]
      exact List.mem_append_right _ (mem_fresh.mpr ⟨List.mem_flatMap.mpr ⟨b, hb, hx⟩, hx'⟩)
  induction k with
  | zero => exact hfront 0 hb
  | succ k ih =>
      rw [seenUpTo_succ, List.mem_append] at hb
      rcases hb with hold | hnew
      · exact seenUpTo_mono (Nat.le_succ (k + 1)) (ih hold)
      · exact hfront (k + 1) hnew

theorem mem_seenUpTo : x ∈ seenUpTo next start k ↔ ∃ j ≤ k, Path next j start x := by
  constructor
  · intro h
    induction k with
    | zero => exact ⟨0, Nat.le_refl 0, path_of_mem_level h⟩
    | succ k ih =>
        rw [seenUpTo_succ, List.mem_append] at h
        rcases h with hold | hnew
        · obtain ⟨j, hj, hpath⟩ := ih hold
          exact ⟨j, Nat.le_succ_of_le hj, hpath⟩
        · exact ⟨k + 1, Nat.le_refl _, path_of_mem_level hnew⟩
  · rintro ⟨j, hj, hpath⟩
    refine seenUpTo_mono hj ?_
    clear hj
    induction hpath with
    | nil a => exact List.mem_singleton_self a
    | snoc walk edge ih => exact mem_seenUpTo_succ ih edge

theorem mem_level : x ∈ level next start k ↔ AtDistance next k start x := by
  cases k with
  | zero =>
      rw [level_zero, List.mem_singleton]
      constructor
      · rintro rfl
        exact ⟨.nil x, fun j hj => absurd hj (Nat.not_lt_zero j)⟩
      · rintro ⟨hpath, -⟩
        cases hpath
        rfl
  | succ k =>
      constructor
      · intro h
        refine ⟨path_of_mem_level h, fun j hj hpath => ?_⟩
        rw [level_succ, mem_fresh] at h
        exact h.2 (mem_seenUpTo.mpr ⟨j, Nat.le_of_lt_succ hj, hpath⟩)
      · rintro ⟨hpath, hleast⟩
        have hseen : x ∈ seenUpTo next start (k + 1) := mem_seenUpTo.mpr ⟨k + 1, Nat.le_refl _, hpath⟩
        rw [seenUpTo_succ, List.mem_append] at hseen
        refine hseen.resolve_left fun hold => ?_
        obtain ⟨j, hj, hearlier⟩ := mem_seenUpTo.mp hold
        exact hleast j (Nat.lt_succ_of_le hj) hearlier

/-- The same edges in another order give levels of the same nodes. -/
theorem level_perm {next' : α → List α} (h : ∀ a b, b ∈ next a ↔ b ∈ next' a) (k : Nat) :
    (level next start k).Perm (level next' start k) := by
  refine (List.perm_ext_iff_of_nodup (nodup_level next start k) (nodup_level next' start k)).mpr fun x => ?_
  rw [mem_level, mem_level, atDistance_congr h]

/-- A walk each of whose nodes is the first successor of the one before leads to the first node of its level. -/
theorem head_level {f : Nat → α} (hdist : ∀ i ≤ k, AtDistance next i start (f i))
    (hfirst : ∀ i < k, (next (f i)).head? = some (f (i + 1))) : (level next start k).head? = some (f k) := by
  induction k with
  | zero =>
      have hstart := mem_level.mpr (hdist 0 (Nat.le_refl 0))
      rw [level_zero, List.mem_singleton] at hstart
      rw [hstart]
      rfl
  | succ k ih =>
      have hlevel := ih (fun i hi => hdist i (Nat.le_succ_of_le hi)) fun i hi => hfirst i (Nat.lt_succ_of_lt hi)
      obtain ⟨rest, hrest⟩ := List.head?_eq_some_iff.mp hlevel
      obtain ⟨others, hothers⟩ := List.head?_eq_some_iff.mp (hfirst k (Nat.lt_succ_self k))
      have hnew : f (k + 1) ∉ seenUpTo next start k := by
        intro hold
        obtain ⟨j, hj, hpath⟩ := mem_seenUpTo.mp hold
        exact (hdist (k + 1) (Nat.le_refl _)).2 j (Nat.lt_succ_of_le hj) hpath
      rw [level_succ, hrest, List.flatMap_cons, hothers, List.cons_append, fresh_cons_new hnew, List.head?_cons]

end ByDistance

/-! ## The walk as a whole -/

section Whole
variable {next : α → List α} {start : α}

/-- Every level but the last holds a node, all of them successors. -/
theorem length_found_le {targets : List α} (h : ∀ a, next a ⊆ targets) (k : Nat) :
    (found next start k).length ≤ targets.length := by
  have hnodup := nodup_seenUpTo next start k
  rw [seenUpTo_eq, List.nodup_cons] at hnodup
  refine (List.Nodup.subperm hnodup.2 fun x hx => ?_).length_le
  obtain ⟨i, -, hx⟩ := List.mem_flatMap.mp hx
  rw [level_succ, mem_fresh, List.mem_flatMap] at hx
  obtain ⟨⟨a, -, hx⟩, -⟩ := hx
  exact h a hx

theorem length_found_ge {k : Nat} (h : level next start k ≠ []) : k ≤ (found next start k).length := by
  induction k with
  | zero => exact Nat.zero_le _
  | succ k ih =>
      have hk : level next start k ≠ [] := fun hnil => h (level_eq_nil next start hnil 1)
      have hpos := List.length_pos_iff.mpr h
      have := ih hk
      rw [found_succ, List.length_append]
      omega

theorem level_eq_nil_of_lt {targets : List α} (h : ∀ a, next a ⊆ targets) {k : Nat} (hk : targets.length < k) :
    level next start k = [] := by
  by_contra hne
  have := length_found_ge hne
  have hle : (found next start k).length ≤ targets.length := length_found_le h k
  omega

/-- With fuel for each successor, and for the first node, the queue runs empty. -/
theorem walkFrom_eq {targets : List α} (h : ∀ a, next a ⊆ targets) {fuel : Nat} (hfuel : targets.length < fuel) :
    (walkFrom next start fuel).queue = [] ∧ (walkFrom next start fuel).order = found next start targets.length := by
  have hnil : level next start (targets.length + 1) = [] := level_eq_nil_of_lt h (Nat.lt_succ_self _)
  have hlen : (levels next start (targets.length + 1)).1.length - (level next start (targets.length + 1)).length ≤ fuel := by
    have hle : (found next start (targets.length + 1)).length ≤ targets.length := length_found_le h _
    show (seenUpTo next start (targets.length + 1)).length - _ ≤ fuel
    rw [seenUpTo_eq, List.length_cons]
    omega
  obtain ⟨rest, hrest⟩ := Nat.exists_eq_add_of_le hlen
  have hrun : ∀ (w : Walk α) (n : Nat), w.queue = [] → Walk.run next n w = w := by
    intro w n hw
    cases n with
    | zero => rfl
    | succ n => rw [Walk.run, hw]
  rw [hrest, run_levels, hrun _ _ hnil]
  exact ⟨hnil, found_add next start hnil 1⟩

theorem reach_eq {targets : List α} (h : ∀ a, next a ⊆ targets) {fuel : Nat} (hfuel : targets.length < fuel) :
    reach next start fuel = found next start targets.length := (walkFrom_eq h hfuel).2

theorem mem_found {targets : List α} (h : ∀ a, next a ⊆ targets) {x : α} :
    x ∈ found next start targets.length ↔ x ≠ start ∧ Reaches next start x := by
  have hnodup := nodup_seenUpTo next start targets.length
  have hseen : x ∈ seenUpTo next start targets.length ↔ x = start ∨ Reaches next start x := by
    rw [mem_seenUpTo, ← exists_path]
    constructor
    · rintro ⟨j, -, hpath⟩
      exact ⟨j, hpath⟩
    · rintro ⟨j, hpath⟩
      obtain ⟨i, -, hat⟩ := exists_atDistance hpath
      refine ⟨i, ?_, hat.1⟩
      by_contra hlt
      have hmem := mem_level.mpr hat
      rw [level_eq_nil_of_lt h (Nat.lt_of_not_le hlt)] at hmem
      cases hmem
  rw [seenUpTo_eq, List.nodup_cons] at hnodup
  rw [seenUpTo_eq, List.mem_cons] at hseen
  constructor
  · intro hx
    have hne : x ≠ start := fun h => hnodup.1 (h ▸ hx)
    exact ⟨hne, (hseen.mp (.inr hx)).resolve_left hne⟩
  · rintro ⟨hne, hreach⟩
    exact (hseen.mpr (.inr hreach)).resolve_left hne

/-- The walk finds every other node that a path leads to. -/
theorem mem_reach {targets : List α} (h : ∀ a, next a ⊆ targets) {fuel : Nat} (hfuel : targets.length < fuel) {x : α} :
    x ∈ reach next start fuel ↔ x ≠ start ∧ Reaches next start x := by
  rw [reach_eq h hfuel, mem_found h]

theorem nodup_found (k : Nat) : (found next start k).Nodup := by
  have hnodup := nodup_seenUpTo next start k
  rw [seenUpTo_eq] at hnodup
  exact (List.nodup_cons.mp hnodup).2

end Whole

end BreadthFirst
