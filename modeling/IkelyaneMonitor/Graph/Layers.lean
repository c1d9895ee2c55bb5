import Mathlib
import IkelyaneMonitor.Graph.BreadthFirst

/-!
# Layers of a directed graph by its longest paths

The topological pass over any directed multigraph without cycles, given by the successors of each node, repeated once for
each edge.

* `Pass`, `Pass.relax`, `Pass.step`, `pass` : the queue of the nodes without edges from nodes still to come, and the layers;
* `indegree_foldl`, `layer_foldl`, `mem_queue_foldl` : what the edges of one node do;
* `Pass.Good` : the counters hold the edges from the nodes not visited, and the layers are right for the edges of the others;
* `pass_visited` : every node is visited; `isGreatest_layer` : its layer is the length of the longest path that ends in it.
-/

namespace Layers
open BreadthFirst (Path)

/-- `visited` lists the nodes taken off the queue: nothing depends on it. -/
structure Pass (α : Type) where
  visited : List α
  indegree : α → Int
  layer : α → Nat
  queue : List α

section Pass
variable {α : Type} [DecidableEq α] (children : α → List α)

/-- One edge from `node` to `child`. -/
def Pass.relax (node : α) (s : Pass α) (child : α) : Pass α :=
  let left := s.indegree child - 1
  { s with
    layer := Function.update s.layer child (max (s.layer child) (s.layer node + 1))
    indegree := Function.update s.indegree child left
    queue := if left = 0 then s.queue ++ [child] else s.queue }

def Pass.step (s : Pass α) : Pass α :=
  match s.queue with
  | [] => s
  | node :: rest => (children node).foldl (Pass.relax node) { s with visited := s.visited ++ [node], queue := rest }

def pass (nodes : List α) (indegree : α → Int) : Pass α :=
  (Pass.step children)^[nodes.length] ⟨[], indegree, fun _ => 0, nodes.filter fun a => indegree a = 0⟩

end Pass

/-! ## The edges of one node -/

section Relax
variable {α : Type} [DecidableEq α] {node : α} {s : Pass α} {xs : List α}

@[simp] theorem visited_foldl : (xs.foldl (Pass.relax node) s).visited = s.visited := by
  induction xs generalizing s with
  | nil => rfl
  | cons x xs ih => exact ih

theorem indegree_foldl (c : α) : (xs.foldl (Pass.relax node) s).indegree c = s.indegree c - xs.count c := by
  induction xs generalizing s with
  | nil => simp
  | cons x xs ih =>
      rw [List.foldl_cons, ih, List.count_cons]
      by_cases hc : c = x
      · simp [Pass.relax, hc]
        omega
      · have hxc : ¬ x = c := fun h => hc h.symm
        simp [Pass.relax, hc, hxc]

theorem layer_foldl (hnode : node ∉ xs) (c : α) : (xs.foldl (Pass.relax node) s).layer c =
    if c ∈ xs then max (s.layer c) (s.layer node + 1) else s.layer c := by
  induction xs generalizing s with
  | nil => simp
  | cons x xs ih =>
      have hx : node ≠ x := fun hx => hnode (hx ▸ List.mem_cons_self ..)
      have hxs : node ∉ xs := fun hmem => hnode (List.mem_cons_of_mem _ hmem)
      have hkeep : (s.relax node x).layer node = s.layer node := Function.update_of_ne hx _ _
      rw [List.foldl_cons, ih hxs, hkeep]
      by_cases hc : c = x
      · subst hc
        have hsame : (s.relax node c).layer c = max (s.layer c) (s.layer node + 1) := Function.update_self ..
        rw [hsame, if_pos (List.mem_cons_self ..)]
        split <;> omega
      · have hsame : (s.relax node x).layer c = s.layer c := Function.update_of_ne hc _ _
        simp only [hsame, List.mem_cons, hc, false_or]

theorem count_tail {x c : α} (h : ∀ c ∈ x :: xs, (List.count c (x :: xs) : Int) ≤ s.indegree c) (hc : c ∈ xs) :
    (xs.count c : Int) ≤ (s.relax node x).indegree c := by
  have hle := h c (List.mem_cons_of_mem _ hc)
  rw [List.count_cons] at hle
  by_cases hcx : c = x
  · subst hcx
    have hsame : (s.relax node c).indegree c = s.indegree c - 1 := Function.update_self ..
    simp at hle
    omega
  · have hsame : (s.relax node x).indegree c = s.indegree c := Function.update_of_ne hcx _ _
    have hxc : ¬ x = c := fun h => hcx h.symm
    simp [hxc] at hle
    omega

/-- A node is queued by the last edge to it. -/
theorem mem_queue_foldl (h : ∀ c ∈ xs, (xs.count c : Int) ≤ s.indegree c) (c : α) :
    c ∈ (xs.foldl (Pass.relax node) s).queue ↔ c ∈ s.queue ∨ c ∈ xs ∧ s.indegree c = xs.count c := by
  induction xs generalizing s with
  | nil => simp
  | cons x xs ih =>
      rw [List.foldl_cons, ih fun c hc => count_tail h hc]
      have hx := h x (List.mem_cons_self ..)
      have hqueue : c ∈ (s.relax node x).queue ↔ c ∈ s.queue ∨ c = x ∧ s.indegree x = 1 := by
        show c ∈ (if s.indegree x - 1 = 0 then s.queue ++ [x] else s.queue) ↔ _
        split
        · rw [List.mem_append, List.mem_singleton]
          refine or_congr_right ⟨fun hc => ⟨hc, by omega⟩, And.left⟩
        · exact ⟨.inl, fun hc => hc.resolve_right fun hone => by omega⟩
      rw [hqueue, or_assoc, List.count_cons]
      refine or_congr_right ?_
      by_cases hcx : c = x
      · subst hcx
        have hsame : (s.relax node c).indegree c = s.indegree c - 1 := Function.update_self ..
        rw [List.count_cons_self] at hx
        by_cases hmem : c ∈ xs
        · have hpos : 0 < xs.count c := List.count_pos_iff.mpr hmem
          simp [hsame, hmem]
          omega
        · have hzero : xs.count c = 0 := List.count_eq_zero.mpr hmem
          simp [hmem, hzero]
      · have hsame : (s.relax node x).indegree c = s.indegree c := Function.update_of_ne hcx _ _
        have hxc : ¬ x = c := fun h => hcx h.symm
        simp [hsame, hcx, hxc]

theorem nodup_queue_foldl (h : ∀ c ∈ xs, (xs.count c : Int) ≤ s.indegree c) (hnodup : s.queue.Nodup)
    (hnew : ∀ c ∈ xs, c ∉ s.queue) : (xs.foldl (Pass.relax node) s).queue.Nodup := by
  induction xs generalizing s with
  | nil => exact hnodup
  | cons x xs ih =>
      have hx := h x (List.mem_cons_self ..)
      have hxnew := hnew x (List.mem_cons_self ..)
      rw [List.count_cons_self] at hx
      refine ih (fun c hc => count_tail h hc) ?_ fun c hc => ?_
      · show (if s.indegree x - 1 = 0 then s.queue ++ [x] else s.queue).Nodup
        split
        · exact List.nodup_append.mpr ⟨hnodup, List.nodup_singleton x, fun a ha b hb hab =>
            hxnew (List.mem_singleton.mp hb ▸ hab ▸ ha)⟩
        · exact hnodup
      · show c ∉ (if s.indegree x - 1 = 0 then s.queue ++ [x] else s.queue)
        have hcnew := hnew c (List.mem_cons_of_mem _ hc)
        split
        · have hpos : 0 < xs.count c := List.count_pos_iff.mpr hc
          have hcx : c ≠ x := fun hcx => by
            subst hcx
            omega
          simp [hcnew, hcx]
        · exact hcnew

end Relax

/-! ## The invariant -/

section Invariant
variable {α : Type} [DecidableEq α] (children : α → List α) (nodes : Finset α)

/-- The edges to a node from those of a set. -/
def edgesTo (sources : Finset α) (c : α) : Nat := ∑ p ∈ sources, (children p).count c

structure Pass.Good (s : Pass α) : Prop where
  nodup : (s.visited ++ s.queue).Nodup
  mem_nodes : ∀ a ∈ s.visited ++ s.queue, a ∈ nodes
  indegree : ∀ c, s.indegree c = edgesTo children (nodes \ s.visited.toFinset) c
  ready : ∀ c ∈ nodes, c ∈ s.visited ++ s.queue ↔ s.indegree c = 0
  layer_le : ∀ p ∈ s.visited, ∀ c ∈ children p, s.layer p + 1 ≤ s.layer c
  layer_eq : ∀ c, s.layer c = 0 ∨ ∃ p ∈ s.visited, c ∈ children p ∧ s.layer c = s.layer p + 1

variable {children nodes} {s : Pass α}

theorem edgesTo_eq_zero {sources : Finset α} {c : α} : edgesTo children sources c = 0 ↔ ∀ p ∈ sources, c ∉ children p := by
  unfold edgesTo
  rw [Finset.sum_eq_zero_iff]
  simp only [List.count_eq_zero]

/-- A node visited or queued has no edge from any other. -/
theorem Pass.Good.parent_visited (h : s.Good children nodes) {p c : α} (hp : p ∈ nodes) (hc : c ∈ s.visited ++ s.queue)
    (hedge : c ∈ children p) : p ∈ s.visited := by
  have hzero := (h.ready c (h.mem_nodes c hc)).mp hc
  rw [h.indegree] at hzero
  by_contra hnot
  exact edgesTo_eq_zero.mp (by exact_mod_cast hzero) p (by simp [hp, hnot]) hedge

theorem edgesTo_visit {visited : List α} {node : α} (hnode : node ∈ nodes) (hnew : node ∉ visited) (c : α) :
    edgesTo children (nodes \ visited.toFinset) c =
      (children node).count c + edgesTo children (nodes \ (visited ++ [node]).toFinset) c := by
  have hmem : node ∈ nodes \ visited.toFinset := by simp [hnode, hnew]
  have herase : nodes \ (visited ++ [node]).toFinset = (nodes \ visited.toFinset).erase node := by
    ext a
    simp
    tauto
  unfold edgesTo
  rw [herase, Finset.add_sum_erase _ (fun p => (children p).count c) hmem]

theorem step_good (h : s.Good children nodes) (hchildren : ∀ a, ∀ c ∈ children a, c ∈ nodes) :
    (s.step children).Good children nodes := by
  unfold Pass.step
  cases hqueue : s.queue with
  | nil => exact h
  | cons node rest =>
      have hnode : node ∈ s.visited ++ s.queue := by simp [hqueue]
      have hin := h.mem_nodes node hnode
      have hnodup := h.nodup
      rw [hqueue] at hnodup
      have hnew : node ∉ s.visited := fun hv =>
        (List.nodup_append.mp hnodup).2.2 node hv node (List.mem_cons_self ..) rfl
      have hcount : ∀ c, s.indegree c =
          (children node).count c + edgesTo children (nodes \ (s.visited ++ [node]).toFinset) c := by
        intro c
        rw [h.indegree, edgesTo_visit hin hnew]
        push_cast
        rfl
      -- what was visited or queued has no edge from the node
      have hfixed : ∀ a ∈ s.visited ++ s.queue, a ∉ children node := fun a ha hedge => hnew (h.parent_visited hin ha hedge)
      have hle : ∀ c ∈ children node, ((children node).count c : Int) ≤
          (Pass.mk (s.visited ++ [node]) s.indegree s.layer rest).indegree c := fun c _ => by
        show _ ≤ s.indegree c
        rw [hcount]
        exact le_add_of_nonneg_right (Int.natCast_nonneg _)
      have hq := @mem_queue_foldl α _ node _ _ hle
      have hlayer := @layer_foldl α _ node (Pass.mk (s.visited ++ [node]) s.indegree s.layer rest) _ (hfixed node hnode)
      have hdegree := @indegree_foldl α _ node (Pass.mk (s.visited ++ [node]) s.indegree s.layer rest) (children node)
      dsimp only at hq hlayer hdegree
      have hdone : ∀ a ∈ s.visited ++ [node], a ∉ children node := by
        intro a ha
        refine hfixed a ?_
        rw [hqueue]
        rcases List.mem_append.mp ha with ha | ha
        · exact List.mem_append_left _ ha
        · exact List.mem_append_right _ (List.mem_singleton.mp ha ▸ List.mem_cons_self ..)
      have hrest : ∀ c ∈ children node, c ∉ rest := fun c hc hmem =>
        hfixed c (by simp [hqueue, hmem]) hc
      have hmem : ∀ c, c ∈ (s.visited ++ [node]) ++
            ((children node).foldl (Pass.relax node) (Pass.mk (s.visited ++ [node]) s.indegree s.layer rest)).queue ↔
          c ∈ s.visited ++ s.queue ∨ c ∈ children node ∧ s.indegree c = (children node).count c := by
        intro c
        rw [List.mem_append, hq, hqueue]
        simp only [List.mem_append, List.mem_cons, List.not_mem_nil, or_false]
        tauto
      refine ⟨?_, ?_, ?_, ?_, ?_, ?_⟩
      · rw [visited_foldl]
        have hsplit : ((s.visited ++ [node]) ++ rest).Nodup := by simpa using hnodup
        obtain ⟨hvisited, hrestNodup, hdisjoint⟩ := List.nodup_append.mp hsplit
        refine List.nodup_append.mpr ⟨hvisited, nodup_queue_foldl hle hrestNodup hrest, fun a ha b hb hab => ?_⟩
        rcases (hq b).mp hb with hb | ⟨hb, -⟩
        · exact hdisjoint a ha b hb hab
        · exact hdone a ha (hab ▸ hb)
      · rw [visited_foldl]
        intro c hc
        rcases (hmem c).mp hc with hc | ⟨hc, -⟩
        · exact h.mem_nodes c hc
        · exact hchildren node c hc
      · intro c
        rw [hdegree, visited_foldl, hcount, add_sub_cancel_left]
      · intro c hc
        rw [visited_foldl, hmem, hdegree, h.ready c hc]
        by_cases hedge : c ∈ children node
        · have hpos : 0 < (children node).count c := List.count_pos_iff.mpr hedge
          have hge : ((children node).count c : Int) ≤ s.indegree c := hle c hedge
          simp only [hedge, true_and]
          omega
        · have hzero : (children node).count c = 0 := List.count_eq_zero.mpr hedge
          simp [hedge, hzero]
      · intro p hp c hc
        rw [visited_foldl] at hp
        rw [hlayer, hlayer, if_neg (hdone p hp)]
        rcases List.mem_append.mp hp with hp | hp
        · have := h.layer_le p hp c hc
          split <;> omega
        · obtain rfl := List.mem_singleton.mp hp
          rw [if_pos hc]
          omega
      · intro c
        have hkept : ∀ p ∈ s.visited ++ [node], ((children node).foldl (Pass.relax node)
            (Pass.mk (s.visited ++ [node]) s.indegree s.layer rest)).layer p = s.layer p := fun p hp => by
          rw [hlayer, if_neg (hdone p hp)]
        have hold : s.layer c = 0 ∨ ∃ p ∈ s.visited ++ [node], c ∈ children p ∧ s.layer c = s.layer p + 1 := by
          rcases h.layer_eq c with hzero | ⟨p, hp, hparent⟩
          · exact .inl hzero
          · exact .inr ⟨p, List.mem_append_left _ hp, hparent⟩
        have hnow : (if c ∈ children node then max (s.layer c) (s.layer node + 1) else s.layer c) = 0 ∨
            ∃ p ∈ s.visited ++ [node], c ∈ children p ∧
              (if c ∈ children node then max (s.layer c) (s.layer node + 1) else s.layer c) = s.layer p + 1 := by
          by_cases hedge : c ∈ children node
          · rw [if_pos hedge]
            rcases le_total (s.layer node + 1) (s.layer c) with hge | hge
            · rw [max_eq_left hge]
              exact hold
            · rw [max_eq_right hge]
              exact .inr ⟨node, by simp, hedge, rfl⟩
          · rw [if_neg hedge]
            exact hold
        rw [visited_foldl, hlayer]
        rcases hnow with hzero | ⟨p, hp, hedge, heq⟩
        · exact .inl hzero
        · refine .inr ⟨p, hp, hedge, ?_⟩
          rw [heq, hkept p hp]

end Invariant

/-! ## The whole pass -/

section Whole
variable {α : Type} [DecidableEq α] {children : α → List α} {nodes : List α}

theorem run_good (hchildren : ∀ a, ∀ c ∈ children a, c ∈ nodes.toFinset) (fuel : Nat) {s : Pass α}
    (h : s.Good children nodes.toFinset) (hfuel : nodes.length ≤ fuel + s.visited.length) :
    ((Pass.step children)^[fuel] s).Good children nodes.toFinset ∧ ((Pass.step children)^[fuel] s).queue = [] := by
  induction fuel generalizing s with
  | zero =>
      refine ⟨h, ?_⟩
      show s.queue = []
      have hle : (s.visited ++ s.queue).length ≤ nodes.length :=
        (List.subperm_of_subset h.nodup fun a ha => List.mem_toFinset.mp (h.mem_nodes a ha)).length_le
      rw [List.length_append] at hle
      exact List.length_eq_zero_iff.mp (by omega)
  | succ fuel ih =>
      rw [Function.iterate_succ_apply]
      by_cases hempty : s.queue = []
      · have hsame : s.step children = s := by
          unfold Pass.step
          rw [hempty]
        rw [hsame, Function.iterate_fixed hsame]
        exact ⟨h, hempty⟩
      · refine ih (step_good h hchildren) ?_
        obtain ⟨node, rest, hqueue⟩ := List.exists_cons_of_ne_nil hempty
        have hlen : (s.step children).visited.length = s.visited.length + 1 := by
          unfold Pass.step
          rw [hqueue]
          simp
        omega

/-- The counters as the pass starts: all the edges to each node. -/
theorem pass_good {indegree : α → Int} (hnodup : nodes.Nodup) (hchildren : ∀ a, ∀ c ∈ children a, c ∈ nodes.toFinset)
    (hindegree : ∀ c, indegree c = edgesTo children nodes.toFinset c) :
    (pass children nodes indegree).Good children nodes.toFinset ∧ (pass children nodes indegree).queue = [] := by
  refine run_good hchildren nodes.length ⟨?_, ?_, ?_, ?_, ?_, ?_⟩ (Nat.le_add_right _ _)
  · exact hnodup.filter _
  · intro a ha
    exact List.mem_toFinset.mpr (List.mem_of_mem_filter ha)
  · intro c
    show indegree c = _
    rw [hindegree]
    simp
  · intro c hc
    simpa using fun _ => List.mem_toFinset.mp hc
  · simp
  · simp

variable {s : Pass α}

/-- Without cycles every node is visited: one that is not has an edge from another. -/
theorem Pass.Good.visited_of_acyclic (h : s.Good children nodes.toFinset) (hqueue : s.queue = [])
    (hacyclic : ∀ a, ¬ Relation.TransGen (fun a b => b ∈ children a) a a) {a : α} (ha : a ∈ nodes) : a ∈ s.visited := by
  by_contra hnot
  let left := { x // x ∈ nodes ∧ x ∉ s.visited }
  have : Finite left := Finite.of_injective
    (fun x : left => (⟨x.1, List.mem_toFinset.mpr x.2.1⟩ : { x // x ∈ nodes.toFinset }))
    fun x y hxy => Subtype.ext (congrArg (fun z => z.1) hxy)
  let before : left → left → Prop := fun x y => Relation.TransGen (fun a b => b ∈ children a) x.1 y.1
  have : IsTrans _ before := ⟨fun _ _ _ hxy hyz => hxy.trans hyz⟩
  have : Std.Irrefl before := ⟨fun x => hacyclic x.1⟩
  have hwf : WellFounded before := Finite.wellFounded_of_trans_of_irrefl before
  obtain ⟨c, -, hfirst⟩ := hwf.has_min Set.univ ⟨⟨a, ha, hnot⟩, trivial⟩
  have hready := h.ready c.1 (List.mem_toFinset.mpr c.2.1)
  rw [hqueue, List.append_nil, h.indegree] at hready
  have hparent : ∃ p ∈ nodes.toFinset \ s.visited.toFinset, c.1 ∈ children p := by
    by_contra hnone
    push Not at hnone
    exact c.2.2 (hready.mpr (by exact_mod_cast edgesTo_eq_zero.mpr hnone))
  obtain ⟨p, hp, hedge⟩ := hparent
  rw [Finset.mem_sdiff, List.mem_toFinset, List.mem_toFinset] at hp
  exact hfirst ⟨p, hp⟩ trivial (.single hedge)

/-- The layer of a node is the length of the longest path that ends in it. -/
theorem Pass.Good.isGreatest_layer (h : s.Good children nodes.toFinset) (hall : ∀ p c, c ∈ children p → p ∈ s.visited)
    (c : α) : IsGreatest { k | ∃ a, Path children k a c } (s.layer c) := by
  constructor
  · have hpath : ∀ (k : Nat) (c : α), s.layer c = k → ∃ a, Path children k a c := by
      intro k
      induction k with
      | zero => exact fun c _ => ⟨c, .nil c⟩
      | succ k ih =>
          intro c hc
          rcases h.layer_eq c with hzero | ⟨p, -, hedge, heq⟩
          · omega
          · obtain ⟨a, hpath⟩ := ih p (by omega)
            exact ⟨a, .snoc hpath hedge⟩
    exact hpath _ c rfl
  · rintro k ⟨a, hpath⟩
    induction hpath with
    | nil a => exact Nat.zero_le _
    | snoc walk edge ih =>
        have := h.layer_le _ (hall _ _ edge) _ edge
        omega

end Whole

end Layers
