import Mathlib
import IkelyaneMonitor.Graph.DepthFirst
import IkelyaneMonitor.Graph.Layers
import IkelyaneMonitor.Topology.Graph

/-!
# The layered layout of the dependency map (`modules/topology/graph.ts`)

* `EdgeObject`, `validEdges`, `backEdges`, `dagEdges` : the edges drawn, and those left when the cycles are broken;
* `longestPathLayers` : the topological pass; `pushLayer`, `layersOf` : the array of layers, with its holes;
* `barycentre`, `arrange` : the order within the layers; `layoutRows`, `layeredLayout` : the rows, and the positions.

Coordinates are exact rationals.
-/

namespace IkelyaneMonitor.Topology
open Replay (groupBy members)

/-- An edge as an object of the program: `ref` tells apart two edges with the same ends. -/
structure EdgeObject (α : Type) extends DependencyEdge α where
  ref : Nat
  deriving DecidableEq, Repr

structure LayoutOptions where
  columnGap : Option ℚ := none
  rowGap : Option ℚ := none

section Layout
variable {α : Type} [DecidableEq α]

def validEdges (nodeIds : List α) (edges : List (EdgeObject α)) : List (EdgeObject α) :=
  edges.filter fun e => decide (e.parent ∈ nodeIds) && decide (e.child ∈ nodeIds) && decide (e.parent ≠ e.child)

/-- Each step of the walk passes an edge or leaves a node. -/
def backEdges (nodeIds : List α) (edges : List (EdgeObject α)) : List (EdgeObject α) :=
  let children := groupBy (fun edge : EdgeObject α => edge.parent) id edges
  (DepthFirst.search (members children) (fun edge => edge.child) (nodeIds.length * (edges.length + 1)) nodeIds).back

def dagEdges (nodeIds : List α) (edges : List (EdgeObject α)) : List (DependencyEdge α) :=
  let valid := validEdges nodeIds edges
  let back := backEdges nodeIds valid
  (valid.filter fun e => decide (e ∉ back)).map EdgeObject.toDependencyEdge

def connected (valid : List (EdgeObject α)) (id : α) : Bool := decide (id ∈ valid.flatMap fun e => [e.parent, e.child])

def longestPathLayers (nodeIds : List α) (dag : List (DependencyEdge α)) : Layers.Pass α :=
  let parentsOf := buildIndex dag .child
  let childrenOf := buildIndex dag .parent
  Layers.pass (members childrenOf) nodeIds fun id => if id ∈ nodeIds then (members parentsOf id).length else 0

/-- `(layers[depth] ??= []).push(id)`: an array grows with holes. -/
def pushLayer (id : α) : Nat → List (Option (List α)) → List (Option (List α))
  | 0, [] => [some [id]]
  | 0, row :: rows => some (row.getD [] ++ [id]) :: rows
  | depth + 1, [] => none :: pushLayer id depth []
  | depth + 1, row :: rows => row :: pushLayer id depth rows

def layersOf (layer : α → Nat) (ids : List α) : List (Option (List α)) :=
  ids.foldl (fun layers id => pushLayer id (layer id) layers) []

/-- The mean position of the parents that have one; `none` is infinity. -/
def barycentre (parentsOf : α → List α) (order : α → Option ℚ) (id : α) : Option ℚ :=
  let parents := (parentsOf id).filter fun p => (order p).isSome
  if parents.length = 0 then none
  else some (parents.foldl (fun sum p => sum + (order p).getD 0) 0 / parents.length)

def scoreLe : Option ℚ → Option ℚ → Bool
  | _, none => true
  | none, some _ => false
  | some a, some b => decide (a ≤ b)

/-- The column of an entry of a row, in column gaps. -/
def column (row : List α) (index : Nat) : ℚ := index - ((row.length : ℚ) - 1) / 2

def setOrder (order : α → Option ℚ) (row : List α) : α → Option ℚ :=
  row.zipIdx.foldl (fun order entry => Function.update order entry.1 (some (column row entry.2))) order

/-- Each layer by the barycentre of its parents; holes stay. -/
def arrange (parentsOf : α → List α) : (α → Option ℚ) → List (Option (List α)) → List (Option (List α))
  | _, [] => []
  | order, none :: rows => none :: arrange parentsOf order rows
  | order, some row :: rows =>
      let scored := row.map fun id => (id, barycentre parentsOf order id)
      let sorted := (scored.mergeSort fun a b => scoreLe a.2 b.2).map Prod.fst
      some sorted :: arrange parentsOf (setOrder order sorted) rows

def layoutRows (nodeIds : List α) (edges : List (EdgeObject α)) : List (List α) :=
  let valid := validEdges nodeIds edges
  let dag := dagEdges nodeIds edges
  let layers := layersOf (longestPathLayers nodeIds dag).layer (nodeIds.filter (connected valid))
  let isolated := nodeIds.filter fun id => !connected valid id
  (arrange (members (buildIndex dag .child)) (fun _ => none) layers).filterMap id ++
    if 0 < isolated.length then [isolated] else []

def placeRow (columnGap y : ℚ) (positions : α → Option (ℚ × ℚ)) (row : List α) : α → Option (ℚ × ℚ) :=
  row.zipIdx.foldl (fun positions entry =>
    Function.update positions entry.1 (some (column row entry.2 * columnGap, y))) positions

/-- The positions by id: the map the code returns. -/
def layeredLayout (nodeIds : List α) (edges : List (EdgeObject α)) (options : LayoutOptions) : α → Option (ℚ × ℚ) :=
  let columnGap := options.columnGap.getD 200
  let rowGap := options.rowGap.getD 130
  (layoutRows nodeIds edges).zipIdx.foldl (fun positions entry =>
    placeRow columnGap (entry.2 * rowGap) positions entry.1) fun _ => none

end Layout

/-! ## The edges -/

section Edges
variable {α : Type} [DecidableEq α] {nodeIds : List α} {edges : List (EdgeObject α)}

theorem mem_validEdges {e : EdgeObject α} :
    e ∈ validEdges nodeIds edges ↔ e ∈ edges ∧ e.parent ∈ nodeIds ∧ e.child ∈ nodeIds ∧ e.parent ≠ e.child := by
  simp [validEdges, and_assoc]

theorem connected_iff {valid : List (EdgeObject α)} {id : α} :
    connected valid id = true ↔ ∃ e ∈ valid, id = e.parent ∨ id = e.child := by
  simp [connected]

theorem mem_dagEdges {edge : DependencyEdge α} : edge ∈ dagEdges nodeIds edges ↔
    ∃ e ∈ validEdges nodeIds edges, e ∉ backEdges nodeIds (validEdges nodeIds edges) ∧ e.toDependencyEdge = edge := by
  simp [dagEdges, and_assoc]

theorem mem_nodeIds_of_dag {edge : DependencyEdge α} (h : edge ∈ dagEdges nodeIds edges) :
    edge.parent ∈ nodeIds ∧ edge.child ∈ nodeIds := by
  obtain ⟨e, he, -, rfl⟩ := mem_dagEdges.mp h
  exact ⟨(mem_validEdges.mp he).2.1, (mem_validEdges.mp he).2.2.1⟩

theorem connected_of_dag {edge : DependencyEdge α} (h : edge ∈ dagEdges nodeIds edges) :
    connected (validEdges nodeIds edges) edge.parent = true ∧ connected (validEdges nodeIds edges) edge.child = true := by
  obtain ⟨e, he, -, rfl⟩ := mem_dagEdges.mp h
  exact ⟨connected_iff.mpr ⟨e, he, .inl rfl⟩, connected_iff.mpr ⟨e, he, .inr rfl⟩⟩

/-- The edges out of a node, in the order of the list. -/
theorem mem_children {valid : List (EdgeObject α)} {a : α} {e : EdgeObject α} :
    e ∈ members (groupBy (fun edge : EdgeObject α => edge.parent) id valid) a ↔ e ∈ valid ∧ e.parent = a := by
  simp [Replay.members_groupBy]

/-- What the walk for the back edges leaves behind. -/
theorem backEdges_good (nodeIds : List α) (edges : List (EdgeObject α)) :
    ∃ (s : DepthFirst.Search α (EdgeObject α)) (finish : List α),
      s.back = backEdges nodeIds (validEdges nodeIds edges) ∧
      s.Good (members (groupBy (fun edge : EdgeObject α => edge.parent) id (validEdges nodeIds edges)))
        (fun edge => edge.child) finish ∧ ∀ a ∈ nodeIds, a ∈ finish := by
  have hchild : ∀ a, ∀ e ∈ members (groupBy (fun edge : EdgeObject α => edge.parent) id (validEdges nodeIds edges)) a,
      e.child ∈ nodeIds.toFinset := by
    intro a e he
    rw [List.mem_toFinset]
    exact (mem_validEdges.mp (mem_children.mp he).1).2.2.1
  have hdegree : ∀ a, (members (groupBy (fun edge : EdgeObject α => edge.parent) id (validEdges nodeIds edges)) a).length ≤
      (validEdges nodeIds edges).length := by
    intro a
    rw [Replay.members_groupBy, List.length_map]
    exact List.length_filter_le _ _
  have hfuel : nodeIds.toFinset.card * ((validEdges nodeIds edges).length + 1) ≤
      nodeIds.length * ((validEdges nodeIds edges).length + 1) := Nat.mul_le_mul_right _ (List.toFinset_card_le nodeIds)
  obtain ⟨finish, hgood, hall⟩ := DepthFirst.search_good hchild hdegree hfuel fun a ha => List.mem_toFinset.mpr ha
  exact ⟨_, finish, rfl, hgood, hall⟩

theorem dag_acyclic (nodeIds : List α) (edges : List (EdgeObject α)) : Acyclic (dagEdges nodeIds edges) := by
  obtain ⟨s, finish, hback, hgood, hall⟩ := backEdges_good nodeIds edges
  have hkept : ∀ a b, (⟨a, b⟩ : DependencyEdge α) ∈ dagEdges nodeIds edges →
      DepthFirst.Kept (members (groupBy (fun edge : EdgeObject α => edge.parent) id (validEdges nodeIds edges)))
        (fun edge => edge.child) s.back a b := by
    intro a b hedge
    obtain ⟨e, he, hkept, hends⟩ := mem_dagEdges.mp hedge
    rw [DependencyEdge.mk.injEq] at hends
    exact ⟨e, mem_children.mpr ⟨he, hends.1⟩, hback ▸ hkept, hends.2⟩
  intro a hcycle
  have ha : a ∈ nodeIds := by
    obtain ⟨b, hedge, -⟩ := Relation.TransGen.head'_iff.mp hcycle
    exact (mem_nodeIds_of_dag hedge).1
  exact hgood.closed.kept_irrefl hgood.nodup_finish (hall a ha) (Relation.TransGen.mono hkept a a hcycle)

/-- Of edges without cycles none is removed. -/
theorem backEdges_eq_nil (h : Acyclic ((validEdges nodeIds edges).map EdgeObject.toDependencyEdge)) :
    backEdges nodeIds (validEdges nodeIds edges) = [] := by
  obtain ⟨s, finish, hback, hgood, -⟩ := backEdges_good nodeIds edges
  rw [← hback]
  refine hgood.back_eq_nil fun a hcycle => h a (Relation.TransGen.mono ?_ a a hcycle)
  rintro b c ⟨e, he, rfl⟩
  obtain ⟨hvalid, rfl⟩ := mem_children.mp he
  exact List.mem_map.mpr ⟨e, hvalid, rfl⟩

theorem dagEdges_of_acyclic (h : Acyclic ((validEdges nodeIds edges).map EdgeObject.toDependencyEdge)) :
    dagEdges nodeIds edges = (validEdges nodeIds edges).map EdgeObject.toDependencyEdge := by
  simp [dagEdges, backEdges_eq_nil h]

end Edges

/-! ## The topological pass -/

section Pass
variable {α : Type} [DecidableEq α] {nodeIds : List α} {edges : List (EdgeObject α)}

/-- The counters of the code start with all the edges to each node. -/
theorem length_parents {dag : List (DependencyEdge α)} (hparents : ∀ e ∈ dag, e.parent ∈ nodeIds) (c : α) :
    (members (buildIndex dag .child) c).length =
      Layers.edgesTo (members (buildIndex dag .parent)) nodeIds.toFinset c := by
  unfold Layers.edgesTo buildIndex
  simp only [Replay.members_groupBy, List.length_map, EdgeEnd.other]
  induction dag with
  | nil => simp
  | cons e dag ih =>
      have hone : ∑ p ∈ nodeIds.toFinset, (if e.parent = p ∧ e.child = c then 1 else 0) = if e.child = c then 1 else 0 := by
        have he : e.parent ∈ nodeIds.toFinset := List.mem_toFinset.mpr (hparents e (List.mem_cons_self ..))
        by_cases hc : e.child = c
        · simp [hc, List.mem_toFinset.mp he]
        · simp [hc]
      have hcount : ∀ p, List.count c (((e :: dag).filter fun e => decide (e.get .parent = p)).map fun e => e.get .child) =
          List.count c ((dag.filter fun e => decide (e.get .parent = p)).map fun e => e.get .child) +
            if e.parent = p ∧ e.child = c then 1 else 0 := by
        intro p
        by_cases hp : e.parent = p
        · simp [DependencyEdge.get, hp, List.count_cons]
        · simp [DependencyEdge.get, hp]
      have hrest := ih fun e he => hparents e (List.mem_cons_of_mem _ he)
      rw [Finset.sum_congr rfl fun p _ => hcount p, Finset.sum_add_distrib, hone, ← hrest]
      by_cases hc : e.child = c
      · simp [DependencyEdge.get, hc]
      · simp [DependencyEdge.get, hc]

theorem longestPathLayers_good (hnodup : nodeIds.Nodup) (edges : List (EdgeObject α)) :
    (longestPathLayers nodeIds (dagEdges nodeIds edges)).Good
        (members (buildIndex (dagEdges nodeIds edges) .parent)) nodeIds.toFinset ∧
      (longestPathLayers nodeIds (dagEdges nodeIds edges)).queue = [] := by
  refine Layers.pass_good hnodup (fun a c hc => ?_) fun c => ?_
  · exact List.mem_toFinset.mpr (mem_nodeIds_of_dag (mem_members_parent.mp hc)).2
  · have hlength : (members (buildIndex (dagEdges nodeIds edges) .child) c).length =
        Layers.edgesTo (members (buildIndex (dagEdges nodeIds edges) .parent)) nodeIds.toFinset c :=
      length_parents (fun e he => (mem_nodeIds_of_dag he).1) c
    split
    · exact_mod_cast hlength
    · rename_i hout
      have hzero : Layers.edgesTo (members (buildIndex (dagEdges nodeIds edges) .parent)) nodeIds.toFinset c = 0 :=
        Layers.edgesTo_eq_zero.mpr fun p _ hedge => hout (mem_nodeIds_of_dag (mem_members_parent.mp hedge)).2
      rw [hzero]
      rfl

/-- The pass visits every node once. -/
theorem visited_perm (hnodup : nodeIds.Nodup) (edges : List (EdgeObject α)) :
    (longestPathLayers nodeIds (dagEdges nodeIds edges)).visited.Perm nodeIds := by
  obtain ⟨hgood, hqueue⟩ := longestPathLayers_good hnodup edges
  have hacyclic : ∀ a, ¬ Relation.TransGen (fun a b => b ∈ members (buildIndex (dagEdges nodeIds edges) .parent) a) a a := by
    simp only [mem_members_parent]
    exact dag_acyclic nodeIds edges
  have hvisited := hgood.nodup
  rw [hqueue, List.append_nil] at hvisited
  refine (List.perm_ext_iff_of_nodup hvisited hnodup).mpr fun a => ⟨fun ha => ?_, fun ha => ?_⟩
  · exact List.mem_toFinset.mp (hgood.mem_nodes a (List.mem_append_left _ ha))
  · exact hgood.visited_of_acyclic hqueue hacyclic ha

/-- The layer the pass gives a node. -/
abbrev layerOf (nodeIds : List α) (edges : List (EdgeObject α)) : α → Nat :=
  (longestPathLayers nodeIds (dagEdges nodeIds edges)).layer

theorem isGreatest_layerOf (hnodup : nodeIds.Nodup) (edges : List (EdgeObject α)) (c : α) :
    IsGreatest { k | ∃ a, BreadthFirst.Path (members (buildIndex (dagEdges nodeIds edges) .parent)) k a c }
      (layerOf nodeIds edges c) := by
  refine (longestPathLayers_good hnodup edges).1.isGreatest_layer (fun p c hedge => ?_) c
  exact (visited_perm hnodup edges).mem_iff.mpr (mem_nodeIds_of_dag (mem_members_parent.mp hedge)).1

theorem layerOf_lt (hnodup : nodeIds.Nodup) {a b : α} (h : ⟨a, b⟩ ∈ dagEdges nodeIds edges) :
    layerOf nodeIds edges a < layerOf nodeIds edges b := by
  have hvisited : a ∈ (longestPathLayers nodeIds (dagEdges nodeIds edges)).visited :=
    (visited_perm hnodup edges).mem_iff.mpr (mem_nodeIds_of_dag h).1
  exact (longestPathLayers_good hnodup edges).1.layer_le a hvisited b (mem_members_parent.mpr h)

/-- Below the first layer a node has a parent in the layer before. -/
theorem exists_layer_below (hnodup : nodeIds.Nodup) {c : α} {k : Nat} (h : layerOf nodeIds edges c = k + 1) :
    ∃ p, ⟨p, c⟩ ∈ dagEdges nodeIds edges ∧ layerOf nodeIds edges p = k := by
  rcases (longestPathLayers_good hnodup edges).1.layer_eq c with hzero | ⟨p, -, hedge, heq⟩
  · rw [layerOf, hzero] at h
    exact absurd h (by simp)
  · refine ⟨p, mem_members_parent.mp hedge, ?_⟩
    rw [layerOf, heq] at h
    exact Nat.succ.inj h

end Pass

end IkelyaneMonitor.Topology
