import Mathlib.Data.Fintype.Card
import Mathlib.Data.Fintype.EquivFin
import Mathlib.Data.Fintype.Sets
import Mathlib.Order.WellFounded
import IkelyaneMonitor.Graph.BreadthFirst
import IkelyaneMonitor.Replay.Upsert

/-!
# The dependency map (`modules/topology/graph.ts`)

* `DependencyEdge`, `buildIndex`, `reach` : the edges, the neighbours of each node, the walk over them;
* `blastRadius`, `dependenciesOf`, `rootCauseCandidates` : what the map says about a failed node, and about many;
* `DependsOn` : what an edge, or a path of them, makes of two nodes; `mem_blastRadius`, `mem_dependenciesOf`,
  `mem_rootCauseCandidates` : the three functions in its terms.

Texts are compared as `localeCompare` does on the ids of the database (`Collation`).
-/

namespace IkelyaneMonitor.Topology
open BreadthFirst (Reaches)
open Replay (groupBy members members_groupBy members_subset)

/-- The parent depends on the child. -/
structure DependencyEdge (α : Type) where
  parent : α
  child : α
  deriving DecidableEq, Repr

inductive EdgeEnd where
  | parent | child
  deriving DecidableEq, Repr

def EdgeEnd.other : EdgeEnd → EdgeEnd
  | .parent => .child
  | .child => .parent

def DependencyEdge.get {α : Type} (edge : DependencyEdge α) : EdgeEnd → α
  | .parent => edge.parent
  | .child => edge.child

/-- `localeCompare`: a total order of the texts compared. -/
structure Collation (α : Type) where
  le : α → α → Bool
  total : ∀ a b, (le a b || le b a) = true
  trans : ∀ a b c, le a b = true → le b c = true → le a c = true
  antisymm : ∀ a b, le a b = true → le b a = true → a = b

/-- `a` depends on `b`, directly or through others. -/
def DependsOn {α : Type} (edges : List (DependencyEdge α)) : α → α → Prop := Relation.TransGen fun a b => ⟨a, b⟩ ∈ edges

def Acyclic {α : Type} (edges : List (DependencyEdge α)) : Prop := ∀ a, ¬ DependsOn edges a a

theorem DependsOn.trans {α : Type} {edges : List (DependencyEdge α)} {a b c : α} (hab : DependsOn edges a b)
    (hbc : DependsOn edges b c) : DependsOn edges a c := Relation.TransGen.trans hab hbc

variable {α : Type} [DecidableEq α]

def buildIndex (edges : List (DependencyEdge α)) (start : EdgeEnd) : List (α × List α) :=
  groupBy (fun edge => edge.get start) (fun edge => edge.get start.other) edges

/-- A node is queued once: `start`, and what the index leads to. -/
def walk (start : α) (next : List (α × List α)) : BreadthFirst.Walk α :=
  BreadthFirst.walkFrom (members next) start ((next.flatMap Prod.snd).length + 1)

def reach (start : α) (next : List (α × List α)) : List α := (walk start next).order

def blastRadius (edges : List (DependencyEdge α)) (failedNodeId : α) : List α :=
  reach failedNodeId (buildIndex edges .child)

def dependenciesOf (edges : List (DependencyEdge α)) (nodeId : α) : List α := reach nodeId (buildIndex edges .parent)

/-- The order of the candidates: largest blast radius first, then `localeCompare`. -/
def candidateLe (localeCompare : Collation α) (a b : α × Nat) : Bool :=
  decide (b.2 < a.2) || (decide (b.2 = a.2) && localeCompare.le a.1 b.1)

/-- `unhealthy` in its order of insertion. -/
def rootCauseCandidates (localeCompare : Collation α) (edges : List (DependencyEdge α)) (unhealthy : List α) : List α :=
  let dependencies := buildIndex edges .parent
  (((unhealthy.filter fun node => !(members dependencies node).any fun dep => decide (dep ∈ unhealthy)).map
    fun node => (node, (blastRadius edges node).length)).mergeSort (candidateLe localeCompare)).map Prod.fst

/-! ## The index -/

theorem mem_members {edges : List (DependencyEdge α)} {start : EdgeEnd} {a b : α} :
    b ∈ members (buildIndex edges start) a ↔ ∃ edge ∈ edges, edge.get start = a ∧ edge.get start.other = b := by
  simp [buildIndex, members_groupBy, and_assoc]

theorem mem_members_parent {edges : List (DependencyEdge α)} {a b : α} :
    b ∈ members (buildIndex edges .parent) a ↔ ⟨a, b⟩ ∈ edges := by
  rw [mem_members]
  constructor
  · rintro ⟨edge, hedge, rfl, rfl⟩
    exact hedge
  · exact fun h => ⟨_, h, rfl, rfl⟩

theorem mem_members_child {edges : List (DependencyEdge α)} {a b : α} :
    b ∈ members (buildIndex edges .child) a ↔ ⟨b, a⟩ ∈ edges := by
  rw [mem_members]
  constructor
  · rintro ⟨edge, hedge, rfl, rfl⟩
    exact hedge
  · exact fun h => ⟨_, h, rfl, rfl⟩

/-! ## The walk -/

theorem reach_eq (start : α) (next : List (α × List α)) :
    reach start next = BreadthFirst.found (members next) start (next.flatMap Prod.snd).length :=
  BreadthFirst.reach_eq (members_subset next) (Nat.lt_succ_self _)

theorem mem_reach {start node : α} {next : List (α × List α)} :
    node ∈ reach start next ↔ node ≠ start ∧ Reaches (members next) start node :=
  BreadthFirst.mem_reach (members_subset next) (Nat.lt_succ_self _)

theorem nodup_reach (start : α) (next : List (α × List α)) : (reach start next).Nodup := by
  rw [reach_eq]
  exact BreadthFirst.nodup_found _

/-! ## Dependencies -/

section Dependencies
variable {edges : List (DependencyEdge α)} {a b : α}

theorem reaches_parent : Reaches (members (buildIndex edges .parent)) a b ↔ DependsOn edges a b := by
  unfold DependsOn Reaches
  simp only [mem_members_parent]

theorem reaches_child : Reaches (members (buildIndex edges .child)) a b ↔ DependsOn edges b a := by
  unfold DependsOn Reaches
  simp only [mem_members_child]
  exact Relation.transGen_swap

theorem mem_dependenciesOf : b ∈ dependenciesOf edges a ↔ b ≠ a ∧ DependsOn edges a b := by
  unfold dependenciesOf
  rw [mem_reach, reaches_parent]

theorem mem_blastRadius : b ∈ blastRadius edges a ↔ b ≠ a ∧ DependsOn edges b a := by
  unfold blastRadius
  rw [mem_reach, reaches_child]

theorem mem_rootCauseCandidates {localeCompare : Collation α} {unhealthy : List α} :
    a ∈ rootCauseCandidates localeCompare edges unhealthy ↔ a ∈ unhealthy ∧ ∀ d, ⟨a, d⟩ ∈ edges → d ∉ unhealthy := by
  unfold rootCauseCandidates
  simp only [List.mem_map, List.mem_mergeSort, List.mem_filter, Bool.not_eq_true', List.any_eq_false, decide_eq_true_eq,
    mem_members_parent]
  constructor
  · rintro ⟨_, ⟨node, hnode, rfl⟩, rfl⟩
    exact hnode
  · exact fun h => ⟨_, ⟨a, h, rfl⟩, rfl⟩

/-- Without cycles, from any node of a list some node of the list is reached that depends on no other of it. -/
theorem Acyclic.exists_first (h : Acyclic edges) {nodes : List α} (ha : a ∈ nodes) :
    ∃ b ∈ nodes, (b = a ∨ DependsOn edges a b) ∧ ∀ d ∈ nodes, ¬ DependsOn edges b d := by
  let needs : { x // x ∈ nodes } → { x // x ∈ nodes } → Prop := fun x y => DependsOn edges y.1 x.1
  have : IsTrans _ needs := ⟨fun _ _ _ hxy hyz => hyz.trans hxy⟩
  have : Std.Irrefl needs := ⟨fun x => h x.1⟩
  have hwf : WellFounded needs := Finite.wellFounded_of_trans_of_irrefl needs
  obtain ⟨b, hb, hleast⟩ := hwf.has_min { x | x.1 = a ∨ DependsOn edges a x.1 } ⟨⟨a, ha⟩, .inl rfl⟩
  refine ⟨b.1, b.2, hb, fun d hd hbd => hleast ⟨d, hd⟩ (.inr ?_) hbd⟩
  rcases hb with hba | hab
  · rw [← hba]
    exact hbd
  · exact hab.trans hbd

end Dependencies

end IkelyaneMonitor.Topology
