import Mathlib
import IkelyaneMonitor.Topology.Graph

/-!
# The health of the dependency map (`modules/topology/health.ts`)

* `combineHealth`, `isUnhealthy` : the colour of a node from its entity and the incidents open on it;
* `impactedNodes` : the nodes hurt by the failure of others; `mem_impactedNodes`, `impact_is_reachability` : they are the
  nodes from which a failed one is reached.
-/

namespace IkelyaneMonitor.Topology

inductive NodeHealth where
  | up | degraded | down | maintenance | unknown
  deriving DecidableEq, Repr

inductive EntityStatus where
  | UP | DEGRADED | DOWN | MAINTENANCE | UNKNOWN
  deriving DecidableEq, Repr

inductive IncidentSeverity where
  | INFO | WARNING | CRITICAL
  deriving DecidableEq, Repr

def combineHealth (entityStatus : Option EntityStatus) (openIncidentSeverities : List IncidentSeverity) : NodeHealth :=
  if entityStatus = some .MAINTENANCE then .maintenance
  else if entityStatus = some .DOWN ∨ .CRITICAL ∈ openIncidentSeverities then .down
  else if entityStatus = some .DEGRADED ∨ .WARNING ∈ openIncidentSeverities then .degraded
  else if entityStatus = some .UP then .up
  else .unknown

def isUnhealthy (health : NodeHealth) : Bool := health == .down || health == .degraded

/-- Outside of maintenance a node is unhealthy exactly when its entity, or an incident on it, is worse than informative. -/
theorem isUnhealthy_combineHealth (entityStatus : Option EntityStatus) (severities : List IncidentSeverity) :
    isUnhealthy (combineHealth entityStatus severities) = true ↔ entityStatus ≠ some .MAINTENANCE ∧
      (entityStatus = some .DOWN ∨ entityStatus = some .DEGRADED ∨ ∃ s ∈ severities, s ≠ .INFO) := by
  have hworse : (∃ s ∈ severities, s ≠ .INFO) ↔ .CRITICAL ∈ severities ∨ .WARNING ∈ severities := by
    constructor
    · rintro ⟨s, hs, hne⟩
      cases s with
      | INFO => exact absurd rfl hne
      | WARNING => exact .inr hs
      | CRITICAL => exact .inl hs
    · rintro (h | h)
      · exact ⟨_, h, by decide⟩
      · exact ⟨_, h, by decide⟩
  rw [hworse]
  unfold combineHealth
  split_ifs with hmaintenance hdown hdegraded hup <;> simp_all [isUnhealthy]
  rcases hdown with h | h
  · exact .inl h
  · exact .inr (.inr (.inl h))

variable {α : Type} [DecidableEq α]

/-- `Set.add`, the set as a list in the order of insertion. -/
def insertOnce (set : List α) (x : α) : List α := if x ∈ set then set else set ++ [x]

@[simp] theorem mem_insertOnce {set : List α} {x y : α} : y ∈ insertOnce set x ↔ y ∈ set ∨ y = x := by
  unfold insertOnce
  split
  · rename_i hx
    constructor
    · exact .inl
    · intro h
      exact h.elim id fun hy => hy ▸ hx
  · simp

/-- `unhealthy` in its order of insertion. -/
def impactedNodes (edges : List (DependencyEdge α)) (unhealthy : List α) : List α :=
  unhealthy.foldl (fun impacted node =>
    (blastRadius edges node).foldl (fun impacted parent =>
      if parent ∈ unhealthy then impacted else insertOnce impacted parent) impacted) []

theorem mem_foldl_insertOnce {unhealthy impacted parents : List α} {x : α} :
    x ∈ parents.foldl (fun impacted parent => if parent ∈ unhealthy then impacted else insertOnce impacted parent) impacted ↔
      x ∈ impacted ∨ x ∉ unhealthy ∧ x ∈ parents := by
  induction parents generalizing impacted with
  | nil => simp
  | cons parent parents ih =>
      rw [List.foldl_cons, ih, List.mem_cons]
      by_cases hparent : parent ∈ unhealthy
      · have hne : x ∉ unhealthy → x ≠ parent := fun hx h => hx (h ▸ hparent)
        rw [if_pos hparent]
        tauto
      · have hout : x = parent → x ∉ unhealthy := fun h => h ▸ hparent
        rw [if_neg hparent, mem_insertOnce]
        tauto

theorem mem_impactedNodes {edges : List (DependencyEdge α)} {unhealthy : List α} {x : α} :
    x ∈ impactedNodes edges unhealthy ↔ x ∉ unhealthy ∧ ∃ u ∈ unhealthy, x ∈ blastRadius edges u := by
  have hfold : ∀ nodes impacted : List α,
      x ∈ nodes.foldl (fun impacted node =>
        (blastRadius edges node).foldl (fun impacted parent =>
          if parent ∈ unhealthy then impacted else insertOnce impacted parent) impacted) impacted ↔
        x ∈ impacted ∨ x ∉ unhealthy ∧ ∃ u ∈ nodes, x ∈ blastRadius edges u := by
    intro nodes
    induction nodes with
    | nil => simp
    | cons node nodes ih =>
        intro impacted
        rw [List.foldl_cons, ih, mem_foldl_insertOnce, List.exists_mem_cons_iff, or_assoc, ← and_or_left]
  unfold impactedNodes
  rw [hfold]
  simp

theorem nodup_blastRadius (edges : List (DependencyEdge α)) (y : α) : (blastRadius edges y).Nodup := nodup_reach _ _

/-- A failed node hurts what depends on it, and nothing else. -/
theorem impact_is_reachability (edges : List (DependencyEdge α)) (unhealthy : List α) (x y : α) :
    (blastRadius edges y).Nodup ∧ y ∉ blastRadius edges y ∧
      (x ∈ blastRadius edges y ↔ x ≠ y ∧ DependsOn edges x y) ∧
      (x ∈ blastRadius edges y ↔ y ∈ dependenciesOf edges x) ∧
      (x ∈ impactedNodes edges unhealthy ↔ x ∉ unhealthy ∧ ∃ u ∈ unhealthy, DependsOn edges x u) := by
  refine ⟨nodup_blastRadius edges y, fun h => (mem_blastRadius.mp h).1 rfl, mem_blastRadius, ?_, ?_⟩
  · rw [mem_blastRadius, mem_dependenciesOf, ne_comm]
  · rw [mem_impactedNodes]
    refine and_congr_right fun hx => ⟨?_, ?_⟩
    · rintro ⟨u, hu, hblast⟩
      exact ⟨u, hu, (mem_blastRadius.mp hblast).2⟩
    · rintro ⟨u, hu, hpath⟩
      refine ⟨u, hu, mem_blastRadius.mpr ⟨?_, hpath⟩⟩
      intro hxu
      exact hx (hxu ▸ hu)

end IkelyaneMonitor.Topology
