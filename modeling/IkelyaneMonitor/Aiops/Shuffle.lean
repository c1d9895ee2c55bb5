import Mathlib
import IkelyaneMonitor.Aiops.Signature
import IkelyaneMonitor.Aiops.Verdict

/-!
# The order of what the database returns

* `Shuffled` : the same incidents, nodes and edges in another order; what a situation says of a single node stays;
* `OrderFree` : no two failing nodes are equally far while the list has room, upstream only where no candidate is left;
* `signature_shuffle_iff` : just then the signature does not depend on the order, and a refresh of an unchanged situation
  writes nothing.
-/

namespace IkelyaneMonitor.Aiops
open IkelyaneMonitor.Topology
open Replay (members members_groupBy)

namespace Situation

/-- The same situation with its lists in another order. -/
structure Shuffled (s' s : Situation) : Prop where
  incident : s'.incident = s.incident
  others : s'.others.Perm s.others
  nodes : s'.topology.nodes.Perm s.topology.nodes
  edges : s'.topology.edges.Perm s.topology.edges

namespace Shuffled
variable {s' s : Situation} {self : RcaNode} {node : Cuid} (h : Shuffled s' s)
include h

theorem sitsOn (incident : RcaIncident) (n : RcaNode) :
    SitsOn s'.topology incident n ↔ SitsOn s.topology incident n := by
  unfold SitsOn
  rw [h.nodes.mem_iff]

theorem nodeOf (incident : RcaIncident) : s'.topology.nodeOf incident.sourceId = s.topology.nodeOf incident.sourceId := by
  ext n
  rw [RcaTopology.nodeOf_eq_some, RcaTopology.nodeOf_eq_some, h.sitsOn]

theorem labelOf (node : Cuid) : s'.topology.labelOf node = s.topology.labelOf node := by
  have hkeys : ∀ topology : RcaTopology, ((topology.nodes.map fun n => (n.id, n.label)).map Prod.fst).Nodup := by
    intro topology
    rw [List.map_map]
    exact topology.ids_nodup
  unfold RcaTopology.labelOf
  congr 1
  ext label
  rw [mapGet_eq_some (hkeys _), mapGet_eq_some (hkeys _), (h.nodes.map _).mem_iff]

theorem self_eq : s'.self = s.self := by
  unfold self
  rw [h.incident]
  exact h.nodeOf s.incident

theorem counts_eq : s'.counts = s.counts := by
  unfold counts inWindow
  rw [h.incident]

theorem peers_perm : s'.peers.Perm s.peers := by
  unfold peers
  rw [h.incident]
  exact h.others.filter _

theorem placed_perm : s'.placed.Perm s.placed := by
  unfold placed
  rw [h.counts_eq]
  simp only [h.nodeOf]
  exact (h.peers_perm.filter _).filterMap _

theorem members_perm (node : Cuid) : (members s'.incidentsByNode node).Perm (members s.incidentsByNode node) := by
  unfold incidentsByNode
  rw [members_groupBy, members_groupBy]
  exact (h.placed_perm.filter _).map _

theorem mem_keys_iff (node : Cuid) :
    node ∈ s'.incidentsByNode.map Prod.fst ↔ node ∈ s.incidentsByNode.map Prod.fst := by
  unfold incidentsByNode
  rw [Replay.mem_keys_groupBy, Replay.mem_keys_groupBy]
  simp only [h.placed_perm.mem_iff]

theorem unhealthy_perm (self : RcaNode) : (s'.unhealthy self).Perm (s.unhealthy self) := by
  refine (List.perm_ext_iff_of_nodup (nodup_unhealthy s' self) (nodup_unhealthy s self)).mpr fun node => ?_
  rw [mem_unhealthy, mem_unhealthy, h.mem_keys_iff]

theorem failingUpstream_perm : s'.failingUpstream.Perm s.failingUpstream := by
  unfold failingUpstream
  rw [h.self_eq]
  cases s.self with
  | none => exact List.Perm.refl _
  | some self =>
      dsimp only
      simp only [(h.unhealthy_perm self).mem_iff]
      exact (reach_perm h.edges .parent self.id).filter _

theorem radius_perm : s'.radius.Perm s.radius := by
  unfold radius
  rw [h.self_eq]
  cases s.self with
  | none => exact List.Perm.refl _
  | some self => exact reach_perm h.edges .child self.id

theorem failingDependents_perm : s'.failingDependents.Perm s.failingDependents := by
  unfold failingDependents
  rw [h.self_eq]
  cases s.self with
  | none => exact List.Perm.refl _
  | some self =>
      dsimp only
      simp only [(h.unhealthy_perm self).mem_iff]
      exact h.radius_perm.filter _

theorem verdict_eq : s'.verdict = s.verdict := by
  have hnil : ∀ {l l' : List Cuid}, l'.Perm l → (l' ≠ [] ↔ l ≠ []) := fun hperm => not_congr ⟨fun hl => by
    rw [hl] at hperm
    exact List.nil_perm.mp hperm, fun hl => by
    rw [hl] at hperm
    exact List.perm_nil.mp hperm⟩
  unfold verdict
  rw [h.self_eq]
  simp only [hnil h.failingUpstream_perm, hnil h.failingDependents_perm]

theorem roots_eq (localeCompare : Collation Cuid) : s'.roots localeCompare = s.roots localeCompare := by
  unfold roots
  rw [h.self_eq]
  cases s.self with
  | none => rfl
  | some self =>
      dsimp only
      rw [rootCauseCandidates_perm localeCompare h.edges (h.unhealthy_perm self)]
      simp only [h.failingUpstream_perm.mem_iff]

/-- What is compared of a node does not depend on the order. -/
theorem entry_eq (localeCompare : Collation Cuid) (node : Cuid) :
    entry (s'.nodeRef localeCompare node) = entry (s.nodeRef localeCompare node) := by
  refine Prod.ext (h.labelOf node) (ids_eq_iff.mpr ?_)
  have hids : ∀ s : Situation, ((s.nodeRef localeCompare node).incidents.map RcaIncidentRef.incidentId).Perm
      ((members s.incidentsByNode node).map RcaIncident.id) := by
    intro s
    have hrefs := (sortRefs_perm localeCompare s (members s.incidentsByNode node)).map RcaIncidentRef.incidentId
    rwa [List.map_map] at hrefs
  exact (hids s').trans (((h.members_perm node).map _).trans (hids s).symm)

/-- Sorted references have one order, up to references that agree on the offset and the id. -/
theorem sortRefs_ids (localeCompare : Collation Cuid) {l l' : List RcaIncident} (hperm : l'.Perm l) (n : Nat) :
    ids ((s'.sortRefs localeCompare l').take n) = ids ((s.sortRefs localeCompare l).take n) := by
  let key : RcaIncidentRef → Int × Cuid := fun r => (|r.offsetSec|, r.incidentId)
  have hsort : ∀ refs : List RcaIncidentRef, (refs.mergeSort (byOffset localeCompare)).map RcaIncidentRef.incidentId =
      ((refs.map key).mergeSort localeCompare.lex.le).map Prod.snd := by
    intro refs
    have hkeys : (refs.mergeSort (byOffset localeCompare)).map key = (refs.map key).mergeSort localeCompare.lex.le :=
      List.map_mergeSort fun _ _ _ _ => rfl
    rw [← hkeys, List.map_map]
    rfl
  have hrefs : (l'.map fun other => ref other s'.incident).Perm (l.map fun other => ref other s.incident) := by
    rw [h.incident]
    exact hperm.map _
  refine ids_eq_iff.mpr (List.Perm.of_eq ?_)
  rw [List.map_take, List.map_take]
  unfold sortRefs
  rw [hsort, hsort, Collation.mergeSort_eq _ (hrefs.map key)]

theorem sameSource_ids (localeCompare : Collation Cuid) (n : Nat) :
    ids ((s'.sameSource localeCompare).take n) = ids ((s.sameSource localeCompare).take n) := by
  refine h.sortRefs_ids localeCompare ?_ n
  rw [h.incident, h.counts_eq]
  exact h.peers_perm.filter _

theorem mem_linkedIds_iff (localeCompare : Collation Cuid) (id : Cuid) :
    id ∈ s'.linkedIds localeCompare ↔ id ∈ s.linkedIds localeCompare := by
  rw [mem_linkedIds, mem_linkedIds, h.incident]
  simp only [h.others.mem_iff, h.failingUpstream_perm.mem_iff, h.failingDependents_perm.mem_iff,
    (h.members_perm _).mem_iff]

theorem inWindow_eq : s'.inWindow = s.inWindow := by
  unfold inWindow
  rw [h.incident]

theorem correlated_ids (localeCompare : Collation Cuid) (n : Nat) :
    ids ((s'.correlated localeCompare).take n) = ids ((s.correlated localeCompare).take n) := by
  refine h.sortRefs_ids localeCompare ?_ n
  rw [h.inWindow_eq]
  simp only [h.mem_linkedIds_iff]
  exact h.peers_perm.filter _

theorem firstToStart_eq : s'.firstToStart = s.firstToStart := by
  unfold firstToStart
  rw [h.inWindow_eq, h.incident, Bool.eq_iff_iff, List.all_eq_true, List.all_eq_true]
  simp only [(h.peers_perm.filter _).mem_iff]

/-- Only the order of the failing nodes can tell two orders of the input apart. -/
theorem signature_eq (localeCompare : Collation Cuid) :
    signature (analyzeIncident localeCompare s'.incident s'.others s'.topology) =
        signature (analyzeIncident localeCompare s.incident s.others s.topology) ↔
      ((s'.rootCauseNodes localeCompare).take maxListed).map (fun n => entry (s.nodeRef localeCompare n)) =
          ((s.rootCauseNodes localeCompare).take maxListed).map (fun n => entry (s.nodeRef localeCompare n)) ∧
        (s'.failingDependents.take maxListed).map (fun n => entry (s.nodeRef localeCompare n)) =
          (s.failingDependents.take maxListed).map fun n => entry (s.nodeRef localeCompare n) := by
  have hentries : ∀ (s₁ : Situation) (nodes : List Cuid),
      ((nodes.map (s₁.nodeRef localeCompare)).take maxListed).map entry =
        (nodes.take maxListed).map fun n => entry (s₁.nodeRef localeCompare n) := by
    intro s₁ nodes
    rw [← List.map_take, List.map_map]
    rfl
  rw [signature_eq_iff]
  simp only [analyzeIncident, rootCauses, impacted, hentries, h.entry_eq localeCompare]
  have hverdict := h.verdict_eq
  have hself := h.self_eq
  have hradius := h.radius_perm.length_eq
  have hsame := h.sameSource_ids localeCompare maxListed
  have hcorrelated := h.correlated_ids localeCompare maxListed
  have hfirst := h.firstToStart_eq
  simp only [hverdict, hself, hradius, hsame, hcorrelated, hfirst, true_and, and_true]

end Shuffled

/-! ## The failing nodes -/

section Failing
variable (s : Situation)

/-- Some incident that counts is on the node. -/
def failing (node : Cuid) : Bool := decide (node ∈ s.incidentsByNode.map Prod.fst)

/-- No two failing dependents are equally far while fewer than ten are nearer; where each failing dependency has an
unhealthy one of its own, so that none is a candidate, the same of the failing dependencies. -/
def OrderFree : Prop :=
  ∀ self, SitsOn s.topology s.incident self →
    OneAtEachDistance s.topology.edges .child self.id s.failing maxListed ∧
    ((∀ node, node ≠ self.id → s.Fails node → DependsOn s.topology.edges self.id node →
        ∃ d, ⟨node, d⟩ ∈ s.topology.edges ∧ (d = self.id ∨ s.Fails d)) →
      OneAtEachDistance s.topology.edges .parent self.id s.failing maxListed)

variable {s} {self : RcaNode} {node : Cuid}

theorem failingDependents_eq (hself : s.self = some self) :
    s.failingDependents = (reach self.id (buildIndex s.topology.edges .child)).filter s.failing := by
  unfold failingDependents radius
  rw [hself]
  refine List.filter_congr fun node hnode => ?_
  have hne : node ≠ self.id := (Topology.mem_reach.mp hnode).1
  rw [Bool.eq_iff_iff, decide_eq_true_eq, mem_unhealthy, failing, decide_eq_true_eq]
  exact ⟨fun h => h.resolve_left hne, .inr⟩

theorem failingUpstream_eq (hself : s.self = some self) :
    s.failingUpstream = (reach self.id (buildIndex s.topology.edges .parent)).filter s.failing := by
  unfold failingUpstream
  rw [hself]
  refine List.filter_congr fun node hnode => ?_
  have hne : node ≠ self.id := (Topology.mem_reach.mp hnode).1
  rw [Bool.eq_iff_iff, decide_eq_true_eq, mem_unhealthy, failing, decide_eq_true_eq]
  exact ⟨fun h => h.1.resolve_left hne, fun h => ⟨.inr h, hne⟩⟩

theorem roots_eq_nil (localeCompare : Collation Cuid) (hself : s.self = some self) :
    s.roots localeCompare = [] ↔
      ∀ node, node ≠ self.id → s.Fails node → DependsOn s.topology.edges self.id node →
        ∃ d, ⟨node, d⟩ ∈ s.topology.edges ∧ (d = self.id ∨ s.Fails d) := by
  unfold roots
  rw [hself, List.filter_eq_nil_iff]
  simp only [decide_eq_true_eq, mem_rootCauseCandidates, mem_failingUpstream hself, mem_unhealthy, mem_keys]
  constructor
  · intro h node hne hfails hdep
    by_contra hnone
    exact h node ⟨.inr hfails, fun d hd hbad => hnone ⟨d, hd, hbad⟩⟩ ⟨hne, hfails, hdep⟩
  · rintro h node ⟨-, hdirect⟩ ⟨hne, hfails, hdep⟩
    obtain ⟨d, hd, hbad⟩ := h node hne hfails hdep
    exact hdirect d hd hbad

/-- Failing nodes have incidents of their own, so what is compared of them tells them apart. -/
theorem entry_inj (localeCompare : Collation Cuid) (hids : ∀ a ∈ s.others, ∀ b ∈ s.others, a.id = b.id → a = b)
    {x y : Cuid} (hx : s.Fails x) (h : entry (s.nodeRef localeCompare x) = entry (s.nodeRef localeCompare y)) : x = y := by
  have hperm := ids_eq_iff.mp (Prod.mk.inj h).2
  have hmem : ∀ node id, id ∈ (s.nodeRef localeCompare node).incidents.map RcaIncidentRef.incidentId ↔
      ∃ o ∈ members s.incidentsByNode node, o.id = id := fun _ _ => mem_ids_sortRefs
  obtain ⟨o, ho, hrel, n, hn, rfl⟩ := hx
  have hother := (hperm.mem_iff.mp ((hmem n.id o.id).mpr ⟨o, mem_incidentsOf.mpr ⟨ho, hrel, n, hn, rfl⟩, rfl⟩))
  obtain ⟨o', ho', hid⟩ := (hmem y o.id).mp hother
  obtain ⟨hmem', -, n', hn', rfl⟩ := mem_incidentsOf.mp ho'
  obtain rfl := hids o' hmem' o ho hid
  exact congrArg RcaNode.id (hn.unique hn')

theorem take_map_entry_eq_iff (localeCompare : Collation Cuid)
    (hids : ∀ a ∈ s.others, ∀ b ∈ s.others, a.id = b.id → a = b) {l l' : List Cuid} (hl : ∀ x ∈ l', s.Fails x) (n : Nat) :
    (l'.take n).map (fun n => entry (s.nodeRef localeCompare n)) =
      (l.take n).map (fun n => entry (s.nodeRef localeCompare n)) ↔ l'.take n = l.take n := by
  refine ⟨fun h => ?_, fun h => by rw [h]⟩
  have hinj : ∀ {l l' : List Cuid}, (∀ x ∈ l', s.Fails x) →
      l'.map (fun n => entry (s.nodeRef localeCompare n)) = l.map (fun n => entry (s.nodeRef localeCompare n)) → l' = l := by
    intro l l' hl h
    induction l' generalizing l with
    | nil => exact (List.map_eq_nil_iff.mp h.symm).symm
    | cons x l' ih =>
        cases l with
        | nil => cases h
        | cons y l =>
            obtain ⟨hxy, htail⟩ := List.cons.inj h
            rw [entry_inj localeCompare hids (hl x List.mem_cons_self) hxy,
              ih (fun z hz => hl z (List.mem_cons_of_mem _ hz)) htail]
  exact hinj (fun x hx => hl x (List.mem_of_mem_take hx)) h

end Failing

/-- The lists of failing nodes do not depend on the order just when no two of them compete for a place. -/
theorem forall_shuffled_iff (localeCompare : Collation Cuid) (s : Situation) :
    (∀ s', Shuffled s' s →
      (s'.rootCauseNodes localeCompare).take maxListed = (s.rootCauseNodes localeCompare).take maxListed ∧
        s'.failingDependents.take maxListed = s.failingDependents.take maxListed) ↔ s.OrderFree := by
  have hfailing : ∀ {s'}, Shuffled s' s → s'.failing = s.failing := by
    intro s' h
    funext node
    unfold failing
    simp only [h.mem_keys_iff]
  constructor
  · intro hall self hsits
    have hself := self_eq_some.mpr hsits
    have hshuffle : ∀ edges', edges'.Perm s.topology.edges →
        Shuffled ⟨s.incident, s.others, { s.topology with edges := edges' }⟩ s :=
      fun edges' hperm => ⟨rfl, List.Perm.refl _, List.Perm.refl _, hperm⟩
    refine ⟨take_order_iff.mp fun edges' hperm => ?_, fun hnone => take_order_iff.mp fun edges' hperm => ?_⟩
    · have h := hshuffle edges' hperm
      have htake := (hall _ h).2
      rwa [failingDependents_eq (h.self_eq.trans hself), failingDependents_eq hself, hfailing h] at htake
    · have h := hshuffle edges' hperm
      have htake := (hall _ h).1
      have hroots := (roots_eq_nil localeCompare hself).mpr hnone
      unfold rootCauseNodes at htake
      rw [if_neg (not_not.mpr ((h.roots_eq localeCompare).trans hroots)), if_neg (not_not.mpr hroots),
        failingUpstream_eq (h.self_eq.trans hself), failingUpstream_eq hself, hfailing h] at htake
      exact htake
  · intro hfree s' h
    cases hself : s.self with
    | none =>
        have hself' := h.self_eq.trans hself
        have hnil : ∀ s : Situation, s.self = none → s.rootCauseNodes localeCompare = [] := fun s hs =>
          (rootCauseNodes_eq_nil localeCompare s).mpr (failingUpstream_of_none hs)
        rw [hnil s hself, hnil s' hself', failingDependents_of_none hself, failingDependents_of_none hself']
        exact ⟨rfl, rfl⟩
    | some self =>
        have hself' := h.self_eq.trans hself
        obtain ⟨hdown, hup⟩ := hfree self (self_eq_some.mp hself)
        constructor
        · unfold rootCauseNodes
          rw [h.roots_eq localeCompare]
          split_ifs with hroots
          · rfl
          · have hone := hup ((roots_eq_nil localeCompare hself).mp (not_not.mp hroots))
            rw [failingUpstream_eq hself', failingUpstream_eq hself, hfailing h]
            exact take_order_iff.mpr hone _ h.edges
        · rw [failingDependents_eq hself', failingDependents_eq hself, hfailing h]
          exact take_order_iff.mpr hdown _ h.edges

end Situation

/-- The signature does not depend on the order of the other incidents, of the nodes and of the edges, and a refresh of an
unchanged situation writes nothing, just when no two failing nodes compete for a place. -/
theorem signature_shuffle_iff (localeCompare : Collation Cuid) (incident : RcaIncident) (others : List RcaIncident)
    (topology : RcaTopology) (hids : ∀ a ∈ others, ∀ b ∈ others, a.id = b.id → a = b) :
    ((∀ (others' : List RcaIncident) (topology' : RcaTopology), others'.Perm others →
        topology'.nodes.Perm topology.nodes → topology'.edges.Perm topology.edges →
        signature (analyzeIncident localeCompare incident others' topology') =
          signature (analyzeIncident localeCompare incident others topology)) ↔
      (Situation.mk incident others topology).OrderFree) ∧
    ((∀ (row : RcaRow) (others' : List RcaIncident) (topology' : RcaTopology) (llmEnabled : Bool) (now : Int),
        row.rcaFindings = some (analyzeIncident localeCompare incident others topology) → others'.Perm others →
        topology'.nodes.Perm topology.nodes → topology'.edges.Perm topology.edges →
        refreshIncidentRca localeCompare llmEnabled incident row others' topology' now false = (row, [], false)) ↔
      (Situation.mk incident others topology).OrderFree) := by
  have hsignature : (∀ (others' : List RcaIncident) (topology' : RcaTopology), others'.Perm others →
      topology'.nodes.Perm topology.nodes → topology'.edges.Perm topology.edges →
      signature (analyzeIncident localeCompare incident others' topology') =
        signature (analyzeIncident localeCompare incident others topology)) ↔
      (Situation.mk incident others topology).OrderFree := by
    rw [← Situation.forall_shuffled_iff localeCompare]
    have hone : ∀ s', Situation.Shuffled s' ⟨incident, others, topology⟩ →
        (signature (analyzeIncident localeCompare s'.incident s'.others s'.topology) =
            signature (analyzeIncident localeCompare incident others topology) ↔
          (s'.rootCauseNodes localeCompare).take maxListed =
              ((Situation.mk incident others topology).rootCauseNodes localeCompare).take maxListed ∧
            s'.failingDependents.take maxListed =
              (Situation.mk incident others topology).failingDependents.take maxListed) := by
      intro s' h
      have hfails : ∀ x ∈ s'.failingUpstream, (Situation.mk incident others topology).Fails x := by
        intro x hx
        cases hself : (Situation.mk incident others topology).self with
        | none => simp [Situation.failingUpstream_of_none (h.self_eq.trans hself)] at hx
        | some self => exact ((Situation.mem_failingUpstream hself).mp (h.failingUpstream_perm.mem_iff.mp hx)).2.1
      have hfails' : ∀ x ∈ s'.failingDependents, (Situation.mk incident others topology).Fails x := by
        intro x hx
        cases hself : (Situation.mk incident others topology).self with
        | none => simp [Situation.failingDependents_of_none (h.self_eq.trans hself)] at hx
        | some self => exact ((Situation.mem_failingDependents hself).mp (h.failingDependents_perm.mem_iff.mp hx)).2.1
      refine (h.signature_eq localeCompare).trans (and_congr ?_ ?_)
      · exact Situation.take_map_entry_eq_iff localeCompare hids
          (fun x hx => hfails x (Situation.rootCauseNodes_subset localeCompare s' hx)) maxListed
      · exact Situation.take_map_entry_eq_iff localeCompare hids hfails' maxListed
    constructor
    · intro hall s' h
      refine (hone s' h).mp ?_
      rw [h.incident]
      exact hall s'.others s'.topology h.others h.nodes h.edges
    · intro hall others' topology' hothers hnodes hedges
      have h : Situation.Shuffled ⟨incident, others', topology'⟩ ⟨incident, others, topology⟩ :=
        ⟨rfl, hothers, hnodes, hedges⟩
      exact (hone _ h).mpr (hall _ h)
  refine ⟨hsignature, ?_⟩
  rw [← hsignature]
  constructor
  · intro hall others' topology' hothers hnodes hedges
    have hrefresh := hall (.refreshed (analyzeIncident localeCompare incident others topology) false 0) others' topology'
      false 0 rfl hothers hnodes hedges
    have hsame := refreshIncidentRca_eq.mp (congrArg (fun r => r.2.2) hrefresh)
    obtain ⟨p, hp, -, hsig⟩ := unchanged_iff.mp hsame
    obtain rfl := Option.some.inj hp
    exact hsig.symm
  · intro hall row others' topology' llmEnabled now hrow hothers hnodes hedges
    have hsame : unchanged row.rcaFindings (analyzeIncident localeCompare incident others' topology') = true :=
      unchanged_iff.mpr ⟨_, hrow, rfl, (hall others' topology' hothers hnodes hedges).symm⟩
    unfold refreshIncidentRca
    simp [hsame]

section Witness

/-- The same map, its nodes in another order. -/
def dbUnderWeb : RcaTopology where
  nodes := [dbNode, webNode]
  edges := webOnDb.edges
  ids_nodup := by decide
  refIds_nodup := by decide

theorem signature_shuffle_iff_dbUnderWeb :
    signature (analyzeIncident Cuid.codeUnits dbDown [webDown] dbUnderWeb) =
      signature (analyzeIncident Cuid.codeUnits dbDown [webDown] webOnDb) := by
  refine (signature_shuffle_iff Cuid.codeUnits dbDown [webDown] webOnDb (by simp)).1.mpr (fun self hsits => ?_) [webDown]
    dbUnderWeb (List.Perm.refl _) (by decide) (List.Perm.refl _)
  have honly : ∀ x, (Situation.mk dbDown [webDown] webOnDb).failing x = true → x = webNode.id := by
    intro x hx
    have hkeys : (Situation.mk dbDown [webDown] webOnDb).incidentsByNode.map Prod.fst = [webNode.id] := by decide
    rw [Situation.failing, hkeys, decide_eq_true_eq, List.mem_singleton] at hx
    exact hx
  refine ⟨fun k x y _ _ hx hy _ _ _ => ?_, fun _ k x y _ _ hx hy _ _ _ => ?_⟩ <;> rw [honly x hx, honly y hy]

/-- Two services on one database, the edges in the order given. -/
def twoOnDb (edges : List (DependencyEdge Cuid)) : RcaTopology where
  nodes := [webNode, ⟨Cuid.ofLetter 'p' isLower_p, some "api", "API"⟩, dbNode]
  edges := edges
  ids_nodup := by decide
  refIds_nodup := by decide

def webEdge : DependencyEdge Cuid := ⟨webNode.id, dbNode.id⟩
def apiEdge : DependencyEdge Cuid := ⟨Cuid.ofLetter 'p' isLower_p, dbNode.id⟩
def apiDown : RcaIncident := incidentOn (Cuid.ofLetter 'c' isLower_c) .open "api"

/-- Both services fail with the database: the order of the edges is the one of `impacted`. -/
theorem signature_depends_on_order :
    signature (analyzeIncident Cuid.codeUnits dbDown [webDown, apiDown] (twoOnDb [apiEdge, webEdge])) ≠
        signature (analyzeIncident Cuid.codeUnits dbDown [webDown, apiDown] (twoOnDb [webEdge, apiEdge])) ∧
      (refreshIncidentRca Cuid.codeUnits false dbDown
        (.refreshed (analyzeIncident Cuid.codeUnits dbDown [webDown, apiDown] (twoOnDb [webEdge, apiEdge])) false 0)
        [webDown, apiDown] (twoOnDb [apiEdge, webEdge]) 1 false).2.2 = true := by
  have h : Situation.Shuffled ⟨dbDown, [webDown, apiDown], twoOnDb [apiEdge, webEdge]⟩
      ⟨dbDown, [webDown, apiDown], twoOnDb [webEdge, apiEdge]⟩ :=
    ⟨rfl, List.Perm.refl _, List.Perm.refl _, List.Perm.swap _ _ _⟩
  have hdiffer : signature (analyzeIncident Cuid.codeUnits dbDown [webDown, apiDown] (twoOnDb [apiEdge, webEdge])) ≠
      signature (analyzeIncident Cuid.codeUnits dbDown [webDown, apiDown] (twoOnDb [webEdge, apiEdge])) := by
    intro heq
    have hnodes := ((h.signature_eq Cuid.codeUnits).mp heq).2
    rw [Situation.take_map_entry_eq_iff Cuid.codeUnits (by decide) fun x hx => ?_] at hnodes
    · exact absurd hnodes (by decide)
    · have hself : (Situation.mk dbDown [webDown, apiDown] (twoOnDb [webEdge, apiEdge])).self = some dbNode := by decide
      exact ((Situation.mem_failingDependents hself).mp (h.failingDependents_perm.mem_iff.mp hx)).2.1
  refine ⟨hdiffer, Bool.eq_true_of_not_eq_false fun hskip => ?_⟩
  obtain ⟨p, hp, -, hsame⟩ := unchanged_iff.mp (refreshIncidentRca_eq.mp hskip)
  obtain rfl := Option.some.inj hp
  exact hdiffer hsame.symm

end Witness

end IkelyaneMonitor.Aiops
