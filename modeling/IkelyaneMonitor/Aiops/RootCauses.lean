import IkelyaneMonitor.Aiops.Verdict

/-!
# Root causes that are symptoms

`rootCauseCandidates` looks at the edges of a node, the verdict at everything the node depends on.

* `NoHiddenCause` : no unhealthy node hides its cause behind dependencies that are all healthy;
* `rootCauses_clean_iff` : just then are the candidates the nodes none of whose dependencies is unhealthy, and the root
  causes of an analysis no symptoms themselves;
* `rootCauses_not_clean` : a cause behind a healthy node.
-/

namespace IkelyaneMonitor.Aiops
open IkelyaneMonitor.Topology
open Incidents (IncidentStatus)

section Candidates
variable {α : Type}

/-- Unhealthy, and nothing it depends on is. -/
def CleanRoot (edges : List (DependencyEdge α)) (unhealthy : α → Prop) (node : α) : Prop :=
  unhealthy node ∧ ∀ d, DependsOn edges node d → ¬ unhealthy d

/-- Of the unhealthy nodes `within`, one whose direct dependencies are all healthy has no unhealthy one behind them. -/
def NoHiddenCause (edges : List (DependencyEdge α)) (unhealthy within : α → Prop) : Prop :=
  ∀ node, within node → unhealthy node → (∀ d, ⟨node, d⟩ ∈ edges → ¬ unhealthy d) →
    ∀ d, ⟨node, d⟩ ∈ edges → ∀ m, DependsOn edges d m → ¬ unhealthy m

variable {edges : List (DependencyEdge α)} {unhealthy within : α → Prop}

/-- What a node depends on is a direct dependency or behind one. -/
theorem dependsOn_iff {a m : α} : DependsOn edges a m ↔ ⟨a, m⟩ ∈ edges ∨ ∃ d, ⟨a, d⟩ ∈ edges ∧ DependsOn edges d m := by
  constructor
  · intro h
    obtain ⟨d, hd, hrest⟩ := Relation.TransGen.head'_iff.mp h
    rcases Relation.reflTransGen_iff_eq_or_transGen.mp hrest with rfl | hdm
    · exact .inl hd
    · exact .inr ⟨d, hd, hdm⟩
  · rintro (hm | ⟨d, hd, hdm⟩)
    · exact .single hm
    · exact .head hd hdm

theorem noHiddenCause_iff : NoHiddenCause edges unhealthy within ↔
    ∀ node, within node → unhealthy node → (∀ d, ⟨node, d⟩ ∈ edges → ¬ unhealthy d) → CleanRoot edges unhealthy node := by
  refine forall_congr' fun node => forall_congr' fun _ => forall_congr' fun hnode => forall_congr' fun hdirect => ?_
  constructor
  · intro h
    refine ⟨hnode, fun m hm => ?_⟩
    rcases dependsOn_iff.mp hm with hedge | ⟨d, hd, hdm⟩
    · exact hdirect m hedge
    · exact h d hd m hdm
  · intro h d hd m hdm
    exact h.2 m (dependsOn_iff.mpr (.inr ⟨d, hd, hdm⟩))

theorem CleanRoot.direct {node : α} (h : CleanRoot edges unhealthy node) {d : α} (hd : ⟨node, d⟩ ∈ edges) :
    ¬ unhealthy d := h.2 d (.single hd)

theorem candidates_clean_iff [DecidableEq α] (localeCompare : Collation α) (edges : List (DependencyEdge α))
    (nodes : List α) :
    (∀ n, n ∈ rootCauseCandidates localeCompare edges nodes ↔ CleanRoot edges (· ∈ nodes) n) ↔
      NoHiddenCause edges (· ∈ nodes) fun _ => True := by
  rw [noHiddenCause_iff]
  constructor
  · intro h node _ hnode hdirect
    exact (h node).mp (mem_rootCauseCandidates.mpr ⟨hnode, hdirect⟩)
  · intro h n
    rw [mem_rootCauseCandidates]
    exact ⟨fun ⟨hn, hdirect⟩ => h n trivial hn hdirect, fun hclean => ⟨hclean.1, fun d hd => hclean.direct hd⟩⟩

end Candidates

/-! ## The root causes of an analysis -/

/-- Some incident is on the node. -/
def Unhealthy (topology : RcaTopology) (incidents : List RcaIncident) (node : Cuid) : Prop :=
  ∃ o ∈ incidents, ∃ n, SitsOn topology o n ∧ n.id = node

namespace Situation
variable {s : Situation} {self : RcaNode}

section Unresolved
variable (hstatus : ∀ o ∈ s.incident :: s.others, o.status ≠ .resolved)
  (hids : ∀ a ∈ s.incident :: s.others, ∀ b ∈ s.incident :: s.others, a.id = b.id → a = b)
include hstatus hids

theorem mem_unhealthy_iff (hself : s.self = some self) {node : Cuid} :
    node ∈ s.unhealthy self ↔ Unhealthy s.topology (s.incident :: s.others) node := by
  have hsits := self_eq_some.mp hself
  rw [mem_unhealthy, mem_keys]
  constructor
  · rintro (rfl | ⟨o, ho, -, hn⟩)
    · exact ⟨s.incident, List.mem_cons_self, self, hsits, rfl⟩
    · exact ⟨o, List.mem_cons_of_mem _ ho, hn⟩
  · rintro ⟨o, ho, n, hn, rfl⟩
    by_cases hid : o.id = s.incident.id
    · obtain rfl := hids o ho s.incident List.mem_cons_self hid
      exact .inl (congrArg RcaNode.id (hn.unique hsits))
    · have hmem : o ∈ s.others := (List.mem_cons.mp ho).resolve_left fun h => hid (congrArg RcaIncident.id h)
      exact .inr ⟨o, hmem, ⟨hid, .inl (hstatus o ho)⟩, n, hn, rfl⟩

/-- Without cycles something fails first, so the root causes are candidates. -/
theorem mem_rootCauseNodes (localeCompare : Collation Cuid) (hself : s.self = some self)
    (hacyclic : Acyclic s.topology.edges) {node : Cuid} :
    node ∈ s.rootCauseNodes localeCompare ↔
      DependsOn s.topology.edges self.id node ∧ Unhealthy s.topology (s.incident :: s.others) node ∧
        ∀ d, ⟨node, d⟩ ∈ s.topology.edges → ¬ Unhealthy s.topology (s.incident :: s.others) d := by
  have hup : ∀ node, node ∈ s.failingUpstream ↔
      DependsOn s.topology.edges self.id node ∧ Unhealthy s.topology (s.incident :: s.others) node := by
    intro node
    rw [← mem_unhealthy_iff hstatus hids hself, mem_unhealthy, mem_keys, mem_failingUpstream hself]
    constructor
    · rintro ⟨-, hfails, hdep⟩
      exact ⟨hdep, .inr hfails⟩
    · rintro ⟨hdep, hfails⟩
      have hne : node ≠ self.id := fun h => hacyclic self.id (h ▸ hdep)
      exact ⟨hne, hfails.resolve_left hne, hdep⟩
  have hroots : ∀ node, node ∈ s.roots localeCompare ↔ node ∈ s.failingUpstream ∧
      ∀ d, ⟨node, d⟩ ∈ s.topology.edges → ¬ Unhealthy s.topology (s.incident :: s.others) d := by
    intro node
    unfold roots
    rw [hself, List.mem_filter, decide_eq_true_eq, mem_rootCauseCandidates]
    simp only [mem_unhealthy_iff hstatus hids hself]
    constructor
    · rintro ⟨⟨-, hdirect⟩, hnode⟩
      exact ⟨hnode, hdirect⟩
    · rintro ⟨hnode, hdirect⟩
      exact ⟨⟨((hup node).mp hnode).2, hdirect⟩, hnode⟩
  have hnodes : s.rootCauseNodes localeCompare = s.roots localeCompare := by
    unfold rootCauseNodes
    split_ifs with hsome
    · rfl
    · refine (List.eq_nil_iff_forall_not_mem.mpr fun a ha => ?_).trans (not_not.mp hsome).symm
      obtain ⟨b, hb, hab, hfirst⟩ := hacyclic.exists_first
        ((mem_unhealthy_iff hstatus hids hself).mpr ((hup a).mp ha).2)
      have hdep : DependsOn s.topology.edges self.id b := by
        rcases hab with rfl | hab
        · exact ((hup b).mp ha).1
        · exact ((hup a).mp ha).1.trans hab
      have hroot : b ∈ s.roots localeCompare := by
        refine (hroots b).mpr ⟨(hup b).mpr ⟨hdep, (mem_unhealthy_iff hstatus hids hself).mp hb⟩, fun d hd hbad => ?_⟩
        exact hfirst d ((mem_unhealthy_iff hstatus hids hself).mpr hbad) (.single hd)
      rw [not_not.mp hsome] at hroot
      cases hroot
  rw [hnodes, hroots, hup, and_assoc]

/-- An incident of a node is a symptom when the node depends on an unhealthy one. -/
theorem symptom_iff (localeCompare : Collation Cuid) (hacyclic : Acyclic s.topology.edges) {o : RcaIncident}
    (ho : o ∈ s.incident :: s.others) {n : RcaNode} (hn : SitsOn s.topology o n) :
    (analyzeIncident localeCompare o (s.incident :: s.others) s.topology).verdict = .symptom ↔
      ∃ m, DependsOn s.topology.edges n.id m ∧ Unhealthy s.topology (s.incident :: s.others) m := by
  have hself : (Situation.mk o (s.incident :: s.others) s.topology).self = some n := self_eq_some.mpr hn
  refine (verdict_eq_symptom _).trans ((failingUpstream_ne_nil hself).trans ?_)
  constructor
  · rintro ⟨p, hp, -, m, hm, -, hdep⟩
    exact ⟨m.id, hdep, p, hp, m, hm, rfl⟩
  · rintro ⟨_, hdep, p, hp, m, hm, rfl⟩
    have hne : m.id ≠ n.id := fun h => hacyclic n.id (h ▸ hdep)
    have hpo : p.id ≠ o.id := by
      intro h
      obtain rfl := hids p hp o ho h
      exact hne (congrArg RcaNode.id (hm.unique hn))
    exact ⟨p, hp, ⟨hpo, .inl (hstatus p hp)⟩, m, hm, hne, hdep⟩

end Unresolved

end Situation

/-- The candidates, and the root causes of an analysis before they are cut, for what the node of the incident needs. -/
theorem rootCauses_clean_iff {α : Type} [DecidableEq α] (collation : Collation α) :
    (∀ (edges : List (DependencyEdge α)) (unhealthy : List α), Acyclic edges →
      ((∀ n, n ∈ rootCauseCandidates collation edges unhealthy ↔ CleanRoot edges (· ∈ unhealthy) n) ↔
        NoHiddenCause edges (· ∈ unhealthy) fun _ => True)) ∧
    ∀ (localeCompare : Collation Cuid) (incident : RcaIncident) (others : List RcaIncident) (topology : RcaTopology)
      (self : RcaNode), Acyclic topology.edges → SitsOn topology incident self →
      (∀ o ∈ incident :: others, o.status ≠ .resolved) →
      (∀ a ∈ incident :: others, ∀ b ∈ incident :: others, a.id = b.id → a = b) →
      ((∀ node ∈ (Situation.mk incident others topology).rootCauseNodes localeCompare,
        ∀ o ∈ incident :: others, (∃ n, SitsOn topology o n ∧ n.id = node) →
          (analyzeIncident localeCompare o (incident :: others) topology).verdict ≠ .symptom) ↔
        NoHiddenCause topology.edges (Unhealthy topology (incident :: others)) (DependsOn topology.edges self.id)) := by
  refine ⟨fun edges unhealthy _ => candidates_clean_iff collation edges unhealthy, ?_⟩
  intro localeCompare incident others topology self hacyclic hsits hstatus hids
  have hself : (Situation.mk incident others topology).self = some self := Situation.self_eq_some.mpr hsits
  have hnodes := @Situation.mem_rootCauseNodes ⟨incident, others, topology⟩ self hstatus hids localeCompare hself hacyclic
  have hsymptom := @Situation.symptom_iff ⟨incident, others, topology⟩ hstatus hids localeCompare hacyclic
  rw [noHiddenCause_iff]
  constructor
  · intro h node hdep hbad hdirect
    refine ⟨hbad, fun m hm hunhealthy => ?_⟩
    obtain ⟨o, ho, n, hn, rfl⟩ := hbad
    exact h n.id (hnodes.mpr ⟨hdep, ⟨o, ho, n, hn, rfl⟩, hdirect⟩) o ho ⟨n, hn, rfl⟩
      ((hsymptom ho hn).mpr ⟨m, hm, hunhealthy⟩)
  · rintro h node hnode o ho ⟨n, hn, rfl⟩ hverdict
    obtain ⟨hdep, hbad, hdirect⟩ := hnodes.mp hnode
    obtain ⟨m, hm, hunhealthy⟩ := (hsymptom ho hn).mp hverdict
    exact (h n.id hdep hbad hdirect).2 m hm hunhealthy

section Witness

/-- Edges that only lead further on in a list make no cycle. -/
theorem acyclic_of_idxOf {α : Type} [DecidableEq α] {edges : List (DependencyEdge α)} (order : List α)
    (h : ∀ e ∈ edges, order.idxOf e.parent < order.idxOf e.child) : Acyclic edges := by
  have hlt : ∀ a b, DependsOn edges a b → order.idxOf a < order.idxOf b := by
    intro a b hab
    induction hab with
    | single hedge => exact h _ hedge
    | tail _ hedge ih => exact Nat.lt_trans ih (h _ hedge)
  exact fun a ha => Nat.lt_irrefl _ (hlt a a ha)

theorem rootCauses_clean_iff_webOnDb :
    dbNode.id ∈ (Situation.mk webDown [dbDown] webOnDb).rootCauseNodes Cuid.codeUnits ∧
      (analyzeIncident Cuid.codeUnits dbDown [webDown, dbDown] webOnDb).verdict ≠ .symptom := by
  have hacyclic : Acyclic webOnDb.edges := acyclic_of_idxOf [webNode.id, dbNode.id] (by decide)
  have hsits : SitsOn webOnDb webDown webNode := ⟨by decide, "web", by decide, rfl, rfl⟩
  have hdb : SitsOn webOnDb dbDown dbNode := ⟨by decide, "db", by decide, rfl, rfl⟩
  have hedges : ∀ e ∈ webOnDb.edges, e = ⟨webNode.id, dbNode.id⟩ := by decide
  have hroot : dbNode.id ∈ (Situation.mk webDown [dbDown] webOnDb).rootCauseNodes Cuid.codeUnits := by
    refine (@Situation.mem_rootCauseNodes ⟨webDown, [dbDown], webOnDb⟩ webNode (by decide) (by decide) Cuid.codeUnits
      (Situation.self_eq_some.mpr hsits) hacyclic dbNode.id).mpr ⟨.single (by decide), ?_, fun d hd => ?_⟩
    · exact ⟨dbDown, by decide, dbNode, hdb, rfl⟩
    · exact absurd (DependencyEdge.mk.inj (hedges _ hd)).1 (by decide)
  refine ⟨hroot, ((rootCauses_clean_iff Cuid.codeUnits).2 Cuid.codeUnits webDown [dbDown] webOnDb webNode hacyclic hsits
    (by decide)
    (by decide)).mpr (fun node hdep _ _ d hd => ?_) dbNode.id hroot dbDown (by decide) ⟨dbNode, hdb, rfl⟩⟩
  -- only the web service has a dependency, and it does not depend on itself
  rw [(DependencyEdge.mk.inj (hedges _ hd)).1] at hdep
  exact absurd hdep (hacyclic _)

def frontNode : RcaNode := ⟨Cuid.ofLetter 'f' rfl, some "front", "Front"⟩
def apiNode : RcaNode := ⟨Cuid.ofLetter 'p' isLower_p, none, "API"⟩

/-- The front depends on the web service, which reaches the database through a service that nobody monitors. -/
def unmonitoredBetween : RcaTopology where
  nodes := [frontNode, webNode, apiNode, dbNode]
  edges := [⟨frontNode.id, webNode.id⟩, ⟨webNode.id, apiNode.id⟩, ⟨apiNode.id, dbNode.id⟩]
  ids_nodup := by decide
  refIds_nodup := by decide

def frontDown : RcaIncident := incidentOn (Cuid.ofLetter 'c' isLower_c) .open "front"

theorem rootCauses_not_clean :
    Acyclic unmonitoredBetween.edges ∧
      ¬ (∀ n, n ∈ rootCauseCandidates Cuid.codeUnits unmonitoredBetween.edges [frontNode.id, webNode.id, dbNode.id] ↔
        CleanRoot unmonitoredBetween.edges (· ∈ [frontNode.id, webNode.id, dbNode.id]) n) ∧
      webNode.id ∈ (Situation.mk frontDown [webDown, dbDown] unmonitoredBetween).rootCauseNodes Cuid.codeUnits ∧
      (analyzeIncident Cuid.codeUnits webDown [frontDown, webDown, dbDown] unmonitoredBetween).verdict = .symptom := by
  have hacyclic : Acyclic unmonitoredBetween.edges :=
    acyclic_of_idxOf [frontNode.id, webNode.id, apiNode.id, dbNode.id] (by decide)
  have hdep : DependsOn unmonitoredBetween.edges webNode.id dbNode.id :=
    (Relation.TransGen.single (b := apiNode.id) (by decide)).tail (by decide)
  have hdirect : ∀ d, (⟨webNode.id, d⟩ : DependencyEdge Cuid) ∈ unmonitoredBetween.edges → d = apiNode.id := by
    intro d hd
    have hedges : ∀ e ∈ unmonitoredBetween.edges, e.parent = webNode.id → e.child = apiNode.id := by decide
    exact hedges _ hd rfl
  refine ⟨hacyclic, fun h => ?_, ?_, by decide⟩
  · have hclean := (h webNode.id).mp (mem_rootCauseCandidates.mpr ⟨by decide, fun d hd => ?_⟩)
    · exact hclean.2 dbNode.id hdep (by decide)
    · rw [hdirect d hd]
      decide
  · have hsits : SitsOn unmonitoredBetween frontDown frontNode := ⟨by decide, "front", by decide, rfl, rfl⟩
    refine (@Situation.mem_rootCauseNodes ⟨frontDown, [webDown, dbDown], unmonitoredBetween⟩ frontNode (by decide)
      (by decide) Cuid.codeUnits (Situation.self_eq_some.mpr hsits) hacyclic webNode.id).mpr ⟨.single (by decide), ?_, ?_⟩
    · exact ⟨webDown, by decide, webNode, ⟨by decide, "web", by decide, rfl, rfl⟩, rfl⟩
    · rintro d hd ⟨o, -, n, ⟨hn, r, -, -, href⟩, rfl⟩
      have hapi : apiNode ∈ unmonitoredBetween.nodes := by decide
      rw [unmonitoredBetween.eq_of_id hn hapi (hdirect _ hd)] at href
      cases href

end Witness

end IkelyaneMonitor.Aiops
