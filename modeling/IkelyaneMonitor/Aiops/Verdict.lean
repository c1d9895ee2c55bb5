import IkelyaneMonitor.Aiops.Rca

/-!
# The verdict by reachability

* `FailsUpstream`, `FailsDownstream` : a relevant peer on something the node depends on, or on something that depends on it;
* `verdict_by_reachability` : the verdict of every analysis in these terms, what `rootCauses` and `correlated` hold before
  they are cut, and that two incidents see each other from both sides.
-/

namespace IkelyaneMonitor.Aiops
open IkelyaneMonitor.Topology
open Incidents (IncidentStatus)

/-- Something else that the node depends on has a relevant incident. -/
def FailsUpstream (incident : RcaIncident) (others : List RcaIncident) (topology : RcaTopology) (self : RcaNode) : Prop :=
  ∃ o ∈ others, Relevant incident o ∧
    ∃ n, SitsOn topology o n ∧ n.id ≠ self.id ∧ DependsOn topology.edges self.id n.id

/-- Something else that depends on the node has a relevant incident. -/
def FailsDownstream (incident : RcaIncident) (others : List RcaIncident) (topology : RcaTopology) (self : RcaNode) : Prop :=
  ∃ o ∈ others, Relevant incident o ∧
    ∃ n, SitsOn topology o n ∧ n.id ≠ self.id ∧ DependsOn topology.edges n.id self.id

def SameSource (a b : RcaIncident) : Prop := a.sourceId ≠ none ∧ a.sourceId = b.sourceId

/-- The other is on something the incident's node depends on, or on something that depends on it. -/
def Linked (topology : RcaTopology) (incident other : RcaIncident) : Prop :=
  ∃ m n, SitsOn topology incident m ∧ SitsOn topology other n ∧
    (DependsOn topology.edges m.id n.id ∨ DependsOn topology.edges n.id m.id)

namespace Situation
variable {s : Situation} {self : RcaNode}

theorem failingUpstream_ne_nil (hself : s.self = some self) :
    s.failingUpstream ≠ [] ↔ FailsUpstream s.incident s.others s.topology self := by
  rw [Ne, List.eq_nil_iff_forall_not_mem, not_forall_not]
  constructor
  · rintro ⟨node, hnode⟩
    obtain ⟨hne, ⟨o, ho, hrel, n, hn, rfl⟩, hdep⟩ := (mem_failingUpstream hself).mp hnode
    exact ⟨o, ho, hrel, n, hn, hne, hdep⟩
  · rintro ⟨o, ho, hrel, n, hn, hne, hdep⟩
    exact ⟨n.id, (mem_failingUpstream hself).mpr ⟨hne, ⟨o, ho, hrel, n, hn, rfl⟩, hdep⟩⟩

theorem failingDependents_ne_nil (hself : s.self = some self) :
    s.failingDependents ≠ [] ↔ FailsDownstream s.incident s.others s.topology self := by
  rw [Ne, List.eq_nil_iff_forall_not_mem, not_forall_not]
  constructor
  · rintro ⟨node, hnode⟩
    obtain ⟨hne, ⟨o, ho, hrel, n, hn, rfl⟩, hdep⟩ := (mem_failingDependents hself).mp hnode
    exact ⟨o, ho, hrel, n, hn, hne, hdep⟩
  · rintro ⟨o, ho, hrel, n, hn, hne, hdep⟩
    exact ⟨n.id, (mem_failingDependents hself).mpr ⟨hne, ⟨o, ho, hrel, n, hn, rfl⟩, hdep⟩⟩

theorem verdict_eq_notMapped : s.verdict = .notMapped ↔ s.self = none := by
  cases hself : s.self with
  | none => simp [verdict_of_none hself]
  | some self =>
      rw [verdict_of_some hself]
      split_ifs <;> simp

theorem verdict_eq_symptom (s : Situation) : s.verdict = .symptom ↔ s.failingUpstream ≠ [] := by
  cases hself : s.self with
  | none => simp [verdict_of_none hself, failingUpstream_of_none hself]
  | some self =>
      rw [verdict_of_some hself]
      split_ifs with hup hdown <;> simp [hup]

theorem verdict_eq_rootCause (s : Situation) :
    s.verdict = .rootCause ↔ s.failingUpstream = [] ∧ s.failingDependents ≠ [] := by
  cases hself : s.self with
  | none => simp [verdict_of_none hself, failingDependents_of_none hself]
  | some self =>
      rw [verdict_of_some hself]
      split_ifs with hup hdown
      · simp [hup]
      · simpa using ⟨not_not.mp hup, hdown⟩
      · simpa using fun _ => not_not.mp hdown

theorem verdict_eq_isolated (hself : s.self = some self) :
    s.verdict = .isolated ↔ s.failingUpstream = [] ∧ s.failingDependents = [] := by
  rw [verdict_of_some hself]
  split_ifs with hup hdown
  · simp [hup]
  · simp [hdown]
  · simpa using ⟨not_not.mp hup, not_not.mp hdown⟩

/-! ## Links -/

theorem sortRefs_perm (localeCompare : Collation Cuid) (s : Situation) (incidents : List RcaIncident) :
    (s.sortRefs localeCompare incidents).Perm (incidents.map fun other => ref other s.incident) :=
  List.mergeSort_perm _ _

theorem mem_ids_sortRefs {localeCompare : Collation Cuid} {incidents : List RcaIncident} {id : Cuid} :
    id ∈ (s.sortRefs localeCompare incidents).map RcaIncidentRef.incidentId ↔ ∃ o ∈ incidents, o.id = id := by
  rw [((sortRefs_perm localeCompare s incidents).map RcaIncidentRef.incidentId).mem_iff]
  simp [ref]

theorem mem_ids_sameSource {localeCompare : Collation Cuid} {id : Cuid} :
    id ∈ (s.sameSource localeCompare).map RcaIncidentRef.incidentId ↔
      ∃ o ∈ s.others, Relevant s.incident o ∧ SameSource o s.incident ∧ o.id = id := by
  unfold sameSource SameSource
  rw [mem_ids_sortRefs]
  constructor
  · rintro ⟨o, ho, hid⟩
    obtain ⟨hpeer, hsame⟩ := List.mem_filter.mp ho
    simp only [Bool.and_eq_true, beq_iff_eq, Option.isSome_iff_ne_none] at hsame
    obtain ⟨hmem, hrel⟩ := counts_iff.mp ⟨hpeer, hsame.2⟩
    exact ⟨o, hmem, hrel, hsame.1, hid⟩
  · rintro ⟨o, hmem, hrel, hsame, hid⟩
    obtain ⟨hpeer, hcounts⟩ := counts_iff.mpr ⟨hmem, hrel⟩
    refine ⟨o, List.mem_filter.mpr ⟨hpeer, ?_⟩, hid⟩
    simp only [Bool.and_eq_true, beq_iff_eq, Option.isSome_iff_ne_none]
    exact ⟨hsame, hcounts⟩

theorem mem_ids_nodeRefs {localeCompare : Collation Cuid} {nodes : List Cuid} {id : Cuid} :
    id ∈ (nodes.map (s.nodeRef localeCompare)).flatMap (fun r => r.incidents.map RcaIncidentRef.incidentId) ↔
      ∃ node ∈ nodes, ∃ o ∈ Replay.members s.incidentsByNode node, o.id = id := by
  rw [List.flatMap_map, List.mem_flatMap]
  exact exists_congr fun node => and_congr_right fun _ => mem_ids_sortRefs

/-- The ids that are linked: those on the same source, and those on a node that fails upstream or downstream. -/
theorem mem_linkedIds {localeCompare : Collation Cuid} {id : Cuid} :
    id ∈ s.linkedIds localeCompare ↔
      (∃ o ∈ s.others, Relevant s.incident o ∧ SameSource o s.incident ∧ o.id = id) ∨
        ∃ node, (node ∈ s.failingUpstream ∨ node ∈ s.failingDependents) ∧
          ∃ o ∈ Replay.members s.incidentsByNode node, o.id = id := by
  unfold linkedIds
  rw [List.mem_append, List.mem_append, mem_ids_sameSource, List.flatMap_append, List.mem_append, or_assoc]
  refine or_congr_right ?_
  have hup : id ∈ (s.failingUpstream.flatMap fun node => (Replay.members s.incidentsByNode node).map RcaIncident.id) ↔
      ∃ node ∈ s.failingUpstream, ∃ o ∈ Replay.members s.incidentsByNode node, o.id = id := by
    simp only [List.mem_flatMap, List.mem_map]
  unfold rootCauses impacted
  rw [hup, mem_ids_nodeRefs, mem_ids_nodeRefs]
  constructor
  · rintro (⟨node, hnode, ho⟩ | ⟨node, hnode, ho⟩ | ⟨node, hnode, ho⟩)
    · exact ⟨node, .inl hnode, ho⟩
    · exact ⟨node, .inl (rootCauseNodes_subset localeCompare s hnode), ho⟩
    · exact ⟨node, .inr hnode, ho⟩
  · rintro ⟨node, hnode | hnode, ho⟩
    · exact .inl ⟨node, hnode, ho⟩
    · exact .inr (.inr ⟨node, hnode, ho⟩)

/-- With incidents that their ids tell apart, the linked ones are those on the same source or on a linked node. -/
theorem id_mem_linkedIds {localeCompare : Collation Cuid} (hids : ∀ a ∈ s.others, ∀ b ∈ s.others, a.id = b.id → a = b)
    {o : RcaIncident} (ho : o ∈ s.others) (hrel : Relevant s.incident o) :
    o.id ∈ s.linkedIds localeCompare ↔ SameSource o s.incident ∨ Linked s.topology s.incident o := by
  rw [mem_linkedIds]
  constructor
  · rintro (⟨o', ho', -, hsame, hid⟩ | ⟨node, hnode, o', ho', hid⟩)
    · exact .inl (hids o' ho' o ho hid ▸ hsame)
    · obtain ⟨hmem, -, n, hn, rfl⟩ := mem_incidentsOf.mp ho'
      obtain rfl := hids o' hmem o ho hid
      cases hself : s.self with
      | none => simp [failingUpstream_of_none hself, failingDependents_of_none hself] at hnode
      | some self =>
          refine .inr ⟨self, n, self_eq_some.mp hself, hn, ?_⟩
          rw [mem_failingUpstream hself, mem_failingDependents hself] at hnode
          exact hnode.imp (fun h => h.2.2) fun h => h.2.2
  · rintro (hsame | ⟨m, n, hm, hn, hdep⟩)
    · exact .inl ⟨o, ho, hrel, hsame, rfl⟩
    · by_cases hne : n.id = m.id
      · -- two incidents on one node are on one source
        obtain rfl := s.topology.eq_of_id hn.1 hm.1 hne
        obtain ⟨-, r, -, hr, href⟩ := hn
        obtain ⟨-, r', -, hr', href'⟩ := hm
        obtain rfl : r = r' := Option.some.inj (href.symm.trans href')
        exact .inl ⟨o, ho, hrel, ⟨by rw [hr]; exact Option.some_ne_none r, hr.trans hr'.symm⟩, rfl⟩
      · have hself := self_eq_some.mpr hm
        have hfails : s.Fails n.id := ⟨o, ho, hrel, n, hn, rfl⟩
        refine .inr ⟨n.id, ?_, o, mem_incidentsOf.mpr ⟨ho, hrel, n, hn, rfl⟩, rfl⟩
        rw [mem_failingUpstream hself, mem_failingDependents hself]
        exact hdep.imp (fun h => ⟨hne, hfails, h⟩) fun h => ⟨hne, hfails, h⟩

end Situation

/-! ## Every analysis -/

open scoped Classical in
theorem verdict_by_reachability (localeCompare : Collation Cuid) (incident : RcaIncident) (others : List RcaIncident)
    (topology : RcaTopology) :
    let s : Situation := ⟨incident, others, topology⟩
    let findings := analyzeIncident localeCompare incident others topology
    (findings.verdict = .notMapped ↔ ∀ node, ¬ SitsOn topology incident node) ∧
    (∀ self, SitsOn topology incident self →
      (findings.verdict = .symptom ↔ FailsUpstream incident others topology self) ∧
      (findings.verdict = .rootCause ↔
        ¬ FailsUpstream incident others topology self ∧ FailsDownstream incident others topology self) ∧
      (findings.verdict = .isolated ↔
        ¬ FailsUpstream incident others topology self ∧ ¬ FailsDownstream incident others topology self)) ∧
    (s.rootCauses localeCompare ≠ [] ↔ findings.verdict = .symptom) ∧
    ((∀ a ∈ others, ∀ b ∈ others, a.id = b.id → a = b) →
      (s.correlated localeCompare).Perm ((others.filter fun o =>
        decide (o.id ≠ incident.id ∧ |o.startedAt - incident.startedAt| ≤ correlationWindowMs ∧
          ¬ SameSource o incident ∧ ¬ Linked topology incident o)).map fun o => ref o incident)) ∧
    ∀ (b : RcaIncident) (othersOfB : List RcaIncident) (nodeA nodeB : RcaNode),
      SitsOn topology incident nodeA → incident.status ≠ .resolved → incident ∈ othersOfB →
      SitsOn topology b nodeB → b.status ≠ .resolved → b ∈ others → (incident.id = b.id → incident = b) →
      (nodeB.id ∈ s.failingUpstream ↔ nodeA.id ∈ (Situation.mk b othersOfB topology).failingDependents) := by
  intro s findings
  refine ⟨Situation.verdict_eq_notMapped.trans Situation.self_eq_none, fun self hself => ?_, ?_, fun hids => ?_, ?_⟩
  · have hsome : s.self = some self := Situation.self_eq_some.mpr hself
    have hup := Situation.failingUpstream_ne_nil hsome
    have hdown := Situation.failingDependents_ne_nil hsome
    refine ⟨(Situation.verdict_eq_symptom s).trans hup, ?_, ?_⟩
    · rw [← hup, ← hdown, not_not]
      exact Situation.verdict_eq_rootCause s
    · rw [← hup, ← hdown, not_not, not_not]
      exact Situation.verdict_eq_isolated hsome
  · rw [Situation.rootCauses, Ne, List.map_eq_nil_iff, Situation.rootCauseNodes_eq_nil]
    exact (Situation.verdict_eq_symptom s).symm
  · refine (Situation.sortRefs_perm localeCompare s _).trans (List.Perm.of_eq ?_)
    rw [Situation.peers, List.filter_filter]
    congr 1
    refine List.filter_congr fun o ho => ?_
    rw [Bool.eq_iff_iff, Bool.and_eq_true, Bool.and_eq_true, Situation.inWindow, decide_eq_true_eq, decide_eq_true_eq,
      decide_eq_true_eq, decide_eq_true_eq]
    constructor
    · rintro ⟨⟨hwin, hlinked⟩, hne⟩
      rw [Situation.id_mem_linkedIds hids ho ⟨hne, .inr hwin⟩, not_or] at hlinked
      exact ⟨hne, hwin, hlinked⟩
    · rintro ⟨hne, hwin, hlinked⟩
      refine ⟨⟨hwin, ?_⟩, hne⟩
      rw [Situation.id_mem_linkedIds hids ho ⟨hne, .inr hwin⟩, not_or]
      exact hlinked
  · intro b othersOfB nodeA nodeB hA hAstatus hAmem hB hBstatus hBmem hid
    have hselfA : s.self = some nodeA := Situation.self_eq_some.mpr hA
    have hselfB : (Situation.mk b othersOfB topology).self = some nodeB := Situation.self_eq_some.mpr hB
    rw [Situation.mem_failingUpstream hselfA, Situation.mem_failingDependents hselfB]
    by_cases hne : nodeA.id = nodeB.id
    · simp [hne]
    · have hids : incident.id ≠ b.id := by
        intro heq
        obtain rfl := hid heq
        exact hne (congrArg RcaNode.id (hA.unique hB))
      have hfailsA : s.Fails nodeB.id := ⟨b, hBmem, ⟨hids.symm, .inl hBstatus⟩, nodeB, hB, rfl⟩
      have hfailsB : (Situation.mk b othersOfB topology).Fails nodeA.id :=
        ⟨incident, hAmem, ⟨hids, .inl hAstatus⟩, nodeA, hA, rfl⟩
      exact ⟨fun h => ⟨hne, hfailsB, h.2.2⟩, fun h => ⟨Ne.symm hne, hfailsA, h.2.2⟩⟩

section Witness

/-- An id of one letter. -/
def Cuid.ofLetter (c : Char) (h : c.isLower = true) : Cuid :=
  ⟨[c], by simp, fun _ hd => .inl (List.mem_singleton.mp hd ▸ h)⟩

theorem isLower_w : 'w'.isLower = true := rfl
theorem isLower_p : 'p'.isLower = true := rfl
theorem isLower_c : 'c'.isLower = true := rfl

/-- An incident that started at the epoch, on the source of a name. -/
def incidentOn (id : Cuid) (status : IncidentStatus) (source : String) : RcaIncident :=
  ⟨id, "Down", status, some .host, some source, some source, none, 0⟩

def webNode : RcaNode := ⟨Cuid.ofLetter 'w' isLower_w, some "web", "Web"⟩
def dbNode : RcaNode := ⟨Cuid.ofLetter 'd' rfl, some "db", "Database"⟩

/-- The web service depends on the database. -/
def webOnDb : RcaTopology where
  nodes := [webNode, dbNode]
  edges := [⟨webNode.id, dbNode.id⟩]
  ids_nodup := by decide
  refIds_nodup := by decide

def webDown : RcaIncident := incidentOn (Cuid.ofLetter 'a' rfl) .open "web"
def dbDown : RcaIncident := incidentOn (Cuid.ofLetter 'b' rfl) .open "db"

theorem verdict_by_reachability_webOnDb :
    (analyzeIncident Cuid.codeUnits webDown [dbDown] webOnDb).verdict = .symptom ∧
      ((Situation.mk webDown [dbDown] webOnDb).correlated Cuid.codeUnits).Perm [] ∧
      webNode.id ∈ (Situation.mk dbDown [webDown] webOnDb).failingDependents := by
  have hweb : SitsOn webOnDb webDown webNode := ⟨by decide, "web", by decide, rfl, rfl⟩
  have hdb : SitsOn webOnDb dbDown dbNode := ⟨by decide, "db", by decide, rfl, rfl⟩
  have hedge : DependsOn webOnDb.edges webNode.id dbNode.id := .single (by decide)
  have hlinked : Linked webOnDb webDown dbDown := ⟨webNode, dbNode, hweb, hdb, .inl hedge⟩
  obtain ⟨-, hmapped, -, hcorrelated, hdual⟩ := verdict_by_reachability Cuid.codeUnits webDown [dbDown] webOnDb
  refine ⟨((hmapped webNode hweb).1).mpr ?_, ?_, ?_⟩
  · exact ⟨dbDown, List.mem_singleton_self _, ⟨by decide, .inl (by decide)⟩, dbNode, hdb, by decide, hedge⟩
  · have hone : ∀ a ∈ [dbDown], ∀ b ∈ [dbDown], a.id = b.id → a = b := by simp
    simpa [hlinked] using hcorrelated hone
  · refine (hdual dbDown [webDown] webNode dbNode hweb (by decide) (List.mem_singleton_self _) hdb (by decide)
      (List.mem_singleton_self _) (fun h => absurd h (by decide))).mp ?_
    exact (Situation.mem_failingUpstream (Situation.self_eq_some.mpr hweb)).mpr
      ⟨by decide, ⟨dbDown, List.mem_singleton_self _, ⟨by decide, .inl (by decide)⟩, dbNode, hdb, rfl⟩, hedge⟩

end Witness

end IkelyaneMonitor.Aiops
