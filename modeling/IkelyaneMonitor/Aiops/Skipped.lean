import Mathlib.Tactic.Linarith
import IkelyaneMonitor.Aiops.Shuffle

/-!
# Refreshes that are skipped

The findings of an earlier analysis against those of now, when their signatures are equal. Between the two anything may have
happened to the map and to the incidents, but that an incident keeps its source, its title and its start (`Keeps`).

* `confidenceOf_congr` : the confidence reads no more of the lists than their cut forms show;
* `AgreesWith` : what a reader of the findings sees, up to the order of lists;
* `skip_agrees_iff` : it is what a new analysis finds just when the first dependents have the same labels.
-/

namespace IkelyaneMonitor.Aiops
open IkelyaneMonitor.Topology
open Replay (members)

/-- The incident at two moments: only its status changes. -/
def Keeps (a b : RcaIncident) : Prop := a = { b with status := a.status }

/-- A node and its incidents, these in any order. -/
def RcaNodeRef.Same (a b : RcaNodeRef) : Prop := a.label = b.label ∧ a.incidents.Perm b.incidents

/-- The stored findings and confidence say what the fresh findings say, up to the order of lists. -/
structure AgreesWith (stored : RcaFindings) (confidence : Option ℚ) (fresh : RcaFindings) : Prop where
  verdict : stored.verdict = fresh.verdict
  node : stored.node = fresh.node
  confidence : confidence = some fresh.confidence ∧ stored.confidence = fresh.confidence
  rootCauses : List.Forall₂ RcaNodeRef.Same stored.rootCauses fresh.rootCauses
  impacted : List.Forall₂ RcaNodeRef.Same stored.impacted fresh.impacted
  sameSource : stored.sameSource.Perm fresh.sameSource
  correlated : stored.correlated.Perm fresh.correlated
  firstToStart : stored.firstToStart = fresh.firstToStart
  count : stored.blastRadius.count = fresh.blastRadius.count
  labels : stored.blastRadius.labels.Perm fresh.blastRadius.labels

/-- The labels of the first nodes found that depend on a node. -/
def firstDependents (topology : RcaTopology) (node : RcaNode) : List String :=
  ((blastRadius topology.edges node.id).take maxListed).map topology.labelOf

/-! ## The confidence -/

theorem confidenceOf_congr {verdict : RcaVerdict} {roots roots' impacted impacted' correlated correlated' sameSource
    sameSource' : Nat} {first : Bool} (hroots : min maxListed roots = min maxListed roots')
    (himpacted : min maxListed impacted = min maxListed impacted')
    (hcorrelated : min maxListed correlated = min maxListed correlated')
    (hsame : min maxListed sameSource = min maxListed sameSource') :
    confidenceOf verdict roots impacted correlated sameSource first =
      confidenceOf verdict roots' impacted' correlated' sameSource' first := by
  unfold maxListed at hroots himpacted hcorrelated hsame
  have hone : roots = 1 ↔ roots' = 1 := by omega
  have hcor : 0 < correlated ↔ 0 < correlated' := by omega
  have hsam : 0 < sameSource ↔ 0 < sameSource' := by omega
  -- ten impacted nodes are as sure as any number more
  have hfull : ∀ n : Nat, 10 ≤ n →
      min (9 / 10 : ℚ) (7 / 10 + 5 / 100 * n + if first then 5 / 100 else 0) = 9 / 10 := by
    intro n hn
    have hcast : (10 : ℚ) ≤ n := by exact_mod_cast hn
    refine min_eq_left ?_
    split_ifs <;> linarith
  unfold confidenceOf
  cases verdict with
  | symptom => simp only [hone]
  | isolated => simp only [hcor, hsam]
  | notMapped => simp only [hcor, hsam]
  | rootCause =>
      by_cases hten : impacted < 10
      · rw [show impacted = impacted' by omega]
      · dsimp only
        rw [hfull impacted (by omega), hfull impacted' (by omega)]

/-! ## References -/

theorem ref_eq {a b origin origin' : RcaIncident} (h : Keeps a b) (horigin : Keeps origin origin') :
    ref a origin = ref b origin' := by
  unfold Keeps at h horigin
  rw [h, horigin]
  rfl

/-- References that their ids determine are the same up to order when their ids are. -/
theorem perm_of_ids {refs refs' : List RcaIncidentRef}
    (hdet : ∀ r ∈ refs, ∀ r' ∈ refs', r.incidentId = r'.incidentId → r = r')
    (h : (refs.map RcaIncidentRef.incidentId).Perm (refs'.map RcaIncidentRef.incidentId)) : refs.Perm refs' := by
  induction refs' generalizing refs with
  | nil =>
      rw [List.map_nil] at h
      rw [List.map_eq_nil_iff.mp (List.perm_nil.mp h)]
  | cons r' refs' ih =>
      have hmem : r'.incidentId ∈ refs.map RcaIncidentRef.incidentId := h.mem_iff.mpr (by simp)
      obtain ⟨r, hr, hid⟩ := List.mem_map.mp hmem
      obtain rfl := hdet r hr r' List.mem_cons_self hid
      have hfront := List.perm_cons_erase hr
      refine hfront.trans (List.Perm.cons _ (ih (fun a ha b hb => hdet a (List.mem_of_mem_erase ha) b
        (List.mem_cons_of_mem _ hb)) ?_))
      exact ((hfront.symm.map _).trans h).cons_inv

theorem ref_mem_sortRefs {localeCompare : Collation Cuid} {s : Situation} {incidents : List RcaIncident}
    {r : RcaIncidentRef} (h : r ∈ s.sortRefs localeCompare incidents) : ∃ o ∈ incidents, r = ref o s.incident := by
  obtain ⟨o, ho, rfl⟩ := List.mem_map.mp ((Situation.sortRefs_perm localeCompare s incidents).mem_iff.mp h)
  exact ⟨o, ho, rfl⟩

section Skip
variable {localeCompare : Collation Cuid} {before now : Situation}
  (hincident : Keeps before.incident now.incident)
  (hkeeps : ∀ a ∈ before.others, ∀ b ∈ now.others, a.id = b.id → Keeps a b)
include hincident hkeeps

/-- References to the incidents of both moments agree when their ids do. -/
theorem sortRefs_perm_of_ids {l l' : List RcaIncident} (hl : l ⊆ before.others) (hl' : l' ⊆ now.others) {n : Nat}
    (h : ids ((before.sortRefs localeCompare l).take n) = ids ((now.sortRefs localeCompare l').take n)) :
    ((before.sortRefs localeCompare l).take n).Perm ((now.sortRefs localeCompare l').take n) := by
  refine perm_of_ids (fun r hr r' hr' hid => ?_) (ids_eq_iff.mp h)
  obtain ⟨o, ho, rfl⟩ := ref_mem_sortRefs (List.mem_of_mem_take hr)
  obtain ⟨o', ho', rfl⟩ := ref_mem_sortRefs (List.mem_of_mem_take hr')
  exact ref_eq (hkeeps o (hl ho) o' (hl' ho') hid) hincident

theorem nodeRef_same {m n : Cuid} (h : entry (before.nodeRef localeCompare m) = entry (now.nodeRef localeCompare n)) :
    (before.nodeRef localeCompare m).Same (now.nodeRef localeCompare n) := by
  obtain ⟨hlabel, hids⟩ := Prod.mk.inj h
  have hsub : ∀ (s : Situation) node, members s.incidentsByNode node ⊆ s.others := fun s node o ho =>
    (Situation.mem_incidentsOf.mp ho).1
  refine ⟨hlabel, perm_of_ids (fun r hr r' hr' hid => ?_) (ids_eq_iff.mp hids)⟩
  obtain ⟨o, ho, rfl⟩ := ref_mem_sortRefs hr
  obtain ⟨o', ho', rfl⟩ := ref_mem_sortRefs hr'
  exact ref_eq (hkeeps o (hsub _ _ ho) o' (hsub _ _ ho') hid) hincident

theorem nodeRefs_same {nodes nodes' : List Cuid} {k : Nat}
    (h : ((nodes.map (before.nodeRef localeCompare)).take k).map entry =
      ((nodes'.map (now.nodeRef localeCompare)).take k).map entry) :
    List.Forall₂ RcaNodeRef.Same ((nodes.map (before.nodeRef localeCompare)).take k)
      ((nodes'.map (now.nodeRef localeCompare)).take k) := by
  rw [← List.map_take, ← List.map_take] at h ⊢
  generalize nodes.take k = nodes at h ⊢
  generalize nodes'.take k = nodes' at h ⊢
  induction nodes generalizing nodes' with
  | nil =>
      rw [List.map_nil, List.map_nil] at h
      rw [List.map_eq_nil_iff.mp h.symm]
      exact List.Forall₂.nil
  | cons m nodes ih =>
      cases nodes' with
      | nil => cases h
      | cons n nodes' =>
          obtain ⟨hfirst, hrest⟩ := List.cons.inj h
          exact List.Forall₂.cons (nodeRef_same hincident hkeeps hfirst) (ih _ hrest)

end Skip

theorem min_eq_of_map {α β γ : Type} {f : α → γ} {g : β → γ} {l : List α} {l' : List β} {n : Nat}
    (h : (l.take n).map f = (l'.take n).map g) : min n l.length = min n l'.length := by
  have hlen := congrArg List.length h
  rwa [List.length_map, List.length_map, List.length_take, List.length_take] at hlen

/-- When a refresh writes nothing, what is stored agrees with a new analysis just when the first dependents do. -/
theorem skip_agrees_iff (localeCompare : Collation Cuid) (before incident : RcaIncident)
    (othersBefore others : List RcaIncident)
    (topologyBefore topology : RcaTopology) (row : RcaRow) (llmEnabled : Bool) (now : Int)
    (hincident : Keeps before incident) (hkeeps : ∀ a ∈ othersBefore, ∀ b ∈ others, a.id = b.id → Keeps a b)
    (hfindings : row.rcaFindings = some (analyzeIncident localeCompare before othersBefore topologyBefore))
    (hconfidence : row.rcaConfidence = some (analyzeIncident localeCompare before othersBefore topologyBefore).confidence)
    (hskip : (refreshIncidentRca localeCompare llmEnabled incident row others topology now false).2.2 = false) :
    AgreesWith (analyzeIncident localeCompare before othersBefore topologyBefore) row.rcaConfidence
        (analyzeIncident localeCompare incident others topology) ↔
      ∀ nodeBefore node, SitsOn topologyBefore before nodeBefore → SitsOn topology incident node →
        (firstDependents topologyBefore nodeBefore).Perm (firstDependents topology node) := by
  obtain ⟨p, hp, -, hsignature⟩ := unchanged_iff.mp (refreshIncidentRca_eq.mp hskip)
  obtain rfl := Option.some.inj (hfindings.symm.trans hp)
  obtain ⟨hverdict, hnode, hroots, himpacted, hsame, hcorrelated, hcount, hfirst⟩ := signature_eq_iff.mp hsignature
  let s₀ : Situation := ⟨before, othersBefore, topologyBefore⟩
  let s : Situation := ⟨incident, others, topology⟩
  have hsub : ∀ (s : Situation) (p : RcaIncident → Bool), s.peers.filter p ⊆ s.others := fun s p =>
    fun o ho => List.mem_of_mem_filter (List.mem_of_mem_filter ho)
  have hsamePerm : ((s₀.sameSource localeCompare).take maxListed).Perm ((s.sameSource localeCompare).take maxListed) :=
    @sortRefs_perm_of_ids localeCompare s₀ s hincident hkeeps _ _ (hsub s₀ _) (hsub s _) maxListed hsame
  have hcorrelatedPerm : ((s₀.correlated localeCompare).take maxListed).Perm ((s.correlated localeCompare).take maxListed) :=
    @sortRefs_perm_of_ids localeCompare s₀ s hincident hkeeps _ _ (hsub s₀ _) (hsub s _) maxListed hcorrelated
  have hmin : ∀ {l l' : List RcaIncidentRef}, (l.take maxListed).Perm (l'.take maxListed) →
      min maxListed l.length = min maxListed l'.length := by
    intro l l' h
    have hlen := h.length_eq
    rwa [List.length_take, List.length_take] at hlen
  have hconf : (analyzeIncident localeCompare before othersBefore topologyBefore).confidence =
      (analyzeIncident localeCompare incident others topology).confidence := by
    have hv : s₀.verdict = s.verdict := hverdict
    have hf : s₀.firstToStart = s.firstToStart := hfirst
    show confidenceOf s₀.verdict _ _ _ _ s₀.firstToStart = confidenceOf s.verdict _ _ _ _ s.firstToStart
    rw [hv, hf]
    exact confidenceOf_congr (min_eq_of_map hroots) (min_eq_of_map himpacted) (hmin hcorrelatedPerm) (hmin hsamePerm)
  -- all but the labels agrees whenever the refresh is skipped
  have hiff : AgreesWith (analyzeIncident localeCompare before othersBefore topologyBefore) row.rcaConfidence
      (analyzeIncident localeCompare incident others topology) ↔
        (analyzeIncident localeCompare before othersBefore topologyBefore).blastRadius.labels.Perm
          (analyzeIncident localeCompare incident others topology).blastRadius.labels := by
    refine ⟨AgreesWith.labels, fun hlabels => ?_⟩
    exact {
      verdict := hverdict
      node := hnode
      confidence := ⟨hconfidence.trans (congrArg some hconf), hconf⟩
      rootCauses := @nodeRefs_same localeCompare s₀ s hincident hkeeps _ _ maxListed hroots
      impacted := @nodeRefs_same localeCompare s₀ s hincident hkeeps _ _ maxListed himpacted
      sameSource := hsamePerm
      correlated := hcorrelatedPerm
      firstToStart := hfirst
      count := hcount
      labels := hlabels }
  rw [hiff]
  have hlabels : ∀ (s : Situation) (self : RcaNode), s.self = some self →
      (s.radius.take maxListed).map s.topology.labelOf = firstDependents s.topology self := by
    intro s self hself
    unfold Situation.radius firstDependents
    rw [hself]
  show ((s₀.radius.take maxListed).map topologyBefore.labelOf).Perm ((s.radius.take maxListed).map topology.labelOf) ↔ _
  constructor
  · intro h nodeBefore node hbefore hnow
    have h₀ := hlabels s₀ nodeBefore (Situation.self_eq_some.mpr hbefore)
    have h₁ := hlabels s node (Situation.self_eq_some.mpr hnow)
    exact h₀ ▸ h₁ ▸ h
  · intro h
    have hselves : s₀.self.map RcaNode.label = s.self.map RcaNode.label := hnode
    cases hself₀ : s₀.self with
    | none =>
        have hself : s.self = none := by
          rw [hself₀] at hselves
          exact Option.map_eq_none_iff.mp hselves.symm
        unfold Situation.radius
        rw [hself₀, hself]
        exact List.Perm.refl _
    | some nodeBefore =>
        have hsome : s.self ≠ none := by
          intro hnone
          rw [hself₀, hnone] at hselves
          cases hselves
        obtain ⟨node, hself⟩ := Option.ne_none_iff_exists'.mp hsome
        have hperm := h nodeBefore node (Situation.self_eq_some.mp hself₀) (Situation.self_eq_some.mp hself)
        rw [← hlabels s₀ nodeBefore hself₀, ← hlabels s node hself] at hperm
        exact hperm

section Witness

/-- One healthy service on the database. -/
def oneOnDb (name : Char) (h : name.isLower = true) (hne : Cuid.ofLetter name h ≠ dbNode.id) (label : String) :
    RcaTopology where
  nodes := [⟨Cuid.ofLetter name h, none, label⟩, dbNode]
  edges := [⟨Cuid.ofLetter name h, dbNode.id⟩]
  ids_nodup := by simpa using hne
  refIds_nodup := by simp [dbNode]

def webOnly : RcaTopology := oneOnDb 'w' isLower_w (by decide) "Web"
def apiOnly : RcaTopology := oneOnDb 'p' isLower_p (by decide) "API"

def dbAnalyzed : RcaRow := .refreshed (analyzeIncident Cuid.codeUnits dbDown [] webOnly) false 0

/-- Without a relevant peer there is nothing to blame. -/
theorem rootCauses_eq_nil {incident : RcaIncident} {others : List RcaIncident} (topology : RcaTopology)
    (h : ∀ o ∈ others, ¬ Relevant incident o) :
    (analyzeIncident Cuid.codeUnits incident others topology).rootCauses = [] := by
  let s : Situation := ⟨incident, others, topology⟩
  have hup : s.failingUpstream = [] := by
    refine not_not.mp fun hne => ?_
    cases hself : s.self with
    | none => exact hne (Situation.failingUpstream_of_none hself)
    | some self =>
        obtain ⟨o, ho, hrelevant, -⟩ := (Situation.failingUpstream_ne_nil hself).mp hne
        exact h o ho hrelevant
  show (s.rootCauses Cuid.codeUnits).take maxListed = []
  unfold Situation.rootCauses
  rw [(Situation.rootCauseNodes_eq_nil Cuid.codeUnits _).mpr hup]
  rfl

theorem dbAnalyzed_unchanged :
    unchanged dbAnalyzed.rcaFindings (analyzeIncident Cuid.codeUnits dbDown [] apiOnly) = true := by
  have hnode : ∀ topology, (analyzeIncident Cuid.codeUnits dbDown [] topology).rootCauses = [] :=
    fun topology => rootCauses_eq_nil topology (by simp)
  refine unchanged_iff.mpr ⟨_, rfl, rfl, signature_eq_iff.mpr ⟨by decide, by decide, ?_, ?_, rfl, rfl, by decide, by decide⟩⟩
  · rw [hnode, hnode]
  · rfl

/-- A day later somebody has acknowledged the incident, the API is on the map, and the web service has failed and
recovered. -/
def dbAcknowledged : RcaIncident := { dbDown with status := .acknowledged }
def webRecovered : RcaIncident := { webDown with status := .resolved, startedAt := 86400000 }

def withApi : RcaTopology where
  nodes := ⟨Cuid.ofLetter 'p' isLower_p, none, "API"⟩ :: webOnly.nodes
  edges := webOnly.edges
  ids_nodup := by decide
  refIds_nodup := by decide

theorem skip_agrees_iff_recovered :
    AgreesWith (analyzeIncident Cuid.codeUnits dbDown [] webOnly) dbAnalyzed.rcaConfidence
      (analyzeIncident Cuid.codeUnits dbAcknowledged [webRecovered] withApi) := by
  have hpast : ∀ o ∈ [webRecovered], ¬ Relevant dbAcknowledged o := by
    intro o ho hrelevant
    obtain rfl := List.mem_singleton.mp ho
    rcases hrelevant with ⟨-, hactive | hclose⟩
    · exact hactive rfl
    · exact absurd hclose (by decide)
  have hskip : (refreshIncidentRca Cuid.codeUnits false dbAcknowledged dbAnalyzed [webRecovered] withApi 90000000
      false).2.2 = false := by
    refine refreshIncidentRca_eq.mpr (unchanged_iff.mpr ⟨_, rfl, rfl, signature_eq_iff.mpr
      ⟨by decide, by decide, ?_, by decide, rfl, rfl, by decide, by decide⟩⟩)
    rw [rootCauses_eq_nil webOnly (by simp), rootCauses_eq_nil withApi hpast]
  refine (skip_agrees_iff Cuid.codeUnits dbDown dbAcknowledged [] [webRecovered] webOnly withApi dbAnalyzed false 90000000 rfl
    (by simp) rfl rfl hskip).mpr fun nodeBefore node hbefore hnow => ?_
  have hdb : SitsOn webOnly dbDown dbNode := ⟨by decide, "db", by decide, rfl, rfl⟩
  have hdb' : SitsOn withApi dbAcknowledged dbNode := ⟨by decide, "db", by decide, rfl, rfl⟩
  rw [hbefore.unique hdb, hnow.unique hdb']
  decide

/-- The one dependent of the database is another one, and nothing is written. -/
theorem skip_keeps_old_labels :
    (refreshIncidentRca Cuid.codeUnits false dbDown dbAnalyzed [] apiOnly 1 false).2.2 = false ∧
      ¬ AgreesWith (analyzeIncident Cuid.codeUnits dbDown [] webOnly) dbAnalyzed.rcaConfidence
        (analyzeIncident Cuid.codeUnits dbDown [] apiOnly) := by
  refine ⟨refreshIncidentRca_eq.mpr dbAnalyzed_unchanged, fun h => ?_⟩
  have hlabels : ["Web"].Perm ["API"] := h.labels
  exact absurd hlabels (by decide)

end Witness

end IkelyaneMonitor.Aiops
