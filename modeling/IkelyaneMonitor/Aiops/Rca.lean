import Mathlib.Data.Char
import Mathlib.Data.List.Lex
import IkelyaneMonitor.Incidents.Tables
import IkelyaneMonitor.Topology.Graph

/-!
# Root-cause analysis (`modules/aiops/rca.ts`)

* `RcaIncident`, `RcaTopology` : incidents and the dependency map, as the analysis is given them;
* `Situation` : what `analyzeIncident` is called with, and what it works out on the way, under the source's names;
* `analyzeIncident` : the findings; `confidenceOf`, in exact arithmetic.
* `SitsOn`, `Relevant` : the node of an incident, and the peers that count, in words of their own; `mem_keys`,
  `mem_failingUpstream`, `mem_failingDependents` : the lists of a situation in these words.
-/

namespace IkelyaneMonitor.Aiops
open IkelyaneMonitor.Topology
open Incidents (IncidentStatus)
open Telemetry (MetricSource MetricType)
open Replay (groupBy members members_groupBy mem_keys_groupBy nodup_keys_groupBy)

/-- An id of the database (`@default(cuid())`): lowercase letters and digits, at least one of them. -/
structure Cuid where
  text : List Char
  nonempty : text ≠ []
  plain : ∀ c ∈ text, c.isLower = true ∨ c.isDigit = true
  deriving DecidableEq

theorem Cuid.ext_text {a b : Cuid} (h : a.text = b.text) : a = b := by
  cases a
  cases b
  cases h
  rfl

/-- The order of the code units, which is the one of `sort()`; for these ids `localeCompare` has it too. -/
def Cuid.codeUnits : Collation Cuid where
  le := fun a b => decide (a.text ≤ b.text)
  total := fun a b => by simpa using le_total a.text b.text
  trans := fun a b c hab hbc => by simpa using le_trans (of_decide_eq_true hab) (of_decide_eq_true hbc)
  antisymm := fun _ _ hab hba => Cuid.ext_text (le_antisymm (of_decide_eq_true hab) (of_decide_eq_true hba))

def correlationWindowMs : Int := 15 * 60 * 1000
def maxListed : Nat := 10

inductive RcaVerdict where
  | symptom | rootCause | isolated | notMapped
  deriving DecidableEq, Repr

structure RcaIncident where
  id : Cuid
  title : String
  status : IncidentStatus
  sourceKind : Option MetricSource
  sourceId : Option String
  sourceLabel : Option String
  metric : Option MetricType
  startedAt : Int
  deriving DecidableEq

structure RcaNode where
  id : Cuid
  refId : Option String
  label : String
  deriving DecidableEq

/-- The map of an organization. Nodes are rows of one table, and no entity has two of them. -/
structure RcaTopology where
  nodes : List RcaNode
  edges : List (DependencyEdge Cuid)
  ids_nodup : (nodes.map RcaNode.id).Nodup
  refIds_nodup : (nodes.filterMap RcaNode.refId).Nodup

structure RcaIncidentRef where
  incidentId : Cuid
  title : String
  sourceLabel : Option String
  metric : Option MetricType
  offsetSec : Int
  deriving DecidableEq

/-- A node of `rootCauses` or `impacted`. -/
structure RcaNodeRef where
  label : String
  incidents : List RcaIncidentRef
  deriving DecidableEq

structure RcaBlastRadius where
  count : Nat
  labels : List String
  deriving DecidableEq

structure RcaFindings where
  version : Nat
  verdict : RcaVerdict
  node : Option String
  rootCauses : List RcaNodeRef
  impacted : List RcaNodeRef
  blastRadius : RcaBlastRadius
  sameSource : List RcaIncidentRef
  correlated : List RcaIncidentRef
  firstToStart : Bool
  confidence : ℚ
  deriving DecidableEq

/-- `Math.round(ms / 1000)`: halves go up. -/
def roundSec (ms : Int) : Int := (ms + 500) / 1000

def ref (incident origin : RcaIncident) : RcaIncidentRef :=
  ⟨incident.id, incident.title, incident.sourceLabel, incident.metric, roundSec (incident.startedAt - origin.startedAt)⟩

def byOffset (localeCompare : Collation Cuid) (a b : RcaIncidentRef) : Bool :=
  decide (|a.offsetSec| < |b.offsetSec|) ||
    (decide (|a.offsetSec| = |b.offsetSec|) && localeCompare.le a.incidentId b.incidentId)

def confidenceOf (verdict : RcaVerdict) (roots impacted correlated sameSource : Nat) (first : Bool) : ℚ :=
  match verdict with
  | .symptom => if roots = 1 then 8 / 10 else 6 / 10
  | .rootCause => min (9 / 10) (7 / 10 + 5 / 100 * impacted + if first then 5 / 100 else 0)
  | .isolated => if 0 < correlated then 35 / 100 else 5 / 10 + if 0 < sameSource then 1 / 10 else 0
  | .notMapped => if 0 < correlated ∨ 0 < sameSource then 3 / 10 else 2 / 10

/-! ## The map -/

/-- `new Map(entries).get(key)`: the last entry of a key. -/
def mapGet {κ ν : Type} [DecidableEq κ] (entries : List (κ × ν)) (key : κ) : Option ν :=
  (entries.reverse.find? fun e => e.1 = key).map Prod.snd

/-- A text in a condition: the empty one counts as none. -/
def truthy (text : Option String) : Option String := text.filter fun t => t ≠ ""

namespace RcaTopology
variable (topology : RcaTopology)

/-- The nodes by `refId`. -/
def nodeByRef : List (String × RcaNode) := topology.nodes.filterMap fun n => (truthy n.refId).map fun r => (r, n)

/-- `sourceId ? nodeByRef.get(sourceId) : undefined`. -/
def nodeOf (sourceId : Option String) : Option RcaNode := (truthy sourceId).bind (mapGet topology.nodeByRef)

/-- `labelOf.get(node) ?? node`. -/
def labelOf (node : Cuid) : String :=
  (mapGet (topology.nodes.map fun n => (n.id, n.label)) node).getD (String.ofList node.text)

end RcaTopology

/-! ## The analysis -/

structure Situation where
  incident : RcaIncident
  others : List RcaIncident
  topology : RcaTopology

namespace Situation
variable (localeCompare : Collation Cuid) (s : Situation)

def peers : List RcaIncident := s.others.filter fun other => other.id ≠ s.incident.id

def inWindow (other : RcaIncident) : Bool := decide (|other.startedAt - s.incident.startedAt| ≤ correlationWindowMs)

def active (other : RcaIncident) : Bool := other.status != .resolved

/-- `active(other) || inWindow(other)`. -/
def counts (other : RcaIncident) : Bool := active other || s.inWindow other

def self : Option RcaNode := s.topology.nodeOf s.incident.sourceId

/-- The peers that count, with the node each is on. -/
def placed : List (Cuid × RcaIncident) :=
  (s.peers.filter s.counts).filterMap fun other => (s.topology.nodeOf other.sourceId).map fun node => (node.id, other)

def incidentsByNode : List (Cuid × List RcaIncident) := groupBy Prod.fst Prod.snd s.placed

/-- `unhealthy.add(self.id)`: a set keeps the place of what it has. -/
def unhealthy (self : RcaNode) : List Cuid :=
  let keys := s.incidentsByNode.map Prod.fst
  if self.id ∈ keys then keys else keys ++ [self.id]

def sortRefs (incidents : List RcaIncident) : List RcaIncidentRef :=
  (incidents.map fun other => ref other s.incident).mergeSort (byOffset localeCompare)

def sameSource : List RcaIncidentRef :=
  s.sortRefs localeCompare (s.peers.filter fun o => o.sourceId.isSome && o.sourceId == s.incident.sourceId && s.counts o)

def radius : List Cuid :=
  match s.self with
  | none => []
  | some self => blastRadius s.topology.edges self.id

def failingUpstream : List Cuid :=
  match s.self with
  | none => []
  | some self => (dependenciesOf s.topology.edges self.id).filter fun node => node ∈ s.unhealthy self ∧ node ≠ self.id

def failingDependents : List Cuid :=
  match s.self with
  | none => []
  | some self => s.radius.filter fun node => node ∈ s.unhealthy self

def verdict : RcaVerdict :=
  match s.self with
  | none => .notMapped
  | some _ => if s.failingUpstream ≠ [] then .symptom else if s.failingDependents ≠ [] then .rootCause else .isolated

def roots : List Cuid :=
  match s.self with
  | none => []
  | some self =>
      (rootCauseCandidates localeCompare s.topology.edges (s.unhealthy self)).filter fun node => node ∈ s.failingUpstream

/-- `roots.length > 0 ? roots : failingUpstream`. -/
def rootCauseNodes : List Cuid := if s.roots localeCompare ≠ [] then s.roots localeCompare else s.failingUpstream

def nodeRef (node : Cuid) : RcaNodeRef :=
  ⟨s.topology.labelOf node, s.sortRefs localeCompare (members s.incidentsByNode node)⟩

def rootCauses : List RcaNodeRef := (s.rootCauseNodes localeCompare).map (s.nodeRef localeCompare)

def impacted : List RcaNodeRef := s.failingDependents.map (s.nodeRef localeCompare)

def linkedIds : List Cuid :=
  (s.sameSource localeCompare).map RcaIncidentRef.incidentId ++
    (s.failingUpstream.flatMap fun node => (members s.incidentsByNode node).map RcaIncident.id) ++
    (s.rootCauses localeCompare ++ s.impacted localeCompare).flatMap fun r => r.incidents.map RcaIncidentRef.incidentId

def correlated : List RcaIncidentRef :=
  s.sortRefs localeCompare (s.peers.filter fun o => s.inWindow o && decide (o.id ∉ s.linkedIds localeCompare))

def firstToStart : Bool := (s.peers.filter s.inWindow).all fun o => decide (s.incident.startedAt ≤ o.startedAt)

end Situation

/-- The lists of a situation, cut to what is shown. -/
def analyzeIncident (localeCompare : Collation Cuid) (incident : RcaIncident) (others : List RcaIncident)
    (topology : RcaTopology) : RcaFindings :=
  let s : Situation := ⟨incident, others, topology⟩
  { version := 1
    verdict := s.verdict
    node := s.self.map RcaNode.label
    rootCauses := (s.rootCauses localeCompare).take maxListed
    impacted := (s.impacted localeCompare).take maxListed
    blastRadius := ⟨s.radius.length, (s.radius.take maxListed).map topology.labelOf⟩
    sameSource := (s.sameSource localeCompare).take maxListed
    correlated := (s.correlated localeCompare).take maxListed
    firstToStart := s.firstToStart
    confidence := confidenceOf s.verdict (s.rootCauses localeCompare).length (s.impacted localeCompare).length
      (s.correlated localeCompare).length (s.sameSource localeCompare).length s.firstToStart }

/-! ## What the lists hold -/

/-- The incident is about the entity that the node stands for. -/
def SitsOn (topology : RcaTopology) (incident : RcaIncident) (node : RcaNode) : Prop :=
  node ∈ topology.nodes ∧ ∃ r, r ≠ "" ∧ incident.sourceId = some r ∧ node.refId = some r

/-- Another incident that is unresolved or started about when this one did. -/
def Relevant (incident other : RcaIncident) : Prop :=
  other.id ≠ incident.id ∧
    (other.status ≠ .resolved ∨ |other.startedAt - incident.startedAt| ≤ correlationWindowMs)

theorem mapGet_eq_some {κ ν : Type} [DecidableEq κ] {entries : List (κ × ν)} (h : (entries.map Prod.fst).Nodup)
    {k : κ} {v : ν} : mapGet entries k = some v ↔ (k, v) ∈ entries := by
  have hrev : (entries.reverse.map Prod.fst).Nodup := by
    rw [List.map_reverse]
    exact List.nodup_reverse.mpr h
  unfold mapGet
  constructor
  · intro hget
    obtain ⟨e, he, rfl⟩ := Option.map_eq_some_iff.mp hget
    have hk : e.1 = k := by simpa using List.find?_some he
    rw [← hk]
    exact List.mem_reverse.mp (List.mem_of_find?_eq_some he)
  · intro hmem
    have hfound := Replay.lookup_of_mem hrev (List.mem_reverse.mpr hmem)
    unfold Replay.lookup at hfound
    rw [hfound]
    rfl

namespace RcaTopology
variable {topology : RcaTopology}

theorem nodup_nodeByRef (topology : RcaTopology) : (topology.nodeByRef.map Prod.fst).Nodup := by
  have hrefs : topology.nodeByRef.map Prod.fst = (topology.nodes.filterMap RcaNode.refId).filter fun r => r ≠ "" := by
    unfold nodeByRef
    induction topology.nodes with
    | nil => rfl
    | cons n nodes ih =>
        cases hr : n.refId with
        | none => simpa [List.filterMap_cons, hr, truthy] using ih
        | some r =>
            by_cases h : r = ""
            · simpa [List.filterMap_cons, hr, truthy, h] using ih
            · simpa [List.filterMap_cons, hr, truthy, h] using ih
  rw [hrefs]
  exact topology.refIds_nodup.filter _

theorem nodeOf_eq_some {incident : RcaIncident} {node : RcaNode} :
    topology.nodeOf incident.sourceId = some node ↔ SitsOn topology incident node := by
  have htruthy : ∀ (text : Option String) (r : String), truthy text = some r ↔ text = some r ∧ r ≠ "" := by
    intro text r
    cases text with
    | none => simp [truthy]
    | some t =>
        by_cases h : t = ""
        · simp [truthy, h]
        · simp only [truthy, Option.filter_some, h, ne_eq, not_false_eq_true, decide_true, if_true, Option.some.injEq]
          exact ⟨fun heq => ⟨heq, heq ▸ h⟩, fun heq => heq.1⟩
  unfold nodeOf SitsOn
  rw [Option.bind_eq_some_iff]
  constructor
  · rintro ⟨r, hr, hget⟩
    rw [mapGet_eq_some topology.nodup_nodeByRef] at hget
    obtain ⟨n, hn, hnr⟩ := List.mem_filterMap.mp hget
    obtain ⟨r', hr', hpair⟩ := Option.map_eq_some_iff.mp hnr
    obtain ⟨rfl, rfl⟩ := Prod.mk.inj hpair
    exact ⟨hn, r', ((htruthy _ _).mp hr).2, ((htruthy _ _).mp hr).1, ((htruthy _ _).mp hr').1⟩
  · rintro ⟨hn, r, hne, hsource, href⟩
    refine ⟨r, (htruthy _ _).mpr ⟨hsource, hne⟩, (mapGet_eq_some topology.nodup_nodeByRef).mpr ?_⟩
    refine List.mem_filterMap.mpr ⟨node, hn, ?_⟩
    rw [(htruthy _ _).mpr ⟨href, hne⟩]
    rfl

theorem eq_of_id (topology : RcaTopology) {m n : RcaNode} (hm : m ∈ topology.nodes) (hn : n ∈ topology.nodes)
    (h : m.id = n.id) : m = n := List.inj_on_of_nodup_map topology.ids_nodup hm hn h

end RcaTopology

theorem SitsOn.unique {topology : RcaTopology} {incident : RcaIncident} {m n : RcaNode} (hm : SitsOn topology incident m)
    (hn : SitsOn topology incident n) : m = n :=
  Option.some.inj ((RcaTopology.nodeOf_eq_some.mpr hm).symm.trans (RcaTopology.nodeOf_eq_some.mpr hn))

namespace Situation
variable {s : Situation} {self : RcaNode} {other : RcaIncident} {node : Cuid}

theorem self_eq_some : s.self = some self ↔ SitsOn s.topology s.incident self := RcaTopology.nodeOf_eq_some

theorem self_eq_none : s.self = none ↔ ∀ node, ¬ SitsOn s.topology s.incident node := by
  rw [Option.eq_none_iff_forall_ne_some]
  exact forall_congr' fun node => not_congr self_eq_some

theorem counts_iff : other ∈ s.peers ∧ s.counts other = true ↔ other ∈ s.others ∧ Relevant s.incident other := by
  unfold peers counts active inWindow Relevant
  simp [and_assoc]

theorem mem_placed : (node, other) ∈ s.placed ↔
    other ∈ s.others ∧ Relevant s.incident other ∧ ∃ n, SitsOn s.topology other n ∧ n.id = node := by
  unfold placed
  rw [List.mem_filterMap]
  constructor
  · rintro ⟨o, ho, hnode⟩
    obtain ⟨n, hn, hpair⟩ := Option.map_eq_some_iff.mp hnode
    obtain ⟨rfl, rfl⟩ := Prod.mk.inj hpair
    obtain ⟨hmem, hrel⟩ := counts_iff.mp (List.mem_filter.mp ho)
    exact ⟨hmem, hrel, n, RcaTopology.nodeOf_eq_some.mp hn, rfl⟩
  · rintro ⟨hmem, hrel, n, hn, rfl⟩
    refine ⟨other, List.mem_filter.mpr (counts_iff.mpr ⟨hmem, hrel⟩), ?_⟩
    rw [RcaTopology.nodeOf_eq_some.mpr hn]
    rfl

/-- The incidents of a node. -/
theorem mem_incidentsOf : other ∈ members s.incidentsByNode node ↔
    other ∈ s.others ∧ Relevant s.incident other ∧ ∃ n, SitsOn s.topology other n ∧ n.id = node := by
  unfold incidentsByNode
  rw [members_groupBy, ← mem_placed]
  simp

theorem mem_keys : node ∈ s.incidentsByNode.map Prod.fst ↔
    ∃ o ∈ s.others, Relevant s.incident o ∧ ∃ n, SitsOn s.topology o n ∧ n.id = node := by
  unfold incidentsByNode
  rw [mem_keys_groupBy]
  constructor
  · rintro ⟨⟨k, o⟩, he, rfl⟩
    exact ⟨o, mem_placed.mp he⟩
  · rintro ⟨o, ho⟩
    exact ⟨(node, o), mem_placed.mpr ho, rfl⟩

theorem mem_unhealthy : node ∈ s.unhealthy self ↔ node = self.id ∨ node ∈ s.incidentsByNode.map Prod.fst := by
  unfold unhealthy
  dsimp only
  split
  · rename_i hself
    exact ⟨.inr, fun h => h.elim (fun heq => heq ▸ hself) id⟩
  · rw [List.mem_append, List.mem_singleton, or_comm]

theorem nodup_unhealthy (s : Situation) (self : RcaNode) : (s.unhealthy self).Nodup := by
  have hkeys : (s.incidentsByNode.map Prod.fst).Nodup := nodup_keys_groupBy _
  unfold unhealthy
  dsimp only
  split
  · exact hkeys
  · rename_i hself
    refine List.nodup_append.mpr ⟨hkeys, List.nodup_singleton _, ?_⟩
    rintro a ha b hb rfl
    exact hself (List.mem_singleton.mp hb ▸ ha)

/-- Some incident that counts is on the node. -/
def Fails (s : Situation) (node : Cuid) : Prop :=
  ∃ o ∈ s.others, Relevant s.incident o ∧ ∃ n, SitsOn s.topology o n ∧ n.id = node

theorem mem_failingUpstream (hself : s.self = some self) :
    node ∈ s.failingUpstream ↔ node ≠ self.id ∧ s.Fails node ∧ DependsOn s.topology.edges self.id node := by
  unfold failingUpstream Fails
  rw [hself, List.mem_filter, decide_eq_true_eq, mem_dependenciesOf, mem_unhealthy, mem_keys]
  constructor
  · rintro ⟨⟨hne, hdep⟩, hfail, -⟩
    exact ⟨hne, hfail.resolve_left hne, hdep⟩
  · rintro ⟨hne, hfail, hdep⟩
    exact ⟨⟨hne, hdep⟩, .inr hfail, hne⟩

theorem mem_failingDependents (hself : s.self = some self) :
    node ∈ s.failingDependents ↔ node ≠ self.id ∧ s.Fails node ∧ DependsOn s.topology.edges node self.id := by
  unfold failingDependents radius Fails
  rw [hself, List.mem_filter, decide_eq_true_eq]
  dsimp only
  rw [mem_blastRadius, mem_unhealthy, mem_keys]
  constructor
  · rintro ⟨⟨hne, hdep⟩, hfail⟩
    exact ⟨hne, hfail.resolve_left hne, hdep⟩
  · rintro ⟨hne, hfail, hdep⟩
    exact ⟨⟨hne, hdep⟩, .inr hfail⟩

theorem failingUpstream_of_none (h : s.self = none) : s.failingUpstream = [] := by
  unfold failingUpstream
  rw [h]

theorem failingDependents_of_none (h : s.self = none) : s.failingDependents = [] := by
  unfold failingDependents
  rw [h]

theorem verdict_of_none (h : s.self = none) : s.verdict = .notMapped := by
  unfold verdict
  rw [h]

theorem verdict_of_some (h : s.self = some self) :
    s.verdict = if s.failingUpstream ≠ [] then .symptom else if s.failingDependents ≠ [] then .rootCause else .isolated := by
  unfold verdict
  rw [h]

theorem rootCauseNodes_subset (localeCompare : Collation Cuid) (s : Situation) :
    s.rootCauseNodes localeCompare ⊆ s.failingUpstream := by
  intro node hnode
  unfold rootCauseNodes at hnode
  split at hnode
  · unfold roots at hnode
    cases hself : s.self with
    | none => simp [hself] at hnode
    | some self =>
        rw [hself] at hnode
        exact of_decide_eq_true (List.mem_filter.mp hnode).2
  · exact hnode

theorem rootCauseNodes_eq_nil (localeCompare : Collation Cuid) (s : Situation) :
    s.rootCauseNodes localeCompare = [] ↔ s.failingUpstream = [] := by
  constructor
  · intro h
    unfold rootCauseNodes at h
    split at h
    · rename_i hroots
      exact absurd h hroots
    · exact h
  · intro h
    have hsub := rootCauseNodes_subset localeCompare s
    rw [h] at hsub
    exact List.subset_nil.mp hsub

end Situation

end IkelyaneMonitor.Aiops
