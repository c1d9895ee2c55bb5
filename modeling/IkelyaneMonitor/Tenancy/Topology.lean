import IkelyaneMonitor.Tenancy.Calls

/-!
# The dependency map (`modules/topology/service.ts`)

* `createNode`, `deleteNode`, `updateNodePosition`, `updateNodePositions`, `createDependency`, `deleteDependency`,
  `listTopology` : the functions of the module that work on the map;
* one lemma for each: it stays within the organization of its requester.
-/

namespace IkelyaneMonitor.Tenancy
open Interleave Relational
open Auth (can)
open Remediation (JsonValue)

inductive TopologyWriteError where
  | forbidden | invalidRef | alreadyExists | notFound
  deriving DecidableEq, Repr

structure CreateNodeInput where
  kind : TopologyNodeKind
  refId : Option Nat
  label : String
  positionX : ℚ
  positionY : ℚ

structure CreateDependencyInput where
  parentNodeId : Nat
  childNodeId : Nat
  kind : DependencyKind
  criticality : Alerts.Severity
  label : Option String

structure TopologyGraph where
  nodes : List TopologyNode
  edges : List ServiceDependency

def TopologyNodeKind.text : TopologyNodeKind → String
  | .host => "HOST"
  | .networkDevice => "NETWORK_DEVICE"
  | .database => "DATABASE"
  | .endpoint => "ENDPOINT"
  | .service => "SERVICE"
  | .external => "EXTERNAL"

/-- Not backed by an entity. -/
def TopologyNodeKind.isLogical (kind : TopologyNodeKind) : Bool := kind == .service || kind == .external

def maxLayoutNodes : Nat := 500

/-- The two queries are sent together, and may run in either order. -/
def listTopology (actor : Requester) (nodesFirst : Bool) : DbCall (Outcome ReadError TopologyGraph) :=
  let nodesOf (s : Db) := (topologyNode.findMany s fun n => n.orgId == actor.orgId).insertionSort fun a b =>
    a.createdAt ≤ b.createdAt
  let edgesOf (s : Db) := serviceDependency.findMany s fun e => e.orgId == actor.orgId
  if !can actor.role .topologyRead then .ret (.fail .forbidden)
  else if nodesFirst then read nodesOf fun nodes => read edgesOf fun edges => .ret (.ok ⟨nodes, edges⟩)
  else read edgesOf fun edges => read nodesOf fun nodes => .ret (.ok ⟨nodes, edges⟩)

def refExists {α : Type} (orgId : Nat) (kind : TopologyNodeKind) (refId : Nat) (k : Bool → DbCall α) : DbCall α :=
  match kind with
  | .host => read (fun s => (monitoredHost.findFirst s fun r => r.id == refId && r.orgId == orgId).isSome) k
  | .networkDevice => read (fun s => (networkDevice.findFirst s fun r => r.id == refId && r.orgId == orgId).isSome) k
  | .database => read (fun s => (databaseInstance.findFirst s fun r => r.id == refId && r.orgId == orgId).isSome) k
  | .endpoint => read (fun s => (endpointCheck.findFirst s fun r => r.id == refId && r.orgId == orgId).isSome) k
  | .service | .external => k false

def CreateNodeInput.row (input : CreateNodeInput) (refId : Option Nat) (orgId : Nat) (draws : Draws) : TopologyNode where
  id := draws.id
  orgId := orgId
  kind := input.kind
  refId := refId
  label := input.label
  positionX := input.positionX
  positionY := input.positionY
  createdAt := draws.now

def saveNode (actor : Requester) (draws : Draws) (input : CreateNodeInput) (refId : Option Nat) :
    DbCall (Outcome TopologyWriteError Nat) :=
  audited (topologyNode.create (input.row refId actor.orgId draws))
    (recordAudit actor draws ⟨.node, .created⟩ draws.id
      (some (.obj [("kind", .str input.kind.text), ("label", .str input.label)]))) fun _ => .ok draws.id

def createNode (actor : Requester) (draws : Draws) (input : CreateNodeInput) : DbCall (Outcome TopologyWriteError Nat) :=
  if !can actor.role .topologyWrite then .ret (.fail .forbidden)
  else if input.kind.isLogical then saveNode actor draws input none
  else
    match input.refId with
    | none => .ret (.fail .invalidRef)
    | some refId =>
      refExists actor.orgId input.kind refId fun found =>
        if !found then .ret (.fail .invalidRef)
        else
          read (fun s => (topologyNode.findFirst s fun n =>
              n.orgId == actor.orgId && n.kind == input.kind && n.refId == some refId).isSome) fun existing =>
            if existing then .ret (.fail .alreadyExists) else saveNode actor draws input (some refId)

def deleteNode (actor : Requester) (draws : Draws) (id : Nat) : DbCall (Outcome TopologyWriteError Unit) :=
  if !can actor.role .topologyWrite then .ret (.fail .forbidden)
  else
    audited (topologyNode.deleteMany id fun n => n.orgId == actor.orgId)
      (recordAudit actor draws ⟨.node, .deleted⟩ id none) (counted .notFound)

def moveNode (orgId id : Nat) (positionX positionY : ℚ) : Write Row Key :=
  topologyNode.updateMany id (fun n => n.orgId == orgId) fun n => { n with positionX := positionX, positionY := positionY }

def updateNodePosition (actor : Requester) (id : Nat) (positionX positionY : ℚ) : DbCall (Outcome TopologyWriteError Unit) :=
  if !can actor.role .topologyWrite then .ret (.fail .forbidden)
  else unaudited (moveNode actor.orgId id positionX positionY) (counted .notFound)

structure NodePosition where
  id : Nat
  x : ℚ
  y : ℚ

/-- One transaction. Ids of another organization are skipped. -/
def updateNodePositions (actor : Requester) (positions : List NodePosition) : DbCall (Outcome TopologyWriteError Nat) :=
  if !can actor.role .topologyWrite then .ret (.fail .forbidden)
  else if maxLayoutNodes < positions.length then .ret (.fail .invalidRef)
  else
    schema.commit (positions.map fun p => moveNode actor.orgId p.id p.x p.y) none fun n => .ret (n.elim .thrown .ok)

def CreateDependencyInput.row (input : CreateDependencyInput) (orgId : Nat) (draws : Draws) : ServiceDependency where
  id := draws.id
  orgId := orgId
  parentNodeId := input.parentNodeId
  childNodeId := input.childNodeId
  kind := input.kind
  criticality := input.criticality
  label := truthy input.label

def createDependency (actor : Requester) (draws : Draws) (input : CreateDependencyInput) :
    DbCall (Outcome TopologyWriteError Nat) :=
  if !can actor.role .topologyWrite then .ret (.fail .forbidden)
  else if input.parentNodeId = input.childNodeId then .ret (.fail .invalidRef)
  else
    read (fun s => (topologyNode.findFirst s fun n => n.id == input.parentNodeId && n.orgId == actor.orgId).isSome)
      fun parent =>
      read (fun s => (topologyNode.findFirst s fun n => n.id == input.childNodeId && n.orgId == actor.orgId).isSome)
        fun child =>
        if !parent || !child then .ret (.fail .invalidRef)
        else
          -- by the nodes alone, whatever the organization
          read (fun s => (serviceDependency.findFirst s fun e => e.parentNodeId == input.parentNodeId &&
              e.childNodeId == input.childNodeId && e.kind == input.kind).isSome) fun existing =>
            if existing then .ret (.fail .alreadyExists)
            else
              audited (serviceDependency.create (input.row actor.orgId draws))
                (recordAudit actor draws ⟨.dependency, .created⟩ draws.id none) fun _ => .ok draws.id

def deleteDependency (actor : Requester) (draws : Draws) (id : Nat) : DbCall (Outcome TopologyWriteError Unit) :=
  if !can actor.role .topologyWrite then .ret (.fail .forbidden)
  else
    audited (serviceDependency.deleteMany id fun e => e.orgId == actor.orgId)
      (recordAudit actor draws ⟨.dependency, .deleted⟩ id none) (counted .notFound)

/-! ## Within the organization -/

variable {α : Type} {d : Nat} {P : Db → Prop} (actor : Requester) (draws : Draws)

theorem Confined.refExists {kind : TopologyNodeKind} {refId : Nat} {k : Bool → DbCall α} (hP : Steady P)
    (hk : ∀ b, Confined d (fun s => P s ∧ (b = true → Knows d (kind.table.elim [] fun table => [(table, refId)]) s)) (k b)) :
    Confined d P (Tenancy.refExists d kind refId k) := by
  cases kind with
  | host => exact .exists monitoredHost hP (fun x hx => by simpa [monitoredHost] using hx) hk
  | networkDevice => exact .exists networkDevice hP (fun x hx => by simpa [networkDevice] using hx) hk
  | database => exact .exists databaseInstance hP (fun x hx => by simpa [databaseInstance] using hx) hk
  | endpoint => exact .exists endpointCheck hP (fun x hx => by simpa [endpointCheck] using hx) hk
  | service => exact (hk false).mono fun s hs => ⟨hs, fun h => by cases h⟩
  | external => exact (hk false).mono fun s hs => ⟨hs, fun h => by cases h⟩

theorem listTopology_confined (nodesFirst : Bool) : Confined actor.orgId (fun _ => True) (listTopology actor nodesFirst) := by
  have hnodes : ∀ s t, Alike schema AuditLog.orgId actor.orgId s t →
      topologyNode.findMany t (fun n => n.orgId == actor.orgId) = topologyNode.findMany s fun n => n.orgId == actor.orgId :=
    fun s t halike => topologyNode.findMany_alike halike fun x hx => eq_of_beq hx
  have hedges : ∀ s t, Alike schema AuditLog.orgId actor.orgId s t →
      serviceDependency.findMany t (fun e => e.orgId == actor.orgId) =
        serviceDependency.findMany s fun e => e.orgId == actor.orgId :=
    fun s t halike => serviceDependency.findMany_alike halike fun x hx => eq_of_beq hx
  refine .ite (fun _ => .ret _) fun _ => .ite (fun _ => ?_) fun _ => ?_
  · exact .look Steady.true (fun s t h => by rw [hnodes s t h]) fun _ => .look Steady.true hedges fun _ => .ret _
  · exact .look Steady.true hedges fun _ => .look Steady.true (fun s t h => by rw [hnodes s t h]) fun _ => .ret _

theorem saveNode_confined {input : CreateNodeInput} {refId : Option Nat}
    (hP : ∀ s, P s → Knows actor.orgId (input.kind.table.elim [] fun table => refTo table refId) s) :
    Confined actor.orgId P (saveNode actor draws input refId) :=
  .audited (fun s _ hs => topologyNode.within_create rfl (fun k hk => by simp [topologyNode, Row.refs] at hk) (hP s hs)) rfl

theorem createNode_confined (input : CreateNodeInput) :
    Confined actor.orgId (fun _ => True) (createNode actor draws input) := by
  refine .ite (fun _ => .ret _) fun _ => .ite (fun _ => saveNode_confined actor draws fun s _ => ?_) fun _ => ?_
  · intro k hk
    cases htable : input.kind.table with
    | none => simp [htable] at hk
    | some table => simp [htable, refTo] at hk
  split
  · exact .ret _
  · rename_i refId _
    refine .refExists Steady.true fun found => .ite (fun _ => .ret _) fun hfound =>
      .mono (P := Knows actor.orgId (input.kind.table.elim [] fun table => [(table, refId)]))
        (fun s hs => hs.2 (by simpa using hfound)) ?_
    refine .look (Steady.knows _ _) (fun s t halike => ?_) fun existing => .ite (fun _ => .ret _) fun _ =>
      saveNode_confined actor draws fun s hs => hs
    rw [topologyNode.findFirst_alike halike fun x hx => by simp_all [topologyNode]]

theorem deleteNode_confined (id : Nat) : Confined actor.orgId (fun _ => True) (deleteNode actor draws id) :=
  .ite (fun _ => .ret _) fun _ => .audited (fun _ _ _ => topologyNode.within_delete fun _ hx => eq_of_beq hx) rfl

theorem moveNode_within (orgId id : Nat) (x y : ℚ) (rows : List Row) (drawn : List Key) :
    schema.Within orgId rows drawn (moveNode orgId id x y) :=
  topologyNode.within_edit (fun _ hx => eq_of_beq hx) (fun _ => rfl) (fun _ => rfl) (fun _ => rfl) fun _ => rfl

theorem updateNodePosition_confined (id : Nat) (x y : ℚ) :
    Confined actor.orgId (fun _ => True) (updateNodePosition actor id x y) :=
  .ite (fun _ => .ret _) fun _ => .unaudited fun _ _ _ => moveNode_within _ _ _ _ _ _

theorem updateNodePositions_confined (positions : List NodePosition) :
    Confined actor.orgId (fun _ => True) (updateNodePositions actor positions) := by
  refine .ite (fun _ => .ret _) fun _ => .ite (fun _ => .ret _) fun _ =>
    .commit (fun s _ _ => .of_forall fun w hw rows drawn => ?_)
    (fun _ he => by cases he) fun _ => .ret _
  obtain ⟨p, -, rfl⟩ := List.mem_map.mp hw
  exact moveNode_within _ _ _ _ _ _

theorem createDependency_confined (input : CreateDependencyInput) :
    Confined actor.orgId (fun _ => True) (createDependency actor draws input) := by
  refine .ite (fun _ => .ret _) fun _ => .ite (fun _ => .ret _) fun _ => ?_
  refine .exists topologyNode Steady.true (fun x hx => by simpa [topologyNode] using hx) fun parent => ?_
  refine .exists topologyNode (Steady.true.and (Steady.knows _ _).imp) (fun x hx => by simpa [topologyNode] using hx)
    fun child => .ite (fun _ => .ret _) fun hboth => ?_
  simp only [Bool.or_eq_true, Bool.not_eq_true', not_or, Bool.not_eq_false] at hboth
  let ends : List Key := [(.node, input.parentNodeId), (.node, input.childNodeId)]
  refine .mono (P := Knows actor.orgId ends) (fun s hs k hk => ?_) ?_
  · rcases List.mem_cons.mp hk with rfl | hk
    · exact hs.1.2 hboth.1 _ List.mem_cons_self
    · exact hs.2 hboth.2 k hk
  -- a dependency of a node is of the organization of the node
  have hscope : ∀ u, Knows actor.orgId ends u → schema.Sound u.rows u.drawn →
      (serviceDependency.findFirst u fun e => e.parentNodeId == input.parentNodeId && e.childNodeId == input.childNodeId &&
        e.kind == input.kind) = serviceDependency.findFirst u fun e => e.parentNodeId == input.parentNodeId &&
          e.childNodeId == input.childNodeId && e.kind == input.kind && e.orgId == actor.orgId := by
    intro u hknows hu
    refine List.find?_congr fun e he => ?_
    by_cases hp : e.parentNodeId = input.parentNodeId
    · obtain ⟨q, hq, hqk, hqo⟩ := hu.refs _ (serviceDependency.mem_all.mp he) (.node, e.parentNodeId) List.mem_cons_self
      have hown : e.orgId = actor.orgId :=
        hqo.symm.trans ((hknows _ List.mem_cons_self).2 q hq (hqk.trans (by rw [hp])))
      simp [hown]
    · simp [hp]
  refine .read (Q := fun _ => Knows actor.orgId ends) (fun s t hs ht hsound htsound halike => ?_) (fun _ _ hs => hs)
    (fun _ => Steady.knows _ _) fun existing => .ite (fun _ => .ret _) fun _ => .audited (fun s _ hs => ?_) rfl
  · rw [hscope s hs hsound, hscope t ht htsound,
      serviceDependency.findFirst_alike halike fun x hx => by simp_all [serviceDependency]]
  · exact serviceDependency.within_create rfl hs fun k hk => by simp [serviceDependency, Row.names] at hk

theorem deleteDependency_confined (id : Nat) : Confined actor.orgId (fun _ => True) (deleteDependency actor draws id) :=
  .ite (fun _ => .ret _) fun _ => .audited (fun _ _ _ => serviceDependency.within_delete fun _ hx => eq_of_beq hx) rfl

end IkelyaneMonitor.Tenancy
