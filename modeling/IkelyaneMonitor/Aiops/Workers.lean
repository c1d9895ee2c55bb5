import Mathlib
import IkelyaneMonitor.Interleave.Faults
import IkelyaneMonitor.Aiops.Narrative

/-!
# Workers, refreshes and the clock (`modules/aiops/rca-llm.ts`)

The calls of `Narrative` again, with a clock that they read and that runs between any two steps, and with the calls to the
model as steps of their own.

* `World`, `Act`, `sem` : the incidents, the time and what the model was asked. `World.held` records the leases that were won
  and not ended: no function reads it;
* `claimNarrativeRequests`, `serveNarrative`, `Op.call` : one round of a worker, a refresh; `Op.crashing` stops a call before
  any of its steps;
* `protects` : the steps that leave a lease to the findings it was taken for; `finishes` : those that do not lose the last
  attempt.
-/

namespace IkelyaneMonitor.Aiops.Workers
open Interleave IkelyaneMonitor.Topology
open RcaLlm (Store Stmt IncidentRow Claimed Narrative NarrativeInput ModelReply Served maxAttempts settleMs leaseMs
  buildNarrativeInput requestNarrative candidates)
open Alerts (Severity)
open Incidents (IncidentStatus)

/-- The times of the findings of an incident, the last ones first. -/
def history (s : Store) (id : Cuid) : List (Option Int) := (s.versions.filter fun v => v.1 = id).map Prod.snd

/-- Findings are numbered as they are written. -/
def version (s : Store) (id : Cuid) : Nat := (history s id).length

/-- A row that was claimed, with the number of its findings: a record of the run that no function reads. -/
structure Claim where
  id : Cuid
  rcaGeneratedAt : Option Int
  rcaLlmAttempts : Nat
  version : Nat
  deriving DecidableEq

def Claim.claimed (c : Claim) : Claimed := ⟨c.id, c.rcaGeneratedAt, c.rcaLlmAttempts⟩

/-- What a row is claimed as. -/
def claimOf (s : Store) (r : IncidentRow) : Claim := ⟨r.id, r.rca.rcaGeneratedAt, r.rca.rcaLlmAttempts, version s r.id⟩

/-- A lease that was won and not ended, and what its worker read of the row, if it did. -/
structure Held (ι : Type) where
  worker : ι
  id : Cuid
  lease : Int
  claim : Option Claim
  deriving DecidableEq

structure World (ι : Type) where
  db : Store
  now : Int
  held : List (Held ι)
  /-- The calls of the model, each with the claim it was made for. -/
  asked : List Claim

/-- The steps of `serveNarrative`. -/
inductive Part where
  | dateNow
  | readInput
  | readMetrics
  | callModel
  | dropRequest
  | refuse
  | store (narrative : Narrative) (model : String) (input : NarrativeInput)
  | createEvent
  | recordError (description : String) (retryAt : Option Int)

inductive Act where
  | dateNow
  | tick (ms : Nat)
  | crash
  | sql (w : Stmt)
  | lease (id : Cuid) (settledBefore lease : Int)
  | readClaimed (id : Cuid)
  | serve (claim : Claim) (part : Part)

/-- The statement of a step. -/
def Part.stmt (claim : Claim) : Part → Option Stmt
  | .dateNow | .callModel => none
  | .readInput => some (.readInput claim.id)
  | .readMetrics => some .readMetrics
  | .dropRequest => some (.dropRequest claim.id)
  | .refuse => some (.refuse claim.claimed)
  | .store narrative model input => some (.store claim.claimed narrative model input)
  | .createEvent => some .createEvent
  | .recordError description retryAt => some (.recordError claim.claimed description retryAt)

def Part.calls : Part → Bool
  | .callModel => true
  | _ => false

/-- `count !== 1` -/
def missed (s : Store) (p : IncidentRow → Bool) : Bool := decide ((s.incidents.filter p).length ≠ 1)

/-- The request is served with this step. -/
def Part.ends (s : Store) (claim : Claim) : Part → Bool
  | .dropRequest | .refuse | .createEvent | .recordError .. => true
  | .store .. => missed s fun r => r.current claim.claimed
  | _ => false

/-- The row of a candidate, while it is due. -/
def dueRow (id : Cuid) (settledBefore : Int) (r : IncidentRow) : Bool := decide (r.id = id) && r.due settledBefore

section Steps
variable {ι : Type} [DecidableEq ι]

/-- The worker has read the row it leased. -/
def Held.read (i : ι) (id : Cuid) (claim : Claim) (h : Held ι) : Held ι :=
  if h.worker = i ∧ h.id = id ∧ h.claim = none then { h with claim := some claim } else h

def sem (i : ι) : Act → World ι → Option (World ι)
  | .dateNow, s => some s
  | .tick ms, s => some { s with now := s.now + ms }
  | .crash, s => some { s with held := s.held.filter fun h => decide (h.worker ≠ i) }
  | .sql w, s => (RcaLlm.sem i w s.db).map fun db => { s with db := db }
  | .lease id settledBefore lease, s =>
    (RcaLlm.sem i (.lease id settledBefore lease) s.db).map fun db =>
      { s with
        db := db
        held := if missed s.db (dueRow id settledBefore) then s.held else ⟨i, id, lease, none⟩ :: s.held }
  | .readClaimed id, s =>
    match s.db.get? id with
    | none => some { s with held := s.held.filter fun h => decide (¬(h.worker = i ∧ h.id = id)) }
    | some r => some { s with held := s.held.map (Held.read i id (claimOf s.db r)) }
  | .serve claim part, s =>
    let db := match part.stmt claim with
      | none => some s.db
      | some w => RcaLlm.sem i w s.db
    db.map fun db =>
      { s with
        db := db
        held := if part.ends s.db claim then
            s.held.filter fun h => decide (¬(h.worker = i ∧ h.claim = some claim))
          else s.held
        asked := if part.calls then claim :: s.asked else s.asked }

end Steps

/-! ## The functions -/

inductive Outcome where
  | refreshed (written : Bool)
  | served (results : List Served)
  | crashed
  | done

section Calls
variable {ι : Type}

/-- A call of `Narrative` as it is. -/
def lift : RcaLlm.Call → Prog Act (World ι) Outcome
  | .ret (.refreshed written) => .ret (.refreshed written)
  | .ret (.served results) => .ret (.served results)
  | .ret .done => .ret .done
  | .stmt w k => .stmt (.sql w) fun s => lift (k s.db)

/-- The answer of the model, and the statements that throw. -/
structure Fate where
  values : List ℚ
  reply : NarrativeInput → ModelReply
  model : String
  updateThrows : Option String
  eventThrows : Option String

/-- The `catch` of `serveNarrative`: back off 2, 4 minutes; give up after the last attempt. -/
def recover (claim : Claim) (description : String) (next : Served → Prog Act (World ι) Outcome) :
    Prog Act (World ι) Outcome :=
  if maxAttempts ≤ claim.rcaLlmAttempts then
    .stmt (.serve claim (.recordError description none)) fun _ => next .failed
  else
    .stmt (.serve claim .dateNow) fun s =>
      let retryAt := s.now + claim.rcaLlmAttempts * 2 * 60 * 1000 - settleMs
      .stmt (.serve claim (.recordError description (some retryAt))) fun _ => next .failed

/-- After the answer of the model. -/
def storeNarrative (claim : Claim) (fate : Fate) (input : NarrativeInput) (next : Served → Prog Act (World ι) Outcome) :
    Prog Act (World ι) Outcome :=
  match requestNarrative (fate.reply input), fate.updateThrows with
  | .error description, _ => recover claim description next
  | .ok _, some description => recover claim description next
  | .ok none, none => .stmt (.serve claim .refuse) fun _ => next .refused
  | .ok (some narrative), none =>
      .stmt (.serve claim (.store narrative fate.model input)) fun s =>
        if missed s.db fun r => r.current claim.claimed then next .stale
        else
          match fate.eventThrows with
          | some description => recover claim description next
          | none => .stmt (.serve claim .createEvent) fun _ => next .stored

def serveNarrative (claim : Claim) (fate : Fate) (next : Served → Prog Act (World ι) Outcome) : Prog Act (World ι) Outcome :=
  .stmt (.serve claim .readInput) fun s =>
    match (s.db.get? claim.id).bind fun r => buildNarrativeInput r fate.values with
    | none => .stmt (.serve claim .dropRequest) fun _ => next .stale
    | some input =>
        .stmt (.serve claim .readMetrics) fun _ =>
          .stmt (.serve claim .callModel) fun _ => storeNarrative claim fate input next

/-- The claims of one round are served one after the other. -/
def serveEach (fate : Cuid → Fate) : List Claim → List Served → Prog Act (World ι) Outcome
  | [], results => .ret (.served results)
  | claim :: rest, results =>
      serveNarrative claim (fate claim.id) fun result => serveEach fate rest (results ++ [result])

def claimEach (settledBefore : Int) : List Cuid → List Claim → (List Claim → Prog Act (World ι) Outcome) →
    Prog Act (World ι) Outcome
  | [], claimed, next => next claimed
  | id :: rest, claimed, next =>
      .stmt .dateNow fun s =>
        .stmt (.lease id settledBefore (s.now + leaseMs)) fun s =>
          if missed s.db (dueRow id settledBefore) then claimEach settledBefore rest claimed next
          else
            .stmt (.readClaimed id) fun s =>
              match s.db.get? id with
              | none => claimEach settledBefore rest claimed next
              | some r => claimEach settledBefore rest (claimed ++ [claimOf s.db r]) next

def claimNarrativeRequests (limit : Nat) (scope : Option (List Nat)) (next : List Claim → Prog Act (World ι) Outcome) :
    Prog Act (World ι) Outcome :=
  if limit = 0 then next []
  else
    .stmt .dateNow fun s =>
      let settledBefore := s.now - settleMs
      .stmt (.sql .findCandidates) fun s => claimEach settledBefore (candidates s.db settledBefore scope limit) [] next

inductive Op where
  | refresh (llmEnabled : Bool) (orgId : Nat) (incidentId : Cuid) (others : List RcaIncident) (topology : RcaTopology)
    (now : Int) (force : Bool)
  /-- One round of `runNarrativeLoop`. -/
  | round (limit : Nat) (scope : Option (List Nat)) (fate : Cuid → Fate)
  | change (incidentId : Cuid) (status : IncidentStatus) (severity : Severity)
    (triggerValue peakValue anomalyScore : Option ℚ)
  | wait (times : List Nat)
  /-- The process stops before step `n` of the call. -/
  | crashing (n : Nat) (op : Op)

def waitEach : List Nat → Prog Act (World ι) Outcome
  | [] => .ret .done
  | ms :: rest => .stmt (.tick ms) fun _ => waitEach rest

def Op.call (localeCompare : Collation Cuid) : Op → Prog Act (World ι) Outcome
  | .refresh llmEnabled orgId incidentId others topology now force =>
      lift (RcaLlm.refreshIncidentRca localeCompare llmEnabled orgId incidentId others topology now force)
  | .round limit scope fate => claimNarrativeRequests limit scope fun claimed => serveEach fate claimed []
  | .change incidentId status severity triggerValue peakValue anomalyScore =>
      .stmt (.sql (.change incidentId status severity triggerValue peakValue anomalyScore)) fun _ => .ret .done
  | .wait times => waitEach times
  | .crashing n op => (op.call localeCompare).failAt .crash .crashed n

end Calls

/-! ## Runs -/

section Runs
variable {ι : Type} [DecidableEq ι]

/-- Any number of calls over some incidents, none of them started. -/
def unstarted (localeCompare : Collation Cuid) (ops : ι → Op) (rows : List IncidentRow)
    (hrows : (rows.map IncidentRow.id).Nodup) (now : Int) : Conf ι Act (World ι) Outcome where
  store := ⟨⟨rows, hrows, rows.map fun r => (r.id, r.rca.rcaGeneratedAt)⟩, now, [], []⟩
  calls := fun i => (ops i).call localeCompare

/-- The claim that a worker is serving. -/
def serving (c : Conf ι Act (World ι) Outcome) (i : ι) : Option Claim :=
  match c.calls i with
  | .stmt (.serve claim _) _ => some claim
  | _ => none

/-- The findings the lease is for: until the row is read, those of the row. -/
def Held.version (s : Store) (h : Held ι) : Nat :=
  match h.claim with
  | none => Workers.version s h.id
  | some claim => claim.version

/-- Each lease is served before it ends. -/
def inTime (_ : ι) (act : Act) (s : World ι) : Bool :=
  match act with
  | .lease _ _ lease => decide (s.now ≤ lease)
  | .tick ms => s.held.all fun h => decide (s.now + ms ≤ h.lease)
  | _ => true

/-- No findings are written between a lease and the read that follows it, nor at the time of other findings of the
incident. -/
def apart (_ : ι) (act : Act) (s : World ι) : Bool :=
  match act with
  | .sql (.writeFindings id _ _ now) =>
      (s.held.all fun h => decide (h.id = id → h.claim ≠ none)) && decide ((id, some now) ∉ s.db.versions)
  | _ => true

/-- The worker has the last attempt at the findings of the incident. -/
def Held.last (s : Store) (h : Held ι) : Bool :=
  decide (h.version s = Workers.version s h.id) && (s.get? h.id).any fun r => decide (maxAttempts ≤ r.rca.rcaLlmAttempts)

/-- The last attempt is neither lost nor late. -/
def finishes (i : ι) (act : Act) (s : World ι) : Bool :=
  match act with
  | .lease _ _ lease => decide (s.now < lease)
  | .tick ms => s.held.all fun h => !h.last s.db || decide (s.now + ms < h.lease)
  | .crash => s.held.all fun h => decide (h.worker ≠ i) || !h.last s.db
  | _ => true

/-- The next step of the call passes a check. -/
def passes (p : ι → Act → World ι → Bool) (c : Conf ι Act (World ι) Outcome) (i : ι) : Bool :=
  match c.calls i with
  | .ret _ => true
  | .stmt w _ => p i w c.store

def Passes (p : ι → Act → World ι → Bool) (c : Conf ι Act (World ι) Outcome) (i : ι) : Prop := passes p c i = true

end Runs

end IkelyaneMonitor.Aiops.Workers
