import IkelyaneMonitor.Interleave.RelyGuarantee
import IkelyaneMonitor.Text
import IkelyaneMonitor.Aiops.Signature

/-!
# The written analysis (`modules/aiops/rca-llm.ts`)

* `IncidentRow`, `Store`, `Stmt`, `sem` : the incidents with their analysis, and the statements on them. The transaction of
  `refreshIncidentRca` updates one row and adds to the timeline, so it takes effect with that update;
* `buildNarrativeInput`, `requestNarrative`, `claimNarrativeRequests`, `serveNarrative` : one round of a worker. The answer of
  the model, and which of its statements throw, are arguments (`Fate`);
* `Op`, `Op.call` : the calls that touch the analysis of an incident.

`narrative_matches` : a stored narrative was written from the findings that are stored.

Two columns of the model are no columns: the input a narrative was written from, and the times an analysis had so far.
-/

namespace IkelyaneMonitor.Aiops.RcaLlm
open Interleave IkelyaneMonitor.Topology
open Alerts (Severity)
open Incidents (IncidentStatus)
open Telemetry (MetricSource MetricType)

def maxAttempts : Nat := 3
def settleMs : Int := 60000
def leaseMs : Int := 10 * 60 * 1000

/-- Summary statistics of the metric over the last hour. -/
structure MetricWindow where
  points : Nat
  min : ℚ
  max : ℚ
  latest : ℚ

/-- Everything the model sees for one incident. -/
structure NarrativeInput where
  title : String
  severity : Severity
  status : IncidentStatus
  sourceKind : Option MetricSource
  source : Option String
  metric : Option MetricType
  triggerValue : Option ℚ
  peakValue : Option ℚ
  anomalyScore : Option ℚ
  startedAt : Int
  condition : Option String
  metricRecentWindow : Option MetricWindow
  findings : RcaFindings
  deterministicConfidence : Option ℚ

structure IncidentRow where
  orgId : Nat
  incident : RcaIncident
  severity : Severity
  triggerValue : Option ℚ
  peakValue : Option ℚ
  anomalyScore : Option ℚ
  /-- The data of the event `OPENED`. -/
  condition : Option String
  rca : RcaRow
  /-- What the stored summaries were written from: a record of the run that no function reads. -/
  writtenFrom : Option NarrativeInput

def IncidentRow.id (r : IncidentRow) : Cuid := r.incident.id

structure Narrative where
  summaryEn : String
  summaryFr : String

/-! ## The model -/

inductive ModelReply where
  | refusal
  | unparsed
  | parsed (summaryEn summaryFr : String)
  | error (description : String)

/-- `slice(0, limit)`, by whole characters. -/
def slice (limit : Nat) : List Char → List Char
  | [] => []
  | c :: cs =>
      let size := if c.toNat < 0x10000 then 1 else 2
      if size ≤ limit then c :: slice (limit - size) cs else []

def cutText (text : String) : String := String.ofList (slice 4000 (Text.trim text).toList)

/-- Throws what the service throws; nothing on a refusal and on texts that are blank. -/
def requestNarrative : ModelReply → Except String (Option Narrative)
  | .error description => .error description
  | .refusal | .unparsed => .ok none
  | .parsed en fr =>
      if Text.trim en = "" ∨ Text.trim fr = "" then .ok none else .ok (some ⟨cutText en, cutText fr⟩)

def metricWindow (values : List ℚ) : Option MetricWindow :=
  match values with
  | [] => none
  | latest :: rest => some ⟨values.length, rest.foldl Min.min latest, rest.foldl Max.max latest, latest⟩

/-- `values` are those of the second query, which runs only where the incident has a source and a metric. -/
def buildNarrativeInput (r : IncidentRow) (values : List ℚ) : Option NarrativeInput :=
  r.rca.rcaFindings.map fun findings =>
    { title := r.incident.title
      severity := r.severity
      status := r.incident.status
      sourceKind := r.incident.sourceKind
      source := r.incident.sourceLabel
      metric := r.incident.metric
      triggerValue := r.triggerValue
      peakValue := r.peakValue
      anomalyScore := r.anomalyScore
      startedAt := r.incident.startedAt
      condition := r.condition
      metricRecentWindow := if (truthy r.incident.sourceId).isSome ∧ r.incident.metric.isSome then metricWindow values
        else none
      findings := findings
      deterministicConfidence := r.rca.rcaConfidence }

/-! ## Statements -/

structure Store where
  incidents : List IncidentRow
  ids_nodup : (incidents.map IncidentRow.id).Nodup
  /-- The times an analysis had so far, each with its incident: a record of the run that no function reads. -/
  versions : List (Cuid × Option Int)

structure Claimed where
  id : Cuid
  rcaGeneratedAt : Option Int
  rcaLlmAttempts : Nat

inductive Stmt where
  | findIncident (id : Cuid) (orgId : Nat)
  /-- The incidents, the nodes and the edges of the organization. -/
  | loadContext
  | writeFindings (id : Cuid) (findings : RcaFindings) (llmEnabled : Bool) (now : Int)
  | findCandidates
  | lease (id : Cuid) (settledBefore lease : Int)
  | readClaimed (id : Cuid)
  | readInput (id : Cuid)
  | readMetrics
  | dropRequest (id : Cuid)
  | refuse (claimed : Claimed)
  | store (claimed : Claimed) (narrative : Narrative) (model : String) (input : NarrativeInput)
  | createEvent
  | recordError (claimed : Claimed) (description : String) (retryAt : Option Int)
  | requestFresh (id : Cuid) (now : Int)
  /-- Anything else that happens to an incident: its status, its values. -/
  | change (id : Cuid) (status : IncidentStatus) (severity : Severity) (triggerValue peakValue anomalyScore : Option ℚ)

namespace Store

def get? (s : Store) (id : Cuid) : Option IncidentRow := s.incidents.find? fun r => r.id = id

/-- `updateMany`: the rows of a condition. -/
def updateMany (s : Store) (p : IncidentRow → Bool) (f : IncidentRow → IncidentRow) (hf : ∀ r, (f r).id = r.id) : Store where
  incidents := s.incidents.map fun r => if p r then f r else r
  ids_nodup := by
    have hids : (s.incidents.map fun r => if p r then f r else r).map IncidentRow.id = s.incidents.map IncidentRow.id := by
      rw [List.map_map]
      refine List.map_congr_left fun r _ => ?_
      show (if p r then f r else r).id = r.id
      split
      · exact hf r
      · rfl
    rw [hids]
    exact s.ids_nodup
  versions := s.versions

end Store

def IncidentRow.withRca (r : IncidentRow) (rca : RcaRow) : IncidentRow := { r with rca := rca }

/-- Due before a time, with attempts left. -/
def IncidentRow.due (r : IncidentRow) (settledBefore : Int) : Bool :=
  (r.rca.rcaLlmRequestedAt.any fun t => t ≤ settledBefore) && decide (r.rca.rcaLlmAttempts < maxAttempts)

/-- The row of a claim, its findings not generated again since. -/
def IncidentRow.current (r : IncidentRow) (claimed : Claimed) : Bool :=
  decide (r.id = claimed.id) && decide (r.rca.rcaGeneratedAt = claimed.rcaGeneratedAt)

def sem {ι : Type} (_ : ι) : Stmt → Store → Option Store
  | .writeFindings id findings llmEnabled now, s =>
    some
      { s.updateMany (fun r => decide (r.id = id))
          (fun r => { r with rca := .refreshed findings llmEnabled now, writtenFrom := none }) fun _ => rfl with
        versions := (id, some now) :: s.versions }
  | .lease id settledBefore lease, s =>
    some (s.updateMany (fun r => decide (r.id = id) && r.due settledBefore)
      (fun r => r.withRca { r.rca with rcaLlmRequestedAt := some lease, rcaLlmAttempts := r.rca.rcaLlmAttempts + 1 })
      fun _ => rfl)
  | .dropRequest id, s =>
    some (s.updateMany (fun r => decide (r.id = id)) (fun r => r.withRca { r.rca with rcaLlmRequestedAt := none })
      fun _ => rfl)
  | .refuse claimed, s =>
    some (s.updateMany (fun r => r.current claimed)
      (fun r => r.withRca { r.rca with rcaLlmRequestedAt := none, rcaLlmError := some "refused_or_empty" }) fun _ => rfl)
  | .store claimed narrative model input, s =>
    some (s.updateMany (fun r => r.current claimed)
      (fun r =>
        { r with
          rca :=
            { r.rca with
              rcaSummaryEn := some narrative.summaryEn
              rcaSummaryFr := some narrative.summaryFr
              rcaModel := some (rcaModel ++ "+" ++ model)
              rcaLlmRequestedAt := none
              rcaLlmError := none }
          writtenFrom := some input })
      fun _ => rfl)
  | .recordError claimed description retryAt, s =>
    some (s.updateMany (fun r => r.current claimed)
      (fun r => r.withRca { r.rca with rcaLlmError := some description, rcaLlmRequestedAt := retryAt }) fun _ => rfl)
  | .requestFresh id now, s =>
    some (s.updateMany (fun r => decide (r.id = id) && r.incident.status != .resolved)
      (fun r => r.withRca { r.rca with rcaLlmRequestedAt := some (now - settleMs), rcaLlmAttempts := 0, rcaLlmError := none })
      fun _ => rfl)
  | .change id status severity triggerValue peakValue anomalyScore, s =>
    some (s.updateMany (fun r => decide (r.id = id))
      (fun r =>
        { r with
          incident := { r.incident with status := status }
          severity := severity
          triggerValue := triggerValue
          peakValue := peakValue
          anomalyScore := anomalyScore })
      fun _ => rfl)
  | _, s => some s

/-! ## The functions -/

inductive Served where
  | stored | stale | refused | failed
  deriving DecidableEq, Repr

inductive Outcome where
  | refreshed (written : Bool)
  | served (results : List Served)
  | done

abbrev Call := Prog Stmt Store Outcome

/-- What one request meets: the answer of the model, and the statements that throw. -/
structure Fate where
  values : List ℚ
  reply : NarrativeInput → ModelReply
  model : String
  storeThrows : Option String
  eventThrows : Option String
  /-- `Date.now()` where an error is recorded. -/
  failedAt : Int

def refreshIncidentRca (localeCompare : Collation Cuid) (llmEnabled : Bool) (orgId : Nat) (incidentId : Cuid)
    (others : List RcaIncident) (topology : RcaTopology) (now : Int) (force : Bool) : Call :=
  .stmt (.findIncident incidentId orgId) fun s =>
    match (s.get? incidentId).filter fun r => r.orgId = orgId with
    | none => .ret (.refreshed false)
    | some r =>
        .stmt .loadContext fun _ =>
          let findings := analyzeIncident localeCompare r.incident others topology
          if !force && unchanged r.rca.rcaFindings findings then .ret (.refreshed false)
          else .stmt (.writeFindings incidentId findings llmEnabled now) fun _ => .ret (.refreshed true)

/-- The `catch` of `serveNarrative`: back off 2, 4 minutes; give up after the last attempt. -/
def recover (claimed : Claimed) (description : String) (failedAt : Int) (next : Served → Call) : Call :=
  .stmt (.recordError claimed description
    (if maxAttempts ≤ claimed.rcaLlmAttempts then none
      else some (failedAt + claimed.rcaLlmAttempts * 2 * 60 * 1000 - settleMs))) fun _ => next .failed

/-- After the answer of the model. -/
def storeNarrative (claimed : Claimed) (fate : Fate) (input : NarrativeInput) (next : Served → Call) : Call :=
  match requestNarrative (fate.reply input) with
  | .error description => recover claimed description fate.failedAt next
  | .ok none => .stmt (.refuse claimed) fun _ => next .refused
  | .ok (some narrative) =>
      match fate.storeThrows with
      | some description => recover claimed description fate.failedAt next
      | none =>
          .stmt (.store claimed narrative fate.model input) fun s =>
            if (s.incidents.filter fun r => r.current claimed).length ≠ 1 then next .stale
            else
              match fate.eventThrows with
              | some description => recover claimed description fate.failedAt next
              | none => .stmt .createEvent fun _ => next .stored

def serveNarrative (claimed : Claimed) (fate : Fate) (next : Served → Call) : Call :=
  .stmt (.readInput claimed.id) fun s =>
    match (s.get? claimed.id).bind fun r => buildNarrativeInput r fate.values with
    | none => .stmt (.dropRequest claimed.id) fun _ => next .stale
    | some input => .stmt .readMetrics fun _ => storeNarrative claimed fate input next

/-- The candidates, the oldest request first. -/
def candidates (s : Store) (settledBefore : Int) (scope : Option (List Nat)) (limit : Nat) : List Cuid :=
  (((s.incidents.filter fun r => r.due settledBefore && scope.all fun orgIds => orgIds.contains r.orgId).insertionSort
    fun a b => a.rca.rcaLlmRequestedAt.getD 0 ≤ b.rca.rcaLlmRequestedAt.getD 0).take limit).map IncidentRow.id

/-- The loop over the candidates, with the time at each. -/
def claimEach (settledBefore : Int) : List (Cuid × Int) → List Claimed → (List Claimed → Call) → Call
  | [], claimed, next => next claimed
  | (id, now) :: rest, claimed, next =>
      .stmt (.lease id settledBefore (now + leaseMs)) fun s =>
        if (s.incidents.filter fun r => decide (r.id = id) && r.due settledBefore).length ≠ 1 then
          claimEach settledBefore rest claimed next
        else
          .stmt (.readClaimed id) fun s =>
            match s.get? id with
            | none => claimEach settledBefore rest claimed next
            | some r =>
                claimEach settledBefore rest (claimed ++ [⟨r.id, r.rca.rcaGeneratedAt, r.rca.rcaLlmAttempts⟩]) next

/-- `clock n` is the time at the `n`-th candidate. -/
def claimNarrativeRequests (limit : Nat) (scope : Option (List Nat)) (now : Int) (clock : Nat → Int)
    (next : List Claimed → Call) : Call :=
  if limit = 0 then next []
  else
    .stmt .findCandidates fun s =>
      let ids := candidates s (now - settleMs) scope limit
      claimEach (now - settleMs) (ids.zip ((List.range ids.length).map clock)) [] next

/-- The claims of one round are served one after the other. -/
def serveEach (fate : Cuid → Fate) : List Claimed → List Served → Call
  | [], results => .ret (.served results)
  | claimed :: rest, results =>
      serveNarrative claimed (fate claimed.id) fun result => serveEach fate rest (results ++ [result])

inductive Op where
  | refresh (llmEnabled : Bool) (orgId : Nat) (incidentId : Cuid) (others : List RcaIncident) (topology : RcaTopology)
    (now : Int) (force : Bool)
  /-- One round of `runNarrativeLoop`. -/
  | round (limit : Nat) (scope : Option (List Nat)) (now : Int) (clock : Nat → Int) (fate : Cuid → Fate)
  | requestFreshNarrative (incidentId : Cuid) (now : Int)
  | change (incidentId : Cuid) (status : IncidentStatus) (severity : Severity)
    (triggerValue peakValue anomalyScore : Option ℚ)

def Op.call (localeCompare : Collation Cuid) : Op → Call
  | .refresh llmEnabled orgId incidentId others topology now force =>
      refreshIncidentRca localeCompare llmEnabled orgId incidentId others topology now force
  | .round limit scope now clock fate =>
      claimNarrativeRequests limit scope now clock fun claimed => serveEach fate claimed []
  | .requestFreshNarrative incidentId now => .stmt (.requestFresh incidentId now) fun _ => .ret .done
  | .change incidentId status severity triggerValue peakValue anomalyScore =>
      .stmt (.change incidentId status severity triggerValue peakValue anomalyScore) fun _ => .ret .done

/-- The call generates the findings of an incident at a time. -/
def Op.refreshes : Op → Cuid → Int → Prop
  | .refresh _ _ incidentId _ _ now _, id, t => incidentId = id ∧ now = t
  | _, _, _ => False

/-! ## What the calls promise each other -/

/-- The summaries of a row, if any, were written from its findings. -/
def Matches (r : IncidentRow) : Prop :=
  r.rca.rcaSummaryEn ≠ none ∨ r.rca.rcaSummaryFr ≠ none →
    ∃ input, r.writtenFrom = some input ∧ r.rca.rcaFindings = some input.findings

/-- A row keeps its findings while it keeps their time, and a time it had does not come back. -/
structure Evolves (s s' : Store) : Prop where
  versions : s.versions ⊆ s'.versions
  rows : ∀ r' ∈ s'.incidents, ∃ r ∈ s.incidents, r.id = r'.id ∧
    (r'.rca.rcaGeneratedAt = r.rca.rcaGeneratedAt ∧ r'.rca.rcaFindings = r.rca.rcaFindings ∨
      (r'.id, r'.rca.rcaGeneratedAt) ∉ s.versions)

section Matching
variable {ι : Type}

def matching (ops : ι → Op) : Spec ι Stmt Store Outcome where
  inv := fun s => ∀ r ∈ s.incidents, Matches r ∧ (r.id, r.rca.rcaGeneratedAt) ∈ s.versions
  rely := fun i _ s s' => Evolves s s' ∧
    ∀ id t, (ops i).refreshes id t → (id, some t) ∈ s'.versions → (id, some t) ∈ s.versions
  guar := fun i s _ s' _ => Evolves s s' ∧
    ∀ id t, (id, some t) ∈ s'.versions → (id, some t) ∈ s.versions ∨ (ops i).refreshes id t
  post := fun _ _ _ => True

/-- The findings a claim was about were there. -/
def Seen (claimed : Claimed) (s : Store) : Prop := (claimed.id, claimed.rcaGeneratedAt) ∈ s.versions

/-- While the row has the time of the claim, its findings are those of the input. -/
def Knows (claimed : Claimed) (input : NarrativeInput) (s : Store) : Prop :=
  Seen claimed s ∧ ∀ r ∈ s.incidents, r.current claimed = true → r.rca.rcaFindings = some input.findings

variable {ops : ι → Op} {i : ι} {w : Option Stmt}

theorem current_iff {r : IncidentRow} {claimed : Claimed} :
    r.current claimed = true ↔ r.id = claimed.id ∧ r.rca.rcaGeneratedAt = claimed.rcaGeneratedAt := by
  unfold IncidentRow.current
  rw [Bool.and_eq_true, decide_eq_true_eq, decide_eq_true_eq]

theorem stable_seen (rest : List Claimed) : (matching ops).Stable i w fun s => ∀ c ∈ rest, Seen c s :=
  fun _ _ _ _ hrely h c hc => hrely.1.versions (h c hc)

theorem stable_knows (claimed : Claimed) (input : NarrativeInput) : (matching ops).Stable i w (Knows claimed input) := by
  rintro s s' - - ⟨hevolves, -⟩ ⟨hseen, hknows⟩
  refine ⟨hevolves.versions hseen, fun r' hr' hcurrent => ?_⟩
  obtain ⟨hid, hversion⟩ := current_iff.mp hcurrent
  obtain ⟨r, hr, hrid, hsame | hnew⟩ := hevolves.rows r' hr'
  · rw [hsame.2]
    exact hknows r hr (current_iff.mpr ⟨hrid.trans hid, hsame.1.symm.trans hversion⟩)
  · rw [hid, hversion] at hnew
    exact absurd hseen hnew

theorem stable_unused {id : Cuid} {t : Int} (h : (ops i).refreshes id t) :
    (matching ops).Stable i w fun s => (id, some t) ∉ s.versions :=
  fun _ _ _ _ hrely hunused hmem => hunused (hrely.2 id t h hmem)

/-! ## Statements -/

/-- A write that keeps the findings and their time, and the match. -/
theorem inv_updateMany {s : Store} (hinv : (matching ops).inv s) {p : IncidentRow → Bool} {f : IncidentRow → IncidentRow}
    (hf : ∀ r, (f r).id = r.id) (hkeep : ∀ r ∈ s.incidents, p r = true →
      (f r).rca.rcaGeneratedAt = r.rca.rcaGeneratedAt ∧ (f r).rca.rcaFindings = r.rca.rcaFindings ∧ Matches (f r)) :
    (matching ops).inv (s.updateMany p f hf) ∧ Evolves s (s.updateMany p f hf) := by
  have hrows : ∀ r' ∈ (s.updateMany p f hf).incidents, ∃ r ∈ s.incidents, r.id = r'.id ∧
      r'.rca.rcaGeneratedAt = r.rca.rcaGeneratedAt ∧ r'.rca.rcaFindings = r.rca.rcaFindings ∧ Matches r' := by
    intro r' hr'
    obtain ⟨r, hr, rfl⟩ := List.mem_map.mp hr'
    refine ⟨r, hr, ?_⟩
    by_cases hp : p r = true
    · rw [if_pos hp]
      exact ⟨(hf r).symm, hkeep r hr hp⟩
    · rw [if_neg hp]
      exact ⟨rfl, rfl, rfl, (hinv r hr).1⟩
  constructor
  · intro r' hr'
    obtain ⟨r, hr, hid, hversion, -, hmatches⟩ := hrows r' hr'
    refine ⟨hmatches, ?_⟩
    rw [← hid, hversion]
    exact (hinv r hr).2
  · refine ⟨List.Subset.refl _, fun r' hr' => ?_⟩
    obtain ⟨r, hr, hid, hversion, hfindings, -⟩ := hrows r' hr'
    exact ⟨r, hr, hid, .inl ⟨hversion, hfindings⟩⟩

/-- The statements that touch neither the findings nor the summaries. -/
def Stmt.quiet : Stmt → Bool
  | .writeFindings .. | .store .. => false
  | _ => true

theorem evolves_refl (s : Store) : Evolves s s := ⟨List.Subset.refl _, fun r hr => ⟨r, hr, rfl, .inl ⟨rfl, rfl⟩⟩⟩

theorem quiet_step {w : Stmt} (hw : w.quiet = true) {s s' : Store} (hinv : (matching ops).inv s) (hs : sem i w s = some s') :
    (matching ops).inv s' ∧ Evolves s s' ∧ s'.versions = s.versions := by
  have hupdate : ∀ (p : IncidentRow → Bool) (f : IncidentRow → IncidentRow) (hf : ∀ r, (f r).id = r.id),
      (∀ r, (f r).rca.rcaGeneratedAt = r.rca.rcaGeneratedAt ∧ (f r).rca.rcaFindings = r.rca.rcaFindings ∧
        (f r).rca.rcaSummaryEn = r.rca.rcaSummaryEn ∧ (f r).rca.rcaSummaryFr = r.rca.rcaSummaryFr ∧
          (f r).writtenFrom = r.writtenFrom) →
      (matching ops).inv (s.updateMany p f hf) ∧ Evolves s (s.updateMany p f hf) ∧
        (s.updateMany p f hf).versions = s.versions := by
    intro p f hf hkeep
    obtain ⟨hinv', hevolves⟩ := inv_updateMany (f := f) hinv hf fun r hr _ => ⟨(hkeep r).1, (hkeep r).2.1, by
      unfold Matches
      rw [(hkeep r).2.1, (hkeep r).2.2.1, (hkeep r).2.2.2.1, (hkeep r).2.2.2.2]
      exact (hinv r hr).1⟩
    exact ⟨hinv', hevolves, rfl⟩
  have hread : ∀ {s'}, some s = some s' → (matching ops).inv s' ∧ Evolves s s' ∧ s'.versions = s.versions := by
    rintro _ ⟨⟩
    exact ⟨hinv, evolves_refl s, rfl⟩
  cases w with
  | writeFindings => cases hw
  | store => cases hw
  | findIncident | loadContext | findCandidates | readClaimed | readInput | readMetrics | createEvent => exact hread hs
  | lease | dropRequest | refuse | recordError | requestFresh | change =>
      cases hs
      exact hupdate _ _ _ fun _ => ⟨rfl, rfl, rfl, rfl, rfl⟩

theorem store_step {claimed : Claimed} {narrative : Narrative} {model : String} {input : NarrativeInput} {s s' : Store}
    (hinv : (matching ops).inv s) (hknows : Knows claimed input s)
    (hs : sem i (.store claimed narrative model input) s = some s') :
    (matching ops).inv s' ∧ Evolves s s' ∧ s'.versions = s.versions := by
  cases hs
  rw [← and_assoc]
  exact ⟨inv_updateMany hinv _ fun r hr hcurrent => ⟨rfl, rfl, fun _ => ⟨input, rfl, hknows.2 r hr hcurrent⟩⟩, rfl⟩

theorem write_step {id : Cuid} {findings : RcaFindings} {llmEnabled : Bool} {now : Int} {s s' : Store}
    (hinv : (matching ops).inv s) (hunused : (id, some now) ∉ s.versions)
    (hs : sem i (.writeFindings id findings llmEnabled now) s = some s') :
    (matching ops).inv s' ∧ Evolves s s' ∧ s'.versions = (id, some now) :: s.versions := by
  cases hs
  have hrows : ∀ r' ∈ s.incidents.map (fun r => if decide (r.id = id) = true then
      { r with rca := .refreshed findings llmEnabled now, writtenFrom := none } else r), ∃ r ∈ s.incidents, r.id = r'.id ∧
        (r' = r ∨ r'.id = id ∧ r'.rca = .refreshed findings llmEnabled now) := by
    intro r' hr'
    obtain ⟨r, hr, rfl⟩ := List.mem_map.mp hr'
    refine ⟨r, hr, ?_⟩
    by_cases hid : r.id = id
    · rw [if_pos (decide_eq_true hid)]
      exact ⟨rfl, .inr ⟨hid, rfl⟩⟩
    · rw [if_neg (by simpa using hid)]
      exact ⟨rfl, .inl rfl⟩
  refine ⟨fun r' hr' => ?_, ⟨List.subset_cons_self _ _, fun r' hr' => ?_⟩, rfl⟩
  · obtain ⟨r, hr, -, rfl | ⟨hid, hrca⟩⟩ := hrows r' hr'
    · exact ⟨(hinv r' hr).1, List.mem_cons_of_mem _ (hinv r' hr).2⟩
    · refine ⟨fun hsummary => ?_, ?_⟩
      · rw [hrca] at hsummary
        rcases hsummary with h | h <;> exact absurd rfl h
      · rw [hid, hrca]
        exact List.mem_cons_self
  · obtain ⟨r, hr, hid, rfl | ⟨hid', hrca⟩⟩ := hrows r' hr'
    · exact ⟨r', hr, rfl, .inl ⟨rfl, rfl⟩⟩
    · refine ⟨r, hr, hid, .inr ?_⟩
      rw [hid', hrca]
      exact hunused

/-! ## Calls -/

/-- After a statement that adds no time, what was known of the store before still holds, if it is stable. -/
theorem sat_of_step {w : Stmt} {k : Store → Call} {P : Store → Prop}
    (hstep : ∀ s s', (matching ops).inv s → P s → sem i w s = some s' →
      (matching ops).inv s' ∧ Evolves s s' ∧ s'.versions = s.versions)
    (hk : ∀ s, (matching ops).inv s → P s →
      ∃ P', (∀ w, (matching ops).Stable i w P') ∧ P' s ∧ (matching ops).Sat sem i (k s) P') :
    (matching ops).Sat sem i (.stmt w k) P := by
  intro s s' hinv hP hs
  obtain ⟨hinv', hevolves, hversions⟩ := hstep s s' hinv hP hs
  obtain ⟨P', hstable, hP', hsat⟩ := hk s hinv hP
  have hrely : (matching ops).rely i (some w) s s' := ⟨hevolves, fun id t _ hmem => hversions ▸ hmem⟩
  exact ⟨hinv', ⟨hevolves, fun id t hmem => .inl (hversions ▸ hmem)⟩, P', hstable _,
    hstable (some w) s s' hinv hinv' hrely hP', hsat⟩

theorem sat_quiet {w : Stmt} (hw : w.quiet = true) {k : Store → Call} {P : Store → Prop}
    (hk : ∀ s, (matching ops).inv s → P s →
      ∃ P', (∀ w, (matching ops).Stable i w P') ∧ P' s ∧ (matching ops).Sat sem i (k s) P') :
    (matching ops).Sat sem i (.stmt w k) P :=
  sat_of_step (fun _ _ hinv _ hs => quiet_step hw hinv hs) hk

theorem sat_ret (a : Outcome) (P : Store → Prop) : (matching ops).Sat sem i (.ret a) P := fun _ _ _ => trivial

theorem recover_sat {claimed : Claimed} {description : String} {failedAt : Int} {next : Served → Call} {P : Store → Prop}
    (hstable : ∀ w, (matching ops).Stable i w P) (hnext : ∀ result, (matching ops).Sat sem i (next result) P) :
    (matching ops).Sat sem i (recover claimed description failedAt next) P :=
  sat_quiet rfl fun _ _ hP => ⟨P, hstable, hP, hnext .failed⟩

/-- A narrative is stored only over the findings it was written from. -/
theorem storeNarrative_sat {claimed : Claimed} {fate : Fate} {input : NarrativeInput} {next : Served → Call}
    {P : Store → Prop} (hstable : ∀ w, (matching ops).Stable i w P)
    (hnext : ∀ result, (matching ops).Sat sem i (next result) P) :
    (matching ops).Sat sem i (storeNarrative claimed fate input next) fun s => Knows claimed input s ∧ P s := by
  unfold storeNarrative
  split
  · exact Spec.Sat.mono (fun _ hK => hK.2) (recover_sat hstable hnext)
  · exact sat_quiet rfl fun _ _ hK => ⟨P, hstable, hK.2, hnext .refused⟩
  · split
    · exact Spec.Sat.mono (fun _ hK => hK.2) (recover_sat hstable hnext)
    · refine sat_of_step (fun _ _ hinv hK hs => store_step hinv hK.1 hs) fun s _ hK => ⟨P, hstable, hK.2, ?_⟩
      split
      · exact hnext .stale
      · split
        · exact recover_sat hstable hnext
        · exact sat_quiet rfl fun _ _ hP => ⟨P, hstable, hP, hnext .stored⟩

theorem stable_and {P Q : Store → Prop} (hP : ∀ w, (matching ops).Stable i w P) (hQ : ∀ w, (matching ops).Stable i w Q)
    (w : Option Stmt) : (matching ops).Stable i w fun s => P s ∧ Q s :=
  fun s s' hs hs' hrely h => ⟨hP w s s' hs hs' hrely h.1, hQ w s s' hs hs' hrely h.2⟩

theorem serveNarrative_sat {claimed : Claimed} {fate : Fate} {next : Served → Call} {P : Store → Prop}
    (hstable : ∀ w, (matching ops).Stable i w P) (hnext : ∀ result, (matching ops).Sat sem i (next result) P) :
    (matching ops).Sat sem i (serveNarrative claimed fate next) fun s => Seen claimed s ∧ P s := by
  refine sat_quiet rfl fun s _ hseen => ?_
  cases hinput : (s.get? claimed.id).bind fun r => buildNarrativeInput r fate.values with
  | none => exact ⟨P, hstable, hseen.2, sat_quiet rfl fun _ _ hP => ⟨P, hstable, hP, hnext .stale⟩⟩
  | some input =>
      have hboth := stable_and (fun _ => stable_knows claimed input) hstable
      refine ⟨fun s => Knows claimed input s ∧ P s, hboth, ⟨⟨hseen.1, fun r hr hcurrent => ?_⟩, hseen.2⟩,
        sat_quiet rfl fun _ _ hK => ⟨_, hboth, hK, storeNarrative_sat hstable hnext⟩⟩
      -- the row read is the row of the claim
      obtain ⟨r', hget, hbuild⟩ := Option.bind_eq_some_iff.mp hinput
      have hid : r'.id = claimed.id := by simpa using List.find?_some hget
      have heq : r = r' := List.inj_on_of_nodup_map s.ids_nodup hr (List.mem_of_find?_eq_some hget)
        ((current_iff.mp hcurrent).1.trans hid.symm)
      obtain ⟨findings, hfindings, rfl⟩ := Option.map_eq_some_iff.mp hbuild
      exact heq ▸ hfindings

theorem serveEach_sat (fate : Cuid → Fate) (rest : List Claimed) (results : List Served) :
    (matching ops).Sat sem i (serveEach fate rest results) fun s => ∀ c ∈ rest, Seen c s := by
  induction rest generalizing results with
  | nil => exact sat_ret _ _
  | cons claimed rest ih =>
      refine Spec.Sat.mono (fun s hseen => ?_) (serveNarrative_sat (fun w => stable_seen rest)
        fun result => ih (results ++ [result]))
      exact List.forall_mem_cons.mp hseen

theorem claimEach_sat (settledBefore : Int) (fate : Cuid → Fate) (rest : List (Cuid × Int)) (claimed : List Claimed) :
    (matching ops).Sat sem i (claimEach settledBefore rest claimed fun claimed => serveEach fate claimed [])
      fun s => ∀ c ∈ claimed, Seen c s := by
  induction rest generalizing claimed with
  | nil => exact serveEach_sat fate claimed []
  | cons candidate rest ih =>
      have hstable : ∀ w, (matching ops).Stable i w fun s => ∀ c ∈ claimed, Seen c s := fun _ => stable_seen claimed
      refine sat_quiet rfl fun s _ hseen => ⟨_, hstable, hseen, ?_⟩
      split
      · exact ih claimed
      · refine sat_quiet rfl fun s hinv hseen => ?_
        cases hget : s.get? candidate.1 with
        | none => exact ⟨_, hstable, hseen, ih claimed⟩
        | some r =>
            refine ⟨_, fun w => stable_seen (claimed ++ [⟨r.id, r.rca.rcaGeneratedAt, r.rca.rcaLlmAttempts⟩]), ?_, ih _⟩
            refine List.forall_mem_append.mpr ⟨hseen, fun c hc => ?_⟩
            rw [List.mem_singleton.mp hc]
            exact (hinv r (List.mem_of_find?_eq_some hget)).2

theorem writeFindings_sat {id : Cuid} {findings : RcaFindings} {llmEnabled : Bool} {now : Int} {a : Outcome}
    (h : (ops i).refreshes id now) :
    (matching ops).Sat sem i (.stmt (.writeFindings id findings llmEnabled now) fun _ => .ret a) fun s =>
      (id, some now) ∉ s.versions := by
  intro s s' hinv hunused hs
  obtain ⟨hinv', hevolves, hversions⟩ := write_step hinv hunused hs
  refine ⟨hinv', ⟨hevolves, fun id' t hmem => ?_⟩, fun _ => True, Spec.Stable.true i _, trivial, sat_ret a _⟩
  rw [hversions, List.mem_cons] at hmem
  refine hmem.symm.imp (fun hold => hold) fun hnew => ?_
  obtain ⟨rfl, ht⟩ := Prod.mk.inj hnew
  exact Option.some.inj ht ▸ h

/-- Every call keeps its promises, if the time it brings was never that of an analysis of its incident. -/
theorem call_sat (localeCompare : Collation Cuid) (ops : ι → Op) (i : ι) :
    (matching ops).Sat sem i ((ops i).call localeCompare) fun s =>
      ∀ id t, (ops i).refreshes id t → (id, some t) ∉ s.versions := by
  cases hop : ops i with
  | refresh llmEnabled orgId incidentId others topology now force =>
      have hmine : (ops i).refreshes incidentId now := by
        rw [hop]
        exact ⟨rfl, rfl⟩
      refine Spec.Sat.mono (fun s hunused => hunused incidentId now ⟨rfl, rfl⟩) ?_
      refine sat_quiet rfl fun s _ hunused => ⟨_, fun w => stable_unused hmine, hunused, ?_⟩
      split
      · exact sat_ret _ _
      · refine sat_quiet rfl fun s _ hunused => ⟨_, fun w => stable_unused hmine, hunused, ?_⟩
        dsimp only
        split
        · exact sat_ret _ _
        · exact writeFindings_sat hmine
  | round limit scope now clock fate =>
      refine Spec.Sat.mono (P := fun _ => True) (fun _ _ => trivial) ?_
      show (matching ops).Sat sem i (claimNarrativeRequests limit scope now clock fun claimed => serveEach fate claimed []) _
      unfold claimNarrativeRequests
      split
      · exact sat_ret _ _
      · refine sat_quiet rfl fun s _ _ => ⟨_, fun w => stable_seen [], fun c hc => ?_, claimEach_sat _ fate _ []⟩
        cases hc
  | requestFreshNarrative incidentId now =>
      exact sat_quiet rfl fun s _ _ => ⟨_, fun w => Spec.Stable.true i w, trivial, sat_ret _ _⟩
  | change incidentId status severity triggerValue peakValue anomalyScore =>
      exact sat_quiet rfl fun s _ _ => ⟨_, fun w => Spec.Stable.true i w, trivial, sat_ret _ _⟩

/-- Analyses of one incident bring different times, and none of them the one it has: as times that increase do. -/
def DistinctTimes (ops : ι → Op) (rows : List IncidentRow) : Prop :=
  (∀ i j id t, (ops i).refreshes id t → (ops j).refreshes id t → i = j) ∧
    ∀ i id t, (ops i).refreshes id t → ∀ r ∈ rows, r.id = id → r.rca.rcaGeneratedAt ≠ some t

theorem compatible {rows : List IncidentRow} (htimes : DistinctTimes ops rows) : (matching ops).Compatible sem anyStep := by
  intro c i w k s' _ _ _ _ hguar j hji
  refine ⟨hguar.1, fun id t hmine hmem => ?_⟩
  exact (hguar.2 id t hmem).resolve_right fun hother => hji (htimes.1 j i id t hmine hother)

end Matching

/-! ## Every run -/

section Runs
variable {ι : Type} [DecidableEq ι]

/-- Any number of calls over some incidents, none of them started. -/
def unstarted (localeCompare : Collation Cuid) (ops : ι → Op) (rows : List IncidentRow)
    (hrows : (rows.map IncidentRow.id).Nodup) : Conf ι Stmt Store Outcome where
  store := ⟨rows, hrows, rows.map fun r => (r.id, r.rca.rcaGeneratedAt)⟩
  calls := fun i => (ops i).call localeCompare

/-- In every run, whatever the order of the statements, the delays of the model and its answers: stored summaries were
written from an input with exactly the findings that are stored. -/
theorem narrative_matches (localeCompare : Collation Cuid) (ops : ι → Op) (rows : List IncidentRow)
    (hrows : (rows.map IncidentRow.id).Nodup) (hmatch : ∀ r ∈ rows, Matches r) (htimes : DistinctTimes ops rows)
    {c : Conf ι Stmt Store Outcome} (hr : Reach sem anyStep (unstarted localeCompare ops rows hrows) c) :
    ∀ r ∈ c.store.incidents, r.rca.rcaSummaryEn ≠ none ∨ r.rca.rcaSummaryFr ≠ none →
      ∃ input, r.writtenFrom = some input ∧ r.rca.rcaFindings = some input.findings := by
  have hinit : (matching ops).Good sem (unstarted localeCompare ops rows hrows) := by
    refine ⟨fun r hr => ⟨hmatch r hr, List.mem_map.mpr ⟨r, hr, rfl⟩⟩, fun i => ⟨_, ?_, ?_, call_sat localeCompare ops i⟩⟩
    · exact fun s s' hs hs' hrely hunused id t hmine hmem => hunused id t hmine (hrely.2 id t hmine hmem)
    · intro id t hmine hmem
      obtain ⟨r, hr, hpair⟩ := List.mem_map.mp hmem
      obtain ⟨hid, ht⟩ := Prod.mk.inj hpair
      exact htimes.2 i id t hmine r hr hid ht
  exact fun r hmem => ((hinit.reach (compatible htimes) hr).1 r hmem).1

end Runs

section Witness

def isolated : RcaFindings where
  version := 1
  verdict := .isolated
  node := none
  rootCauses := []
  impacted := []
  blastRadius := ⟨0, []⟩
  sameSource := []
  correlated := []
  firstToStart := true
  confidence := 1 / 2

/-- An incident that was analysed at the epoch, with a narrative asked for. -/
def analysed : IncidentRow where
  orgId := 1
  incident := ⟨⟨['a'], by decide, List.forall_mem_singleton.mpr (by decide)⟩, "Down", .open, none, none, none, none, 0⟩
  severity := .critical
  triggerValue := none
  peakValue := none
  anomalyScore := none
  condition := none
  rca := ⟨some isolated, some (1 / 2), some rcaModel, some 0, none, none, some 0, 0, none⟩
  writtenFrom := none

def answered (_ : Cuid) : Fate := ⟨[], fun _ => .parsed "Check the host." "Hôte à vérifier.", "claude", none, none, 0⟩

/-- One worker, and an analysis at the same time. -/
def workerAndRefresh : Bool → Op
  | false => .round 1 none 60000 (fun _ => 60000) answered
  | true => .refresh true 1 analysed.id [] ⟨[], [], by decide, by decide⟩ 1 true

/-- The analysis writes its findings after the worker has claimed the request and before it reads the incident. -/
def untilStored : Option (Conf Bool Stmt Store Outcome) :=
  (unstarted Cuid.codeUnits workerAndRefresh [analysed] (by decide)).run sem
    [true, false, true, false, true, false, false, false, false, false]

theorem narrative_matches_worker :
    ∃ c, untilStored = some c ∧ ∃ r ∈ c.store.incidents, r.rca.rcaSummaryEn ≠ none ∧ r.rca.rcaGeneratedAt = some 1 ∧
      ∃ input, r.writtenFrom = some input ∧ r.rca.rcaFindings = some input.findings := by
  have hstored : (untilStored.any fun c => c.store.incidents.any fun r =>
      r.rca.rcaSummaryEn.isSome && r.rca.rcaGeneratedAt == some 1) = true := by decide
  obtain ⟨c, hrun, hc⟩ := (Option.any_eq_true _ _).mp hstored
  obtain ⟨r, hr, hsummary⟩ := List.any_eq_true.mp hc
  obtain ⟨hsome, hlate⟩ := Bool.and_eq_true_iff.mp hsummary
  have hne : r.rca.rcaSummaryEn ≠ none := Option.isSome_iff_ne_none.mp hsome
  have hmatch : ∀ r ∈ [analysed], Matches r := by
    rintro _ hr (h | h) <;> exact absurd (by rw [List.mem_singleton.mp hr]; rfl) h
  have htimes : DistinctTimes workerAndRefresh [analysed] := by
    refine ⟨fun i j id t hi hj => ?_, fun i id t hi r hr _ => ?_⟩
    · cases i <;> cases j <;> first | rfl | exact hi.elim | exact hj.elim
    · cases i with
      | false => exact hi.elim
      | true =>
          obtain ⟨-, rfl⟩ := hi
          rw [List.mem_singleton.mp hr]
          decide
  exact ⟨c, hrun, r, hr, hne, eq_of_beq hlate, narrative_matches Cuid.codeUnits workerAndRefresh [analysed]
    (by decide) hmatch htimes
    (Reach.of_run hrun) r hr (.inl hne)⟩

end Witness

end IkelyaneMonitor.Aiops.RcaLlm
