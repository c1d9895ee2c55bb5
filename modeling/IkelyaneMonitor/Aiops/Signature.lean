import Mathlib.Data.List.Lex
import IkelyaneMonitor.Wire.Json
import IkelyaneMonitor.Topology.Order
import IkelyaneMonitor.Aiops.Rca

/-!
# Change detection (`signature`, `refreshIncidentRca` in `modules/aiops/rca.ts`)

* `ids`, `outline`, `signature` : the parts of the findings that are compared, and their text;
* `RcaRow`, `refreshIncidentRca` : the columns of an incident that hold its analysis, and one refresh of them;
* `ids_eq_iff`, `signature_eq_iff` : equal texts have equal parts.
-/

namespace IkelyaneMonitor.Aiops
open IkelyaneMonitor.Topology
open Wire (Json Quoting render)

def RcaVerdict.text : RcaVerdict → String
  | .symptom => "symptom"
  | .rootCause => "root_cause"
  | .isolated => "isolated"
  | .notMapped => "not_mapped"

/-- `refs.map((r) => r.incidentId).sort().join(",")`. -/
def ids (refs : List RcaIncidentRef) : List Char :=
  [','].intercalate (((refs.map RcaIncidentRef.incidentId).mergeSort Cuid.codeUnits.le).map Cuid.text)

def outline (findings : RcaFindings) : Json (List Char) Int :=
  .arr [.str findings.verdict.text.toList, (findings.node.map fun label => .str label.toList).getD .null,
    .arr (findings.rootCauses.map fun r => .arr [.str r.label.toList, .str (ids r.incidents)]),
    .arr (findings.impacted.map fun r => .arr [.str r.label.toList, .str (ids r.incidents)]),
    .str (ids findings.sameSource), .str (ids findings.correlated), .num findings.blastRadius.count,
    .bool findings.firstToStart]

def signature (findings : RcaFindings) : List Char := render Quoting.plain (outline findings)

def rcaModel : String := "ikelyane-rca-v1"

/-- The columns of an incident that hold its analysis. -/
structure RcaRow where
  rcaFindings : Option RcaFindings
  rcaConfidence : Option ℚ
  rcaModel : Option String
  rcaGeneratedAt : Option Int
  rcaSummaryEn : Option String
  rcaSummaryFr : Option String
  rcaLlmRequestedAt : Option Int
  rcaLlmAttempts : Nat
  rcaLlmError : Option String
  deriving DecidableEq

/-- An entry `RCA_GENERATED` of the timeline. -/
structure RcaEvent where
  incidentId : Cuid
  model : String
  verdict : RcaVerdict
  confidence : ℚ
  deriving DecidableEq

/-- The update of a refresh: a narrative written for the previous findings no longer matches them. -/
def RcaRow.refreshed (findings : RcaFindings) (wantsLlm : Bool) (now : Int) : RcaRow where
  rcaFindings := some findings
  rcaConfidence := some findings.confidence
  rcaModel := some Aiops.rcaModel
  rcaGeneratedAt := some now
  rcaSummaryEn := none
  rcaSummaryFr := none
  rcaLlmRequestedAt := if wantsLlm then some now else none
  rcaLlmAttempts := 0
  rcaLlmError := none

/-- `previous && previous.version === 1 && signature(previous) === signature(findings)`. -/
def unchanged (previous : Option RcaFindings) (findings : RcaFindings) : Bool :=
  match previous with
  | none => false
  | some previous => decide (previous.version = 1) && decide (signature previous = signature findings)

/-- The row afterwards, what is added to the timeline, and whether anything was written. -/
def refreshIncidentRca (localeCompare : Collation Cuid) (llmEnabled : Bool) (incident : RcaIncident) (row : RcaRow)
    (others : List RcaIncident) (topology : RcaTopology) (now : Int) (force : Bool) : RcaRow × List RcaEvent × Bool :=
  let findings := analyzeIncident localeCompare incident others topology
  if !force && unchanged row.rcaFindings findings then (row, [], false)
  else (.refreshed findings llmEnabled now, [⟨incident.id, rcaModel, findings.verdict, findings.confidence⟩], true)

/-! ## Equal signatures -/

theorem RcaVerdict.text_inj {a b : RcaVerdict} (h : a.text = b.text) : a = b := by
  cases a <;> cases b <;> first | rfl | exact absurd h (by decide)

theorem Cuid.comma_notMem (id : Cuid) : ',' ∉ id.text := fun h => absurd (id.plain _ h) (by decide)

/-- The texts of two lists of ids joined by commas are equal just when the lists are. -/
theorem join_inj {a b : List Cuid} (h : [','].intercalate (a.map Cuid.text) = [','].intercalate (b.map Cuid.text)) :
    a = b := by
  have hcomma : ∀ (l : List Cuid), ∀ t ∈ l.map Cuid.text, ',' ∉ t := by
    intro l t ht
    obtain ⟨id, -, rfl⟩ := List.mem_map.mp ht
    exact id.comma_notMem
  have hnil : ∀ l : List Cuid, [','].intercalate (l.map Cuid.text) = [] → l = [] := by
    intro l hl
    cases l with
    | nil => rfl
    | cons id l =>
        cases l with
        | nil => exact absurd (by simpa using hl) id.nonempty
        | cons id' l => simp [List.intercalate] at hl
  have hmap : a.map Cuid.text = b.map Cuid.text := by
    cases a with
    | nil => rw [hnil b h.symm]
    | cons id a =>
        cases b with
        | nil => rw [hnil _ h]
        | cons id' b =>
            have hsplit := congrArg (List.splitOn ',') h
            rwa [List.splitOn_intercalate _ (hcomma _) (by simp), List.splitOn_intercalate _ (hcomma _) (by simp)] at hsplit
  exact List.map_injective_iff.mpr (fun _ _ => Cuid.ext_text) hmap

theorem sortIds_eq_iff {a b : List Cuid} :
    a.mergeSort Cuid.codeUnits.le = b.mergeSort Cuid.codeUnits.le ↔ a.Perm b := by
  refine ⟨fun h => ?_, Cuid.codeUnits.mergeSort_eq⟩
  exact (List.mergeSort_perm a Cuid.codeUnits.le).symm.trans (h ▸ List.mergeSort_perm b Cuid.codeUnits.le)

theorem ids_eq_iff {refs refs' : List RcaIncidentRef} :
    ids refs = ids refs' ↔ (refs.map RcaIncidentRef.incidentId).Perm (refs'.map RcaIncidentRef.incidentId) := by
  rw [← sortIds_eq_iff]
  exact ⟨join_inj, fun h => by rw [ids, ids, h]⟩

/-- What is compared of a node. -/
def entry (r : RcaNodeRef) : String × List Char := (r.label, ids r.incidents)

theorem signature_eq_iff {f g : RcaFindings} : signature f = signature g ↔
    f.verdict = g.verdict ∧ f.node = g.node ∧ f.rootCauses.map entry = g.rootCauses.map entry ∧
      f.impacted.map entry = g.impacted.map entry ∧ ids f.sameSource = ids g.sameSource ∧
      ids f.correlated = ids g.correlated ∧ f.blastRadius.count = g.blastRadius.count ∧
      f.firstToStart = g.firstToStart := by
  have hnode : ∀ a b : Option String, (a.map fun label => Json.str (ν := Int) label.toList).getD .null =
      (b.map fun label => Json.str label.toList).getD .null ↔ a = b := by
    intro a b
    cases a <;> cases b <;> simp [String.toList_inj]
  have hnodes : ∀ a b : List RcaNodeRef,
      (a.map fun r => Json.arr [.str r.label.toList, .str (ids r.incidents)] : List (Json (List Char) Int)) =
        (b.map fun r => .arr [.str r.label.toList, .str (ids r.incidents)]) ↔ a.map entry = b.map entry := by
    intro a b
    have hinj : Function.Injective fun e : String × List Char =>
        (Json.arr [.str e.1.toList, .str e.2] : Json (List Char) Int) := by
      intro e e' h
      simp only [Json.arr.injEq, List.cons.injEq, Json.str.injEq, String.toList_inj, and_true] at h
      exact Prod.ext h.1 h.2
    rw [← (List.map_injective_iff.mpr hinj).eq_iff, List.map_map, List.map_map]
    rfl
  have hverdict : f.verdict.text = g.verdict.text ↔ f.verdict = g.verdict := ⟨RcaVerdict.text_inj, fun h => by rw [h]⟩
  have houtline : signature f = signature g ↔ outline f = outline g :=
    ⟨Wire.render_inj, fun h => by rw [signature, h, signature]⟩
  rw [houtline]
  unfold outline
  simp only [Json.arr.injEq, List.cons.injEq, Json.str.injEq, Json.num.injEq, Json.bool.injEq, String.toList_inj, hnode,
    hnodes, hverdict, Int.natCast_inj, and_true]

theorem unchanged_iff {previous : Option RcaFindings} {findings : RcaFindings} :
    unchanged previous findings = true ↔
      ∃ p, previous = some p ∧ p.version = 1 ∧ signature p = signature findings := by
  cases previous <;> simp [unchanged]

/-- A refresh without `force` writes nothing just when the signature is the one of before. -/
theorem refreshIncidentRca_eq {localeCompare : Collation Cuid} {llmEnabled : Bool} {incident : RcaIncident} {row : RcaRow}
    {others : List RcaIncident} {topology : RcaTopology} {now : Int} :
    (refreshIncidentRca localeCompare llmEnabled incident row others topology now false).2.2 = false ↔
      unchanged row.rcaFindings (analyzeIncident localeCompare incident others topology) = true := by
  unfold refreshIncidentRca
  cases hsame : unchanged row.rcaFindings (analyzeIncident localeCompare incident others topology) <;> simp [hsame]

end IkelyaneMonitor.Aiops
