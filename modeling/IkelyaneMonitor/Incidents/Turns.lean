import Mathlib
import IkelyaneMonitor.Incidents.Shared

/-!
# One evaluation, turn by turn

An evaluation takes its points and rules one after the other; each is a turn.

* `Through f s s' ws` : whatever comes next, the part `f` of a call takes `s` to `s'` with the statements `ws`;
* `Settles` : what a turn does to the incident of its rule and source, from its verdict (`evaluateItem_settles`);
* `Turn` : the store in which an evaluation comes to a point and a rule; `Opens` : the turn opens an incident, which is when
  its breach is sustained and no incident is open (`opens_iff`);
* `creates_evaluateIngestedMetrics` : an evaluation opens incidents in its turns only.
-/

namespace IkelyaneMonitor.Incidents
open Interleave Telemetry Aiops Alerts

/-- Whatever comes next, the part `f` of a call runs the statements `ws` and leaves `s'`. -/
def Through (f : Call → Call) (s s' : Store) (ws : List (Store × Stmt)) : Prop :=
  ∀ k, (f k).exec sem () s = k.exec sem () s' ∧ (f k).stmts sem () s = ws ++ k.stmts sem () s'

section Through
variable {f g : Call → Call} {s s₁ s' : Store} {ws : List (Store × Stmt)}

theorem Through.none (hf : ∀ k, f k = k) (s : Store) : Through f s s [] := by
  intro k
  rw [hf]
  exact ⟨rfl, rfl⟩

theorem Through.stmt {w : Stmt} {body : Store → Call → Call} (hf : ∀ k, f k = .stmt w fun x => body x k)
    (h : sem () w s = some s₁) (hbody : Through (body s) s₁ s' ws) : Through f s s' ((s, w) :: ws) := by
  intro k
  obtain ⟨hexec, hstmts⟩ := hbody k
  rw [hf]
  constructor
  · rw [Prog.exec, h, Option.bind_some, hexec]
  · rw [Prog.stmts, h, Option.map_some, Option.getD_some, hstmts, List.cons_append]

end Through

/-- The statement opens an incident. -/
def Stmt.creates : Stmt → Bool
  | .createIncident _ => true
  | _ => false

/-- Some statement opens an incident. -/
def creates (ws : List (Store × Stmt)) : Bool := ws.any fun x => x.2.creates

@[simp] theorem creates_nil : creates [] = false := rfl

@[simp] theorem creates_cons (s : Store) (w : Stmt) (ws : List (Store × Stmt)) :
    creates ((s, w) :: ws) = (w.creates || creates ws) := rfl

theorem creates_append (ws vs : List (Store × Stmt)) : creates (ws ++ vs) = (creates ws || creates vs) := List.any_append

/-- The points and the incidents stay as they are. -/
def Same (s s' : Store) : Prop := s'.entries = s.entries ∧ s'.incidents = s.incidents

/-- A part of a call that opens and writes no incident. -/
def Quiet (f : Call → Call) (s : Store) : Prop := ∃ s' ws, Through f s s' ws ∧ Same s s' ∧ creates ws = false

/-- What a turn with this verdict does to the incident of its key; a rule without a condition has no verdict. -/
structure Settled (own : IncidentKey) (verdict : Option Bool) (s s' : Store) (ws : List (Store × Stmt)) : Prop where
  entries : s'.entries = s.entries
  others : ∀ key, key ≠ own → hasOpen key s' = hasOpen key s
  creates : creates ws = true ↔ verdict = some true ∧ hasOpen own s = false
  opens : verdict = some true → hasOpen own s' = true
  stays : verdict ≠ some true → hasOpen own s = false → hasOpen own s' = false

def Settles (own : IncidentKey) (verdict : Option Bool) (f : Call → Call) (s : Store) : Prop :=
  ∃ s' ws, Through f s s' ws ∧ Settled own verdict s s' ws

section Settles
variable {own : IncidentKey} {verdict : Option Bool} {f : Call → Call} {body : Store → Call → Call} {w : Stmt}
  {s s₁ : Store}

theorem Quiet.none (hf : ∀ k, f k = k) (s : Store) : Quiet f s := ⟨s, [], Through.none hf s, ⟨rfl, rfl⟩, rfl⟩

theorem Quiet.stmt (hf : ∀ k, f k = .stmt w fun x => body x k) (h : sem () w s = some s₁) (hsame : Same s s₁)
    (hw : w.creates = false) (hbody : Quiet (body s) s₁) : Quiet f s := by
  obtain ⟨s', ws, hthrough, hsame', hcreates⟩ := hbody
  refine ⟨s', _, hthrough.stmt hf h, ⟨hsame'.1.trans hsame.1, hsame'.2.trans hsame.2⟩, ?_⟩
  rw [creates_cons, hw, hcreates, Bool.or_false]

/-- A statement before the turn is settled. -/
theorem Settles.stmt (hf : ∀ k, f k = .stmt w fun x => body x k) (h : sem () w s = some s₁) (hsame : Same s s₁)
    (hw : w.creates = false) (hbody : Settles own verdict (body s) s₁) : Settles own verdict f s := by
  obtain ⟨s', ws, hthrough, hsettled⟩ := hbody
  have hopen : ∀ key, hasOpen key s₁ = hasOpen key s := fun key => hasOpen_congr hsame.2
  refine ⟨s', _, hthrough.stmt hf h, hsettled.entries.trans hsame.1,
    fun key hne => (hsettled.others key hne).trans (hopen key), ?_, hsettled.opens,
    fun hv hs => hsettled.stays hv ((hopen own).trans hs)⟩
  rw [creates_cons, hw, Bool.false_or, hsettled.creates, hopen]

/-- The write that settles the turn. -/
theorem Settles.write (hf : ∀ k, f k = .stmt w fun x => body x k) (h : sem () w s = some s₁)
    (hsettled : Settled own verdict s s₁ [(s, w)]) (hbody : Quiet (body s) s₁) : Settles own verdict f s := by
  obtain ⟨s', ws, hthrough, hsame, hcreates⟩ := hbody
  have hopen : ∀ key, hasOpen key s' = hasOpen key s₁ := fun key => hasOpen_congr hsame.2
  refine ⟨s', _, hthrough.stmt hf h, hsame.1.trans hsettled.entries,
    fun key hne => (hopen key).trans (hsettled.others key hne), ?_,
    fun hv => (hopen own).trans (hsettled.opens hv), fun hv hs => (hopen own).trans (hsettled.stays hv hs)⟩
  rw [← hsettled.creates, creates_cons, creates_cons, hcreates, creates_nil]

/-- A turn that leaves things as they are. -/
theorem Settles.none (hf : ∀ k, f k = k) (hverdict : verdict ≠ some true) : Settles own verdict f s :=
  ⟨s, [], Through.none hf s, rfl, fun _ _ => rfl, by simp [hverdict], fun hv => absurd hv hverdict, fun _ hs => hs⟩

theorem notify_quiet (rule : AlertRule) (key : IncidentKey) (incidentId : Nat) (outcome : NotificationOutcome) (s : Store) :
    Quiet (notify rule key incidentId outcome) s := by
  by_cases hnone : rule.dispatched.isEmpty = true
  · exact .none (fun _ => if_pos hnone) s
  · refine .stmt (fun _ => if_neg hnone) rfl ⟨rfl, rfl⟩ rfl ?_
    exact .stmt (fun _ => rfl) rfl ⟨rfl, rfl⟩ rfl (.none (fun _ => rfl) _)

theorem announce_quiet (rule : AlertRule) (key : IncidentKey) (incidentId : Nat) (type : IncidentEventType)
    (outcome : NotificationOutcome) (s : Store) :
    Quiet (fun k => .stmt (.createEvent incidentId type) fun _ => notify rule key incidentId outcome k) s :=
  .stmt (fun _ => rfl) rfl ⟨rfl, rfl⟩ rfl (notify_quiet rule key incidentId outcome _)

theorem settleIncident_settles (orgId : Nat) (now : Int) (point : MetricRow) (rule : AlertRule) (baseline : Option Baseline)
    (sustained : Bool) (s : Store) :
    Settles (MetricRow.incidentKey point orgId rule) (some sustained)
      (settleIncident orgId now point rule baseline sustained) s := by
  refine .stmt (fun _ => rfl) rfl ⟨rfl, rfl⟩ rfl ?_
  cases hopen : s.findOpen (MetricRow.incidentKey point orgId rule) with
  | none =>
      have hclosed : hasOpen (MetricRow.incidentKey point orgId rule) s = false := by
        rw [hasOpen, hopen]
        rfl
      cases sustained with
      | true =>
          refine .stmt (fun _ => rfl) rfl ⟨rfl, rfl⟩ rfl ?_
          refine .write (fun _ => rfl) rfl ?_ (announce_quiet rule _ _ _ _ _)
          refine ⟨rfl, fun key hne => hasOpen_openIncident_other _ (Ne.symm hne), iff_of_true rfl ⟨rfl, hclosed⟩,
            fun _ => hasOpen_openIncident_self _ rfl, fun hv => absurd rfl hv⟩
      | false => exact .none (fun _ => rfl) (by decide)
  | some incident =>
      obtain ⟨hmem, hkey, hun⟩ := findOpen_mem hopen
      have hopened : hasOpen (MetricRow.incidentKey point orgId rule) s = true := by
        rw [hasOpen, hopen]
        rfl
      cases sustained with
      | true =>
          refine .write (fun _ => rfl) rfl ?_ ?_
          · refine ⟨rfl, fun key _ => ?_, by simp [Stmt.creates, hopened], fun _ => ?_, fun hv => absurd rfl hv⟩
            · exact hasOpen_write incident.id _ fun _ _ _ => rfl
            · refine Eq.trans ?_ hopened
              exact hasOpen_write incident.id _ fun _ _ _ => rfl
          · refine .stmt (fun _ => rfl) rfl ⟨rfl, rfl⟩ rfl ?_
            split
            · exact notify_quiet rule _ _ _ _
            · exact .none (fun _ => rfl) _
      | false =>
          refine .write (fun _ => rfl) rfl ?_ (announce_quiet rule _ _ _ _ _)
          refine ⟨rfl, fun key hne => ?_, by simp [Stmt.creates], fun hv => absurd hv (by decide), fun _ hclosed => ?_⟩
          · -- the row is of this key alone
            refine hasOpen_write incident.id _ fun r hr hid => ?_
            have hother : r.hasKey key = false := by
              rw [Table.eq_of_key hr hmem hid]
              exact Bool.eq_false_iff.mpr fun h => hne (key_eq_of_hasKey h hkey).symm
            show (r.hasKey key && _) = _
            rw [hother, Bool.false_and, Bool.false_and]
          · rw [hopened] at hclosed
            cases hclosed

theorem evaluateWith_settles (orgId : Nat) (now : Int) (point : MetricRow) (rule : AlertRule) (baseline : Option Baseline)
    (s : Store) :
    Settles (MetricRow.incidentKey point orgId rule) (verdictWith s.entries rule baseline (MetricRow.series point orgId) now)
      (fun k => evaluateWith orgId now point rule k baseline) s := by
  unfold verdictWith
  by_cases hnone : ((rule.condition baseline).threshold.isNone && (rule.condition baseline).anomaly.isNone) = true
  · rw [if_pos hnone]
    exact .none (fun _ => if_pos hnone) (by decide)
  · rw [if_neg hnone]
    exact .stmt (fun _ => if_neg hnone) rfl ⟨rfl, rfl⟩ rfl (settleIncident_settles orgId now point rule baseline _ _)

theorem evaluateItem_settles (orgId : Nat) (now : Int) (point : MetricRow) (rule : AlertRule) (s : Store) :
    Settles (MetricRow.incidentKey point orgId rule) (itemVerdict s.entries s.cache orgId now (point, rule))
      (evaluateItem orgId now point rule) s := by
  unfold itemVerdict ruleBaseline
  by_cases hanomaly : rule.anomalyDetection = true
  · dsimp only
    rw [if_pos hanomaly]
    have hload : ∀ k, evaluateItem orgId now point rule k =
        loadBaseline (MetricRow.series point orgId) rule.durationSec now (evaluateWith orgId now point rule k) :=
      fun k => if_pos hanomaly
    refine .stmt hload rfl ⟨rfl, rfl⟩ rfl ?_
    cases hhit : s.cache.hit (cacheKey (MetricRow.series point orgId) rule.durationSec) now with
    | some baseline =>
        have hloaded : (loadedBaseline s.entries s.cache (MetricRow.series point orgId) rule.durationSec now).1 =
          baseline := by
          simp only [loadedBaseline, hhit]
        rw [hloaded]
        exact evaluateWith_settles orgId now point rule baseline s
    | none =>
        have hloaded : (loadedBaseline s.entries s.cache (MetricRow.series point orgId) rule.durationSec now).1 =
            computeBaseline (sample s.entries (MetricRow.series point orgId) (baselineRanges now rule.durationSec)) := by
          simp only [loadedBaseline, hhit]
        rw [hloaded]
        refine .stmt (fun _ => rfl) rfl ⟨rfl, rfl⟩ rfl ?_
        refine .stmt (fun _ => rfl) rfl ⟨rfl, rfl⟩ rfl ?_
        exact evaluateWith_settles orgId now point rule _ _
  · dsimp only
    rw [if_neg hanomaly]
    have hplain : evaluateItem orgId now point rule = fun k => evaluateWith orgId now point rule k none :=
      funext fun k => if_neg hanomaly
    rw [hplain]
    exact evaluateWith_settles orgId now point rule none s

end Settles

/-! ## Turns -/

/-- The points of a batch, each with the rules that are evaluated on it. -/
def evaluatedItems (s : Store) (orgId : Nat) (rows : List MetricRow) : List (MetricRow × AlertRule) :=
  let points := latestPoints rows
  workItems points (s.findRules orgId (points.map MetricRow.sourceKind) (points.map MetricRow.metric))

/-- The evaluation of a batch comes to a point and a rule in the store `s'`. -/
def Turn (s : Store) (orgId : Nat) (rows : List MetricRow) (now : Int) (point : MetricRow) (rule : AlertRule)
    (s' : Store) : Prop :=
  ∃ pre post, evaluatedItems s orgId rows = pre ++ (point, rule) :: post ∧
    (evaluateAll orgId now pre).exec sem () s = some (s', .evaluated)

/-- The turn opens an incident. -/
def Opens (orgId : Nat) (now : Int) (point : MetricRow) (rule : AlertRule) (s' : Store) : Prop :=
  creates ((evaluateItem orgId now point rule (.ret .evaluated)).stmts sem () s') = true

/-- An incident of the rule and the source is open after the turn. -/
def OpenAfter (s : Store) (orgId : Nat) (rows : List MetricRow) (now : Int) (point : MetricRow) (rule : AlertRule) : Prop :=
  ∃ s' s'', Turn s orgId rows now point rule s' ∧
    (evaluateItem orgId now point rule (.ret .evaluated)).exec sem () s' = some (s'', .evaluated) ∧
      hasOpen (MetricRow.incidentKey point orgId rule) s'' = true

section Turns
variable {s s' : Store} {orgId : Nat} {rows : List MetricRow} {now : Int} {point : MetricRow} {rule : AlertRule}

/-- What the first items of a loop do, whatever the others are. -/
def Passes (orgId : Nat) (now : Int) (pre : List (MetricRow × AlertRule)) (s s' : Store) (ws : List (Store × Stmt)) : Prop :=
  ∀ post, (evaluateAll orgId now (pre ++ post)).exec sem () s = (evaluateAll orgId now post).exec sem () s' ∧
    (evaluateAll orgId now (pre ++ post)).stmts sem () s = ws ++ (evaluateAll orgId now post).stmts sem () s'

theorem Passes.cons {s₁ : Store} {pre : List (MetricRow × AlertRule)} {item : MetricRow × AlertRule}
    {ws vs : List (Store × Stmt)} (h : Through (evaluateItem orgId now item.1 item.2) s s₁ ws)
    (hrest : Passes orgId now pre s₁ s' vs) : Passes orgId now (item :: pre) s s' (ws ++ vs) := by
  intro post
  obtain ⟨hexec, hstmts⟩ := h (evaluateAll orgId now (pre ++ post))
  obtain ⟨hexec', hstmts'⟩ := hrest post
  exact ⟨hexec.trans hexec', hstmts.trans (by rw [hstmts', List.append_assoc])⟩

theorem exists_passes (orgId : Nat) (now : Int) (pre : List (MetricRow × AlertRule)) (s : Store) :
    ∃ s' ws, Passes orgId now pre s s' ws ∧ s'.entries = s.entries := by
  induction pre generalizing s with
  | nil => exact ⟨s, [], fun _ => ⟨rfl, rfl⟩, rfl⟩
  | cons item pre ih =>
      obtain ⟨s₁, ws, hthrough, hsettled⟩ := evaluateItem_settles orgId now item.1 item.2 s
      obtain ⟨s', vs, hpasses, hentries⟩ := ih s₁
      exact ⟨s', _, hpasses.cons hthrough, hentries.trans hsettled.entries⟩

theorem Passes.exec {pre : List (MetricRow × AlertRule)} {ws : List (Store × Stmt)} (h : Passes orgId now pre s s' ws) :
    (evaluateAll orgId now pre).exec sem () s = some (s', .evaluated) := by
  have hall := (h []).1
  rw [List.append_nil] at hall
  exact hall

/-- Every item has its turn. -/
theorem exists_turn (h : (point, rule) ∈ evaluatedItems s orgId rows) : ∃ s', Turn s orgId rows now point rule s' := by
  obtain ⟨pre, post, hsplit⟩ := List.append_of_mem h
  obtain ⟨s', ws, hpasses, -⟩ := exists_passes orgId now pre s
  exact ⟨s', pre, post, hsplit, hpasses.exec⟩

theorem Turn.entries (h : Turn s orgId rows now point rule s') : s'.entries = s.entries := by
  obtain ⟨pre, post, -, hexec⟩ := h
  obtain ⟨s₁, ws, hpasses, hentries⟩ := exists_passes orgId now pre s
  obtain rfl := (Prod.mk.inj (Option.some.inj (hpasses.exec.symm.trans hexec))).1
  exact hentries

/-- A turn opens an incident exactly when it finds a sustained breach and no open incident. -/
theorem opens_iff : Opens orgId now point rule s' ↔ itemVerdict s'.entries s'.cache orgId now (point, rule) = some true ∧
    hasOpen (MetricRow.incidentKey point orgId rule) s' = false := by
  obtain ⟨s₁, ws, hthrough, hsettled⟩ := evaluateItem_settles orgId now point rule s'
  have hstmts := (hthrough (.ret .evaluated)).2
  rw [Prog.stmts, List.append_nil] at hstmts
  rw [Opens, hstmts]
  exact hsettled.creates

theorem creates_evaluateAll (items : List (MetricRow × AlertRule)) (s : Store) :
    creates ((evaluateAll orgId now items).stmts sem () s) = true ↔ ∃ pre post point rule s',
      items = pre ++ (point, rule) :: post ∧ (evaluateAll orgId now pre).exec sem () s = some (s', .evaluated) ∧
        Opens orgId now point rule s' := by
  induction items generalizing s with
  | nil =>
      refine iff_of_false Bool.false_ne_true ?_
      rintro ⟨pre, post, point, rule, s', hsplit, -⟩
      exact absurd hsplit (by simp)
  | cons item items ih =>
      obtain ⟨s₁, ws, hthrough, -⟩ := evaluateItem_settles orgId now item.1 item.2 s
      have hstmts := (hthrough (evaluateAll orgId now items)).2
      have halone := (hthrough (.ret .evaluated)).2
      rw [Prog.stmts, List.append_nil] at halone
      have hexec : ∀ pre, (evaluateAll orgId now (item :: pre)).exec sem () s = (evaluateAll orgId now pre).exec sem () s₁ :=
        fun pre => (hthrough (evaluateAll orgId now pre)).1
      rw [evaluateAll, hstmts, creates_append, Bool.or_eq_true, ih]
      constructor
      · rintro (hfirst | ⟨pre, post, point, rule, s', rfl, hpre, hopens⟩)
        · refine ⟨[], items, item.1, item.2, s, rfl, rfl, ?_⟩
          rw [Opens, halone]
          exact hfirst
        · exact ⟨item :: pre, post, point, rule, s', rfl, (hexec pre).trans hpre, hopens⟩
      · rintro ⟨pre, post, point, rule, s', hsplit, hpre, hopens⟩
        cases pre with
        | nil =>
            obtain ⟨rfl, -⟩ := List.cons.inj hsplit
            obtain rfl : s = s' := (Prod.mk.inj (Option.some.inj hpre)).1
            rw [Opens, halone] at hopens
            exact .inl hopens
        | cons head pre =>
            obtain ⟨rfl, hrest⟩ := List.cons.inj hsplit
            exact .inr ⟨pre, post, point, rule, s', hrest, (hexec pre).symm.trans hpre, hopens⟩

/-- An evaluation opens incidents in its turns only. -/
theorem creates_evaluateIngestedMetrics (s : Store) (orgId : Nat) (rows : List MetricRow) (now : Int) :
    creates ((evaluateIngestedMetrics orgId rows now).stmts sem () s) = true ↔
      ∃ point rule s', Turn s orgId rows now point rule s' ∧ Opens orgId now point rule s' := by
  have hall : creates ((evaluateIngestedMetrics orgId rows now).stmts sem () s) =
      creates ((evaluateAll orgId now (evaluatedItems s orgId rows)).stmts sem () s) := by
    unfold evaluateIngestedMetrics
    split
    · rename_i hnone
      rw [hnone]
      rfl
    · rfl
  rw [hall, creates_evaluateAll]
  constructor
  · rintro ⟨pre, post, point, rule, s', hsplit, hexec, hopens⟩
    exact ⟨point, rule, s', ⟨pre, post, hsplit, hexec⟩, hopens⟩
  · rintro ⟨point, rule, s', ⟨pre, post, hsplit, hexec⟩, hopens⟩
    exact ⟨pre, post, point, rule, s', hsplit, hexec, hopens⟩

end Turns

end IkelyaneMonitor.Incidents
