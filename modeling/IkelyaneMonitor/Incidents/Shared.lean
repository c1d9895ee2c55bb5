import IkelyaneMonitor.Incidents.Operations

/-!
# The incident a wildcard rule shares between instances

One evaluation, run alone, and what it does to the incident of one rule on one source.

* `inBreach` : an instance is in a sustained breach; `verdicts` : what the evaluator finds, item after item;
* `resolvesOf` : a statement moves the incident to RESOLVED; `resolves_evaluateAll` : when one of the loop does;
* `shared_resolved_iff` : exactly when the evaluation resolves the incident only after all instances cleared;
  `resolved_in_breach` : it also does otherwise.
-/

namespace IkelyaneMonitor.Incidents
open Interleave Telemetry Aiops Alerts Auth

/-! ## What the evaluator finds -/

/-- What `loadBaseline` returns, and the cache it leaves. -/
def loadedBaseline (entries : MetricEntries) (cache : Cache) (series : SeriesKey) (durationSec : Nat) (now : Int) :
    Option Baseline × Cache :=
  let key := cacheKey series durationSec
  match cache.hit key now with
  | some baseline => (baseline, cache)
  | none =>
    let baseline := computeBaseline (sample entries series (baselineRanges now durationSec))
    (baseline, cache.store key now baseline)

/-- The baseline a rule is evaluated with, and the cache after it. -/
def ruleBaseline (entries : MetricEntries) (cache : Cache) (rule : AlertRule) (series : SeriesKey) (now : Int) :
    Option Baseline × Cache :=
  if rule.anomalyDetection then loadedBaseline entries cache series rule.durationSec now else (none, cache)

/-- The instance of the source is in a sustained breach of the rule at `now`: `isSustained` of `streakSince` over its stored
history. -/
def inBreach (s : Store) (orgId : Nat) (rule : AlertRule) (sourceId : Nat) (inst : String) (now : Int) : Bool :=
  let series : SeriesKey := ⟨orgId, rule.sourceKind, sourceId, rule.metric, inst⟩
  sustainedBreach rule (ruleBaseline s.entries s.cache rule series now).1 (s.entries.history series now) now

/-- The verdict on a series: over the points the evaluator looks back on, or none when the rule has no condition. -/
def verdictWith (entries : MetricEntries) (rule : AlertRule) (baseline : Option Baseline) (series : SeriesKey) (now : Int) :
    Option Bool :=
  if (rule.condition baseline).threshold.isNone && (rule.condition baseline).anomaly.isNone then none
  else some (sustainedBreach rule baseline ((entries.history series now).take historyLookbackPoints) now)

def itemVerdict (entries : MetricEntries) (cache : Cache) (orgId : Nat) (now : Int) (item : MetricRow × AlertRule) :
    Option Bool :=
  let series := MetricRow.series item.1 orgId
  verdictWith entries item.2 (ruleBaseline entries cache item.2 series now).1 series now

/-- The verdicts on the items of one rule and source, in the order they are evaluated. -/
def verdictsOn (key : IncidentKey) (entries : MetricEntries) (orgId : Nat) (now : Int) :
    List (MetricRow × AlertRule) → Cache → List Bool
  | [], _ => []
  | item :: items, cache =>
    let rest := verdictsOn key entries orgId now items
      (ruleBaseline entries cache item.2 (MetricRow.series item.1 orgId) now).2
    if MetricRow.incidentKey item.1 orgId item.2 = key then
      (itemVerdict entries cache orgId now item).toList ++ rest
    else rest

/-- The verdicts of an evaluation on one rule and source. -/
def verdicts (s : Store) (key : IncidentKey) (orgId : Nat) (rows : List MetricRow) (now : Int) : List Bool :=
  let points := latestPoints rows
  verdictsOn key s.entries orgId now
    (workItems points (s.findRules orgId (points.map MetricRow.sourceKind) (points.map MetricRow.metric))) s.cache

/-! ## What it does to the incident -/

/-- The statement moves an incident of `key` to RESOLVED. -/
def resolvesOf (key : IncidentKey) (x : Store × Stmt) : Bool :=
  match x.2 with
  | .autoResolve id _ => (x.1.incidents.get? id).any fun r => r.hasKey key && r.unresolved
  | _ => false

/-- A call run alone does. -/
def resolves (key : IncidentKey) (p : Call) (s : Store) : Bool := (p.stmts sem () s).any (resolvesOf key)

/-- The incident is opened or stays open with a sustained breach, and goes with the next one that is not. -/
def resolvesAfter : Bool → List Bool → Bool
  | _, [] => false
  | _, true :: flags => resolvesAfter true flags
  | true, false :: _ => true
  | false, false :: flags => resolvesAfter false flags

theorem resolvesAfter_eq_false {opened : Bool} {flags : List Bool} : resolvesAfter opened flags = false ↔
    (∀ v ∈ flags, v = true) ∨ (opened = false ∧ flags.Pairwise fun a b => a = true → b = true) := by
  induction flags generalizing opened with
  | nil => simp [resolvesAfter]
  | cons v flags ih =>
      cases v with
      | true =>
          rw [resolvesAfter, ih]
          simp only [List.mem_cons, forall_eq_or_imp, true_and, List.pairwise_cons, true_implies, Bool.true_eq_false,
            false_and, or_false]
          exact ⟨.inl, fun h => h.elim id fun h => h.2.1⟩
      | false =>
          cases opened with
          | true => simp [resolvesAfter]
          | false =>
              rw [resolvesAfter, ih]
              simp only [List.mem_cons, forall_eq_or_imp, Bool.false_eq_true, false_and, false_or, true_and,
                List.pairwise_cons, false_implies, implies_true]
              refine ⟨fun h => h.elim (fun hall => ?_) id, .inr⟩
              exact List.pairwise_of_forall_mem_list fun a _ b hb _ => hall b hb

/-! ## The loop -/

section Loop
variable {key : IncidentKey} {entries : MetricEntries} {cache : Cache} {k : Call} {flags : List Bool}

/-- Over these points and this cache, the call resolves an incident of the key exactly when verdicts `flags` do. -/
def Follows (key : IncidentKey) (entries : MetricEntries) (cache : Cache) (k : Call) (flags : List Bool) : Prop :=
  ∀ s : Store, s.entries = entries → s.cache = cache → resolves key k s = resolvesAfter (hasOpen key s) flags

theorem resolves_stmt {w : Stmt} {k : Store → Call} {s s' : Store} (h : sem () w s = some s')
    (hw : resolvesOf key (s, w) = false) : resolves key (.stmt w k) s = resolves key (k s) s' := by
  simp only [resolves, Prog.stmts, h, Option.map_some, Option.getD_some, List.any_cons, hw, Bool.false_or]

/-- A statement that leaves the points, the cache and the incidents alone. -/
theorem Follows.stmt {w : Stmt} {k : Store → Call} (hsem : ∀ s, ∃ s', sem () w s = some s' ∧ s'.entries = s.entries ∧
      s'.cache = s.cache ∧ s'.incidents = s.incidents) (hw : ∀ s, resolvesOf key (s, w) = false)
    (hk : ∀ s : Store, s.entries = entries → s.cache = cache → ∀ s' : Store, s'.entries = entries → s'.cache = cache →
      hasOpen key s' = hasOpen key s → resolves key (k s) s' = resolvesAfter (hasOpen key s) flags) :
    Follows key entries cache (.stmt w k) flags := by
  intro s he hc
  obtain ⟨s', hs', he', hc', hi'⟩ := hsem s
  rw [resolves_stmt hs' (hw s)]
  exact hk s he hc s' (he'.trans he) (hc'.trans hc) (hasOpen_congr hi')

theorem Follows.then {w : Stmt} {k : Call} (hsem : ∀ s, ∃ s', sem () w s = some s' ∧ s'.entries = s.entries ∧
      s'.cache = s.cache ∧ s'.incidents = s.incidents) (hw : ∀ s, resolvesOf key (s, w) = false)
    (hk : Follows key entries cache k flags) : Follows key entries cache (.stmt w fun _ => k) flags :=
  .stmt hsem hw fun _ _ _ s' he hc hopen => hopen ▸ hk s' he hc

theorem notify_follows (rule : AlertRule) (own : IncidentKey) (incidentId : Nat) (outcome : NotificationOutcome)
    (hk : Follows key entries cache k flags) : Follows key entries cache (notify rule own incidentId outcome k) flags := by
  unfold notify
  split
  · exact hk
  · exact .then (fun s => ⟨_, rfl, rfl, rfl, rfl⟩) (fun _ => rfl)
      (.then (fun s => ⟨_, rfl, rfl, rfl, rfl⟩) (fun _ => rfl) hk)

/-- What follows the write of an incident: its timeline and its notification. -/
theorem announce_follows (rule : AlertRule) (own : IncidentKey) (incidentId : Nat) (type : IncidentEventType)
    (outcome : NotificationOutcome) (hk : Follows key entries cache k flags) :
    Follows key entries cache (.stmt (.createEvent incidentId type) fun _ => notify rule own incidentId outcome k) flags :=
  .then (fun _ => ⟨_, rfl, rfl, rfl, rfl⟩) (fun _ => rfl) (notify_follows rule own incidentId outcome hk)

theorem resolvesAfter_true (opened : Bool) : resolvesAfter opened (true :: flags) = resolvesAfter true flags := by
  cases opened <;> rfl

/-- A sustained breach opens an incident. -/
theorem resolves_create {d : NewIncident} {rest : Nat → Call} {s : Store} (he : s.entries = entries) (hc : s.cache = cache)
    (hrest : ∀ id, Follows key entries cache (rest id) flags) :
    resolves key (.stmt (.createIncident d) fun s => rest s.incidents.next) s =
      resolvesAfter (hasOpen key s) (if d.key = key then true :: flags else flags) := by
  rw [resolves_stmt rfl rfl, hrest _ (s.openIncident d) he hc]
  split
  · rename_i hown
    rw [hasOpen_openIncident_self d hown, resolvesAfter_true]
  · rename_i hown
    rw [hasOpen_openIncident_other d hown]

/-- A sustained breach keeps the open one. -/
theorem resolves_update {own : IncidentKey} {incident : Incident} {triggerValue peakValue : ℚ} {anomalyScore : Option ℚ}
    {rest : Call} {s : Store} (hopen : s.findOpen own = some incident) (he : s.entries = entries) (hc : s.cache = cache)
    (hrest : Follows key entries cache rest flags) :
    resolves key (.stmt (.updateIncident incident.id triggerValue peakValue anomalyScore) fun _ => rest) s =
      resolvesAfter (hasOpen key s) (if own = key then true :: flags else flags) := by
  rw [resolves_stmt rfl rfl, hrest _ (by exact he) (by exact hc), hasOpen_write incident.id _ (by exact fun _ _ _ => rfl)]
  split
  · rename_i hown
    rw [resolvesAfter_true, hasOpen, ← hown, hopen, Option.isSome_some]
  · rfl

/-- Without one the open incident goes. -/
theorem resolves_autoResolve {own : IncidentKey} {incident : Incident} {now : Int} {rest : Call} {s : Store}
    (hopen : s.findOpen own = some incident) (he : s.entries = entries) (hc : s.cache = cache)
    (hrest : Follows key entries cache rest flags) :
    resolves key (.stmt (.autoResolve incident.id now) fun _ => rest) s =
      resolvesAfter (hasOpen key s) (if own = key then false :: flags else flags) := by
  obtain ⟨hmem, hkey, hun⟩ := findOpen_mem hopen
  have hget : s.incidents.get? incident.id = some incident := Table.get?_eq_some.mpr ⟨hmem, rfl⟩
  split
  · rename_i hown
    rw [hown] at hkey hopen
    rw [hasOpen, hopen, Option.isSome_some, resolvesAfter]
    simp [resolves, Prog.stmts, resolvesOf, hget, hkey, hun]
  · rename_i hown
    have hother : ∀ r ∈ s.incidents, r.id = incident.id → r.hasKey key = false := by
      intro r hr hid
      rw [Table.eq_of_key hr hmem hid]
      exact Bool.eq_false_iff.mpr fun h => hown (key_eq_of_hasKey h hkey)
    rw [resolves_stmt rfl (by simp [resolvesOf, hget, hother incident hmem rfl]), hrest _ (by exact he) (by exact hc),
      hasOpen_write incident.id _ fun r hr hid => ?_]
    have hkept : (r.autoResolve now).hasKey key = r.hasKey key := rfl
    rw [hkept, hother r hr hid, Bool.false_and, Bool.false_and]

theorem settleIncident_follows (orgId : Nat) (now : Int) (point : MetricRow) (rule : AlertRule) (baseline : Option Baseline)
    (sustained : Bool) (hk : Follows key entries cache k flags) :
    Follows key entries cache (settleIncident orgId now point rule baseline sustained k)
      (if MetricRow.incidentKey point orgId rule = key then sustained :: flags else flags) := by
  intro s he hc
  have hread : sem () (.findOpen (MetricRow.incidentKey point orgId rule)) s = some s := rfl
  rw [settleIncident, resolves_stmt hread rfl]
  cases hopen : s.findOpen (MetricRow.incidentKey point orgId rule) with
  | none =>
      cases sustained with
      | true =>
          have hlabel : sem () (.findLabel (MetricRow.incidentKey point orgId rule) point.sourceKind) s = some s := rfl
          dsimp only
          rw [resolves_stmt hlabel rfl]
          exact resolves_create he hc fun id => announce_follows rule _ id .opened .opened hk
      | false =>
          refine (hk s he hc).trans ?_
          split
          · rename_i hown
            rw [hasOpen, ← hown, hopen, Option.isSome_none]
            rfl
          · rfl
  | some incident =>
      cases sustained with
      | true =>
          refine resolves_update hopen he hc ?_
          refine .stmt (fun s => ⟨s, rfl, rfl, rfl, rfl⟩) (fun _ => rfl) fun s _ _ s' he hc hsame => ?_
          rw [← hsame]
          split
          · exact notify_follows rule _ incident.id .stillOpen hk s' he hc
          · exact hk s' he hc
      | false => exact resolves_autoResolve hopen he hc (announce_follows rule _ incident.id .resolved .resolved hk)

theorem loadBaseline_follows (series : SeriesKey) (durationSec : Nat) (now : Int) {k : Option Baseline → Call}
    (hk : Follows key entries (loadedBaseline entries cache series durationSec now).2
      (k (loadedBaseline entries cache series durationSec now).1) flags) :
    Follows key entries cache (loadBaseline series durationSec now k) flags := by
  intro s he hc
  have hread : sem () (.readCache (cacheKey series durationSec) now) s = some s := rfl
  rw [loadBaseline, resolves_stmt hread rfl, hc]
  cases hhit : cache.hit (cacheKey series durationSec) now with
  | some baseline =>
      simp only [loadedBaseline, hhit] at hk
      exact hk s he hc
  | none =>
      simp only [loadedBaseline, hhit] at hk
      have hsample : sem () (.findSample series (baselineRanges now durationSec)) s = some s := rfl
      dsimp only
      rw [resolves_stmt hsample rfl, resolves_stmt rfl rfl, he]
      exact hk _ rfl (by rw [hc])

theorem evaluateWith_follows (orgId : Nat) (now : Int) (point : MetricRow) (rule : AlertRule) (baseline : Option Baseline)
    (hk : Follows key entries cache k flags) :
    Follows key entries cache (evaluateWith orgId now point rule k baseline)
      (if MetricRow.incidentKey point orgId rule = key then
        (verdictWith entries rule baseline (MetricRow.series point orgId) now).toList ++ flags else flags) := by
  unfold evaluateWith verdictWith
  split
  · simpa using hk
  · refine .stmt (fun s => ⟨s, rfl, rfl, rfl, rfl⟩) (fun _ => rfl) fun s he _ s' he' hc' hsame => ?_
    rw [he, ← hsame]
    exact settleIncident_follows orgId now point rule baseline _ hk s' he' hc'

theorem evaluateItem_follows (orgId : Nat) (now : Int) (point : MetricRow) (rule : AlertRule)
    (hk : Follows key entries (ruleBaseline entries cache rule (MetricRow.series point orgId) now).2 k flags) :
    Follows key entries cache (evaluateItem orgId now point rule k)
      (if MetricRow.incidentKey point orgId rule = key then
        (itemVerdict entries cache orgId now (point, rule)).toList ++ flags else flags) := by
  unfold evaluateItem itemVerdict
  unfold ruleBaseline at hk ⊢
  cases hanomaly : rule.anomalyDetection with
  | true =>
      rw [hanomaly, if_pos rfl] at hk
      exact loadBaseline_follows _ _ _ (evaluateWith_follows orgId now point rule _ hk)
  | false =>
      rw [hanomaly, if_neg Bool.false_ne_true] at hk
      exact evaluateWith_follows orgId now point rule none hk

theorem evaluateAll_follows (orgId : Nat) (now : Int) (items : List (MetricRow × AlertRule)) (cache : Cache) :
    Follows key entries cache (evaluateAll orgId now items) (verdictsOn key entries orgId now items cache) := by
  induction items generalizing cache with
  | nil => exact fun s _ _ => by cases hasOpen key s <;> rfl
  | cons item items ih => exact evaluateItem_follows orgId now item.1 item.2 (ih _)

/-- An evaluation run alone resolves an incident of the key exactly when its verdicts do. -/
theorem resolves_evaluateIngestedMetrics (s : Store) (orgId : Nat) (rows : List MetricRow) (now : Int) :
    resolves key (evaluateIngestedMetrics orgId rows now) s =
      resolvesAfter (hasOpen key s) (verdicts s key orgId rows now) := by
  unfold evaluateIngestedMetrics verdicts
  split
  · subst_vars
    cases hasOpen key s <;> rfl
  · have hread : sem () (.findRules orgId ((latestPoints rows).map MetricRow.sourceKind)
        ((latestPoints rows).map MetricRow.metric)) s = some s := rfl
    dsimp only
    rw [resolves_stmt hread rfl]
    exact evaluateAll_follows orgId now _ s.cache s rfl rfl

end Loop

/-- **The shared incident.** An evaluation moves the incident of a rule on a source to RESOLVED only after all instances
have cleared exactly when none is in a sustained breach to begin with, or it finds every instance of its batch sustained,
or there is no incident yet and it finds no cleared instance after a sustained one. -/
theorem shared_resolved_iff (s : Store) (orgId : Nat) (rows : List MetricRow) (now : Int) (rule : AlertRule)
    (sourceId : Nat) :
    (∀ x ∈ (evaluateIngestedMetrics orgId rows now).stmts sem () s,
      resolvesOf ⟨orgId, rule.id, sourceId, rule.metric⟩ x = true → ∀ inst, inBreach s orgId rule sourceId inst now = false) ↔
    (∀ inst, inBreach s orgId rule sourceId inst now = false) ∨
    (∀ v ∈ verdicts s ⟨orgId, rule.id, sourceId, rule.metric⟩ orgId rows now, v = true) ∨
    (hasOpen ⟨orgId, rule.id, sourceId, rule.metric⟩ s = false ∧
      (verdicts s ⟨orgId, rule.id, sourceId, rule.metric⟩ orgId rows now).Pairwise fun a b => a = true → b = true) := by
  rw [← resolvesAfter_eq_false, ← resolves_evaluateIngestedMetrics, resolves, List.any_eq_false]
  constructor
  · intro h
    by_cases hclear : ∀ inst, inBreach s orgId rule sourceId inst now = false
    · exact .inl hclear
    · exact .inr fun x hx hres => hclear (h x hx hres)
  · rintro (hclear | hnone) x hx hres
    · exact hclear
    · exact absurd hres (hnone x hx)

/-! ## Two disks of one host -/

/-- A disk above 90 % for five minutes, on any host and any mount point. -/
def diskRule : AlertRule where
  id := 0
  orgId := 1
  name := "Disk almost full"
  enabled := true
  sourceKind := .host
  sourceId := none
  metric := .diskUsedPercent
  instanceFilter := none
  operator := some .gt
  threshold := some 90
  durationSec := 300
  severity := .warning
  anomalyDetection := false
  anomalySensitivity := .medium
  channels := []
  notifyEmails := []
  slackWebhookUrl := none
  teamsWebhookUrl := none
  webhookUrl := none
  cooldownSec := 900

/-- The readings of host 7: `/` has been full for five minutes, `/data` never was. -/
def diskRows : List MetricRow :=
  [⟨1790000000000, 1, .host, 7, .diskUsedPercent, "/", 95⟩, ⟨1790000000000, 1, .host, 7, .diskUsedPercent, "/data", 50⟩]

/-- The rule and the readings, those of five minutes ago included. No incident yet. -/
def diskStore : Store where
  clock := 1790000000000
  rules := Table.empty.insert (fun id => { diskRule with id := id }) fun _ => rfl
  entries := ⟨⟨1789999700000, 1, .host, 7, .diskUsedPercent, "/", 93⟩ :: diskRows, by decide⟩
  sources := .empty
  incidents := .empty
  events := .empty
  cache := []
  dispatches := []

/-- **A cleared disk resolves the incident of a full one.** `/` opens the incident, and `/data`, next in the batch,
resolves it. -/
theorem resolved_in_breach : diskRule ∈ diskStore.rules ∧ diskRule.instanceFilter = none ∧
    ∃ x ∈ (evaluateIngestedMetrics 1 diskRows 1790000000000).stmts sem () diskStore,
      resolvesOf ⟨1, diskRule.id, 7, diskRule.metric⟩ x = true ∧
        inBreach diskStore 1 diskRule 7 "/" 1790000000000 = true := by
  have hresolved : ((evaluateIngestedMetrics 1 diskRows 1790000000000).stmts sem () diskStore).any (fun x =>
      resolvesOf ⟨1, diskRule.id, 7, diskRule.metric⟩ x) = true := by decide +kernel
  obtain ⟨x, hx, hres⟩ := List.any_eq_true.mp hresolved
  exact ⟨List.mem_singleton.mpr rfl, rfl, x, hx, hres, by decide +kernel⟩

end IkelyaneMonitor.Incidents
