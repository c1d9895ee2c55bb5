import IkelyaneMonitor.Interleave.RelyGuarantee
import IkelyaneMonitor.Incidents.Shared

/-!
# One unresolved incident per rule, source and metric

The evaluator looks for an open incident in one statement and creates one in a later statement; no index stands behind it.

* `Unique` : at most one unresolved incident of each key; `opens` : the writes that make an incident unresolved;
* `undisturbed` : such a write finds nobody between the two statements of its key, and one that brings back a resolved
  incident finds no other;
* `opening` : what the calls promise each other; `unique_of_reach` : the runs of `undisturbed` keep `Unique`, which the code
  does not see to (`two_open_incidents`).
-/

namespace IkelyaneMonitor.Incidents
open Interleave Telemetry Aiops Alerts Auth

/-- At most one unresolved incident per organization, rule, source and metric. -/
def Unique (s : Store) : Prop := ∀ key, ∀ r ∈ s.incidents, ∀ r' ∈ s.incidents,
  (r.hasKey key && r.unresolved) = true → (r'.hasKey key && r'.unresolved) = true → r = r'

/-- No unresolved incident of the store shares the key of this one. -/
def Incident.aloneIn (r : Incident) (s : Store) : Bool := s.incidents.rows.all fun r' =>
  !(r'.unresolved && r'.orgId == r.orgId && r'.ruleId == r.ruleId && r'.sourceId == r.sourceId && r'.metric == r.metric)

namespace Stmt

/-- The key of the incident a call is about to create, having found none. -/
def creating? : Stmt → Option IncidentKey
  | .findLabel key _ => some key
  | .createIncident d => some d.key
  | _ => none

/-- The statement makes an incident of the key unresolved. -/
def opens (key : IncidentKey) : Stmt → Store → Bool
  | .createIncident d, _ => d.key == key
  | .acknowledge id _ _, s | .reopen id _, s => (s.incidents.get? id).any fun r => r.hasKey key && !r.unresolved
  | _, _ => false

/-- A resolved incident is brought back only when its rule has no other on the source and metric. -/
def bringsBackAlone : Stmt → Store → Bool
  | .acknowledge id _ _, s | .reopen id _, s => (s.incidents.get? id).all fun r => r.unresolved || r.aloneIn s
  | _, _ => true

end Stmt

/-- The step disturbs nobody who is about to create an incident, and brings back no second one. -/
def undisturbed {ι : Type} (c : Conf ι Stmt Store Outcome) (i : ι) : Prop :=
  ∀ w, (c.calls i).next? = some w → w.bringsBackAlone c.store = true ∧
    ∀ key, w.opens key c.store = true → ∀ j, j ≠ i → (c.calls j).next?.bind Stmt.creating? ≠ some key

/-! ## Statements -/

theorem hasOpen_of_aloneIn {s : Store} {r : Incident} {key : IncidentKey} (hkey : r.hasKey key = true)
    (h : r.aloneIn s = true) : hasOpen key s = false := by
  rw [Bool.eq_false_iff]
  intro hopen
  obtain ⟨r', hr', hopen⟩ := hasOpen_iff.mp hopen
  have hnone := List.all_eq_true.mp h r' hr'
  simp only [Incident.hasKey, Bool.and_eq_true, beq_iff_eq] at hkey hopen
  obtain ⟨⟨⟨⟨ho, hr⟩, hs⟩, hm⟩, hun⟩ := hopen
  obtain ⟨⟨⟨ho', hr'⟩, hs'⟩, hm'⟩ := hkey
  simp [ho, hr, hs, hm, hun, ho', hr', hs', hm'] at hnone

/-- A write that makes no incident unresolved unless nobody else of its key is. -/
theorem unique_write {s : Store} (hs : Unique s) (id : Nat) {f : Incident → Incident} (hf : ∀ r, (f r).id = r.id)
    (hkey : ∀ r key, (f r).hasKey key = r.hasKey key)
    (h : ∀ r ∈ s.incidents, r.id = id → ∀ key, r.hasKey key = true → (f r).unresolved = true →
      r.unresolved = true ∨ hasOpen key s = false) : Unique (s.write id f hf) := by
  -- an incident that is unresolved after the write was so before it, or is the only one of its key
  have hback : ∀ key, ∀ r ∈ s.incidents, ((if r.id == id then f r else r).hasKey key &&
      (if r.id == id then f r else r).unresolved) = true →
        (r.hasKey key && r.unresolved) = true ∨ (r.id = id ∧ hasOpen key s = false) := by
    intro key r hr hopen
    split at hopen
    · rename_i hid
      rw [hkey, Bool.and_eq_true] at hopen
      refine (h r hr (beq_iff_eq.mp hid) key hopen.1 hopen.2).imp (fun hun => ?_) fun hnone => ⟨beq_iff_eq.mp hid, hnone⟩
      rw [hopen.1, hun, Bool.and_self]
    · exact .inl hopen
  intro key r' hr' q' hq' hopen hopen'
  obtain ⟨r, hr, rfl⟩ := List.mem_map.mp hr'
  obtain ⟨q, hq, rfl⟩ := List.mem_map.mp hq'
  have hrq : r = q := by
    obtain hr₁ | ⟨hid, hnone⟩ := hback key r hr hopen <;> obtain hq₁ | ⟨hid', hnone'⟩ := hback key q hq hopen'
    · exact hs key r hr q hq hr₁ hq₁
    · exact absurd (hasOpen_iff.mpr ⟨r, hr, hr₁⟩) (Bool.eq_false_iff.mp hnone')
    · exact absurd (hasOpen_iff.mpr ⟨q, hq, hq₁⟩) (Bool.eq_false_iff.mp hnone)
    · exact Table.eq_of_key hr hq (hid.trans hid'.symm)
  rw [hrq]

theorem unique_openIncident {s : Store} (hs : Unique s) {d : NewIncident} (hnone : hasOpen d.key s = false) :
    Unique (s.openIncident d) := by
  -- an incident of the new one's key is the new one
  have hnew : ∀ key r, r ∈ s.incidents → (r.hasKey key && r.unresolved) = true → d.key ≠ key := by
    rintro key r hr hopen rfl
    exact absurd (hasOpen_iff.mpr ⟨r, hr, hopen⟩) (Bool.eq_false_iff.mp hnone)
  have hold : ∀ key id, ((d.row id).hasKey key && (d.row id).unresolved) = true → d.key = key := fun key id hopen =>
    key_eq_of_hasKey (Bool.and_eq_true_iff.mp hopen).1 (hasKey_row d id)
  intro key r hr r' hr' hopen hopen'
  obtain hr | rfl := mem_openIncident.mp hr <;> obtain hr' | rfl := mem_openIncident.mp hr'
  · exact hs key r hr r' hr' hopen hopen'
  · exact absurd (hold key _ hopen') (hnew key r hr hopen)
  · exact absurd (hold key _ hopen) (hnew key r' hr' hopen')
  · rfl

section Statements
variable {ι : Type} {i : ι} {w : Stmt} {s s' : Store}

theorem unique_congr (h : s'.incidents = s.incidents) (hs : Unique s) : Unique s' := by
  rwa [Unique, h]

theorem sem_unique (hs : Unique s) (hcreate : ∀ d, w = .createIncident d → hasOpen d.key s = false)
    (hback : w.bringsBackAlone s = true) (h : sem i w s = some s') : Unique s' := by
  -- acknowledging or reopening: the one incident of the id is unresolved already, or alone
  have hbrings : ∀ id, ((s.incidents.get? id).all fun r => r.unresolved || r.aloneIn s) = true → ∀ r ∈ s.incidents,
      r.id = id → ∀ key, r.hasKey key = true → r.unresolved = true ∨ hasOpen key s = false := by
    intro id hall r hr hid key hkey
    rw [Table.get?_eq_some.mpr ⟨hr, hid⟩, Option.all_some, Bool.or_eq_true] at hall
    exact hall.imp_right (hasOpen_of_aloneIn hkey)
  cases w with
  | createIncident d =>
      cases h
      exact unique_openIncident hs (hcreate d rfl)
  | updateIncident id =>
      cases h
      exact unique_write hs id _ (fun _ _ => rfl) fun r _ _ key _ hun => .inl hun
  | autoResolve id now =>
      cases h
      exact unique_write hs id _ (fun _ _ => rfl) fun r _ _ key _ hun => nomatch hun
  | acknowledge id userId now =>
      cases h
      exact unique_congr rfl (unique_write hs id (fun r => r.id_acknowledge userId now) (fun _ _ => rfl)
        fun r hr hid key hkey _ => hbrings id hback r hr hid key hkey)
  | resolve id userId note now =>
      cases h
      exact unique_congr rfl (unique_write hs id (fun r => r.id_resolve userId note now) (fun _ _ => rfl)
        fun r _ _ key _ hun => nomatch hun)
  | reopen id userId =>
      cases h
      exact unique_congr rfl (unique_write hs id Incident.id_reopen (fun _ _ => rfl)
        fun r hr hid key hkey _ => hbrings id hback r hr hid key hkey)
  | _ =>
      cases h
      exact hs

/-- A write of the incident `id` after which no incident of a key is unresolved that was not before. -/
theorem closed_write {key : IncidentKey} (hnone : hasOpen key s = false) (id : Nat) {f : Incident → Incident}
    (hf : ∀ r, (f r).id = r.id) (h : ∀ r, s.incidents.get? id = some r → ((f r).hasKey key && (f r).unresolved) = true →
      (r.hasKey key && r.unresolved) = true) : hasOpen key (s.write id f hf) = false := by
  rw [Bool.eq_false_iff] at hnone ⊢
  intro hopen
  obtain ⟨r', hr', hopen⟩ := hasOpen_iff.mp hopen
  obtain ⟨r, hr, rfl⟩ := List.mem_map.mp hr'
  refine hnone (hasOpen_iff.mpr ⟨r, hr, ?_⟩)
  split at hopen
  · exact h r (Table.get?_eq_some.mpr ⟨hr, beq_iff_eq.mp ‹_›⟩) hopen
  · exact hopen

/-- Only a statement that opens the key makes an incident of it unresolved. -/
theorem sem_closed {key : IncidentKey} (h : sem i w s = some s') (hw : w.opens key s = false)
    (hnone : hasOpen key s = false) : hasOpen key s' = false := by
  -- acknowledging or reopening: the incident was not a resolved one of the key
  have hbrings : ∀ id, ((s.incidents.get? id).any fun r => r.hasKey key && !r.unresolved) = false → ∀ r,
      s.incidents.get? id = some r → r.hasKey key = true → (r.hasKey key && r.unresolved) = true := by
    intro id hany r hr hkey
    rw [hr, Option.any_some, hkey, Bool.true_and, Bool.not_eq_false'] at hany
    rw [hkey, hany, Bool.and_self]
  cases w with
  | createIncident d =>
      cases h
      rw [hasOpen_openIncident_other d (by simpa [Stmt.opens] using hw)]
      exact hnone
  | updateIncident id =>
      cases h
      exact closed_write hnone id _ fun _ _ hopen => hopen
  | autoResolve id now =>
      cases h
      exact closed_write hnone id _ fun _ _ hopen => nomatch (Bool.and_eq_true_iff.mp hopen).2
  | acknowledge id userId now =>
      cases h
      exact closed_write hnone id (fun r => r.id_acknowledge userId now) fun r hr hopen =>
        hbrings id hw r hr (Bool.and_eq_true_iff.mp hopen).1
  | resolve id userId note now =>
      cases h
      exact closed_write hnone id (fun r => r.id_resolve userId note now) fun _ _ hopen =>
        nomatch (Bool.and_eq_true_iff.mp hopen).2
  | reopen id userId =>
      cases h
      exact closed_write hnone id Incident.id_reopen fun r hr hopen => hbrings id hw r hr (Bool.and_eq_true_iff.mp hopen).1
  | _ =>
      cases h
      exact hnone

end Statements

/-! ## The calls -/

section Calls
variable {ι : Type}

/-- Who is about to create an incident relies on nobody else opening one of its key. -/
def opening : Spec ι Stmt Store Outcome where
  inv := Unique
  rely := fun _ w s s' => ∀ key, w.bind Stmt.creating? = some key → hasOpen key s = false → hasOpen key s' = false
  guar := fun _ s w s' _ => ∀ key, w.opens key s = false → hasOpen key s = false → hasOpen key s' = false
  post := fun _ _ _ => True

/-- The statements as they run when no second incident is brought back. -/
def semAlone : ι → Stmt → Store → Option Store := restrict sem fun _ w s => w.bringsBackAlone s

variable {i : ι} {k : Call}

/-- A call that needs to know nothing. -/
def Goes (i : ι) (p : Call) : Prop := opening.Sat semAlone i p fun _ => True

theorem sat_stmt {w : Stmt} {k : Store → Call} {P : Store → Prop}
    (hcreate : ∀ d, w = .createIncident d → ∀ s, P s → hasOpen d.key s = false)
    (h : ∀ s s', P s → sem i w s = some s' →
      ∃ P', opening.Stable i (k s).next? P' ∧ P' s' ∧ opening.Sat semAlone i (k s) P') :
    opening.Sat semAlone i (.stmt w k) P := by
  intro s s' hs hP hsem
  obtain ⟨hback, hsem⟩ := restrict_eq_some.mp hsem
  exact ⟨sem_unique hs (fun d hd => hcreate d hd s hP) hback hsem, fun key hw hnone => sem_closed hsem hw hnone,
    h s s' hP hsem⟩

theorem goes_ret (a : Outcome) : Goes i (.ret a) := fun _ _ _ => trivial

theorem goes_stmt {w : Stmt} {k : Store → Call} (hw : w.creating? = none) (h : ∀ s, Goes i (k s)) :
    Goes i (.stmt w k) :=
  sat_stmt (fun d hd => by rw [hd] at hw; cases hw) fun s _ _ _ => ⟨_, Spec.Stable.true i _, trivial, h s⟩

theorem goes_notify (rule : AlertRule) (key : IncidentKey) (incidentId : Nat) (outcome : NotificationOutcome)
    (hk : Goes i k) : Goes i (notify rule key incidentId outcome k) := by
  unfold notify
  split
  · exact hk
  · exact goes_stmt rfl fun _ => goes_stmt rfl fun _ => hk

theorem stable_none (key : IncidentKey) {w : Option Stmt} (hw : w.bind Stmt.creating? = some key) :
    opening.Stable i w fun s => hasOpen key s = false :=
  fun _ _ _ _ hr hnone => hr key hw hnone

theorem goes_settleIncident (orgId : Nat) (now : Int) (point : MetricRow) (rule : AlertRule) (baseline : Option Baseline)
    (sustained : Bool) (hk : Goes i k) : Goes i (settleIncident orgId now point rule baseline sustained k) := by
  change opening.Sat semAlone i (.stmt (.findOpen (MetricRow.incidentKey point orgId rule)) _) _
  refine sat_stmt (by rintro _ ⟨⟩) fun s s' _ hsem => ?_
  cases hsem
  cases hopen : s.findOpen (MetricRow.incidentKey point orgId rule) with
  | none =>
      cases sustained with
      | true =>
          have hnone : hasOpen (MetricRow.incidentKey point orgId rule) s = false := by rw [hasOpen, hopen]; rfl
          refine ⟨_, stable_none (MetricRow.incidentKey point orgId rule) rfl, hnone,
            sat_stmt (by rintro _ ⟨⟩) fun s s' hnone hsem => ?_⟩
          cases hsem
          refine ⟨_, stable_none (MetricRow.incidentKey point orgId rule) rfl, hnone, sat_stmt ?_ fun s s' _ _ => ?_⟩
          · rintro _ ⟨⟩ s hnone
            exact hnone
          · exact ⟨_, Spec.Stable.true i _, trivial, goes_stmt rfl fun _ => goes_notify rule _ _ .opened hk⟩
      | false => exact ⟨_, Spec.Stable.true i _, trivial, hk⟩
  | some incident =>
      refine ⟨_, Spec.Stable.true i _, trivial, ?_⟩
      cases sustained with
      | true =>
          refine goes_stmt rfl fun _ => goes_stmt rfl fun s => ?_
          split
          · exact goes_notify rule _ incident.id .stillOpen hk
          · exact hk
      | false => exact goes_stmt rfl fun _ => goes_stmt rfl fun _ => goes_notify rule _ incident.id .resolved hk

theorem goes_evaluateWith (orgId : Nat) (now : Int) (point : MetricRow) (rule : AlertRule) (baseline : Option Baseline)
    (hk : Goes i k) : Goes i (evaluateWith orgId now point rule k baseline) := by
  unfold evaluateWith
  split
  · exact hk
  · exact goes_stmt rfl fun s => goes_settleIncident orgId now point rule baseline _ hk

theorem goes_evaluateItem (orgId : Nat) (now : Int) (point : MetricRow) (rule : AlertRule) (hk : Goes i k) :
    Goes i (evaluateItem orgId now point rule k) := by
  have hwith := fun baseline => goes_evaluateWith orgId now point rule baseline hk
  unfold evaluateItem
  split
  · refine goes_stmt rfl fun s => ?_
    split
    · exact hwith _
    · exact goes_stmt rfl fun s => goes_stmt rfl fun _ => hwith _
  · exact hwith none

theorem goes_evaluateAll (orgId : Nat) (now : Int) (items : List (MetricRow × AlertRule)) :
    Goes i (evaluateAll orgId now items) := by
  induction items with
  | nil => exact goes_ret .evaluated
  | cons item items ih => exact goes_evaluateItem orgId now item.1 item.2 ih

theorem goes_writeIncident (actor : Actor) (id : Nat) (allowed : IncidentStatus → Bool) {write : Int → Stmt}
    (hwrite : ∀ now, (write now).creating? = none) : Goes i (writeIncident actor id allowed write) := by
  unfold writeIncident
  split
  · exact goes_ret _
  · refine goes_stmt rfl fun s => ?_
    split
    · exact goes_ret _
    · split
      · exact goes_ret _
      · exact goes_stmt (hwrite _) fun _ => goes_ret _

/-- **Every call keeps its promises.** -/
theorem goes_call (op : Op) : Goes i op.call := by
  cases op with
  | evaluateIngestedMetrics orgId rows now =>
      rw [Op.call, Incidents.evaluateIngestedMetrics]
      split
      · exact goes_ret .evaluated
      · exact goes_stmt rfl fun s => goes_evaluateAll orgId now _
  | acknowledgeIncident actor id =>
      rw [Op.call, Incidents.acknowledgeIncident]
      exact goes_writeIncident actor id _ fun _ => rfl
  | resolveIncident actor id note =>
      rw [Op.call, Incidents.resolveIncident]
      exact goes_writeIncident actor id _ fun _ => rfl
  | reopenIncident actor id =>
      rw [Op.call, Incidents.reopenIncident]
      exact goes_writeIncident actor id _ fun _ => rfl
  | tick ms => exact goes_stmt rfl fun _ => goes_ret .ticked

theorem opening_compatible : (opening : Spec ι Stmt Store Outcome).Compatible semAlone undisturbed := by
  intro c i w k s' _ hok hw _ hg j hj key hcreating hnone
  refine hg key ?_ hnone
  rw [Bool.eq_false_iff]
  intro hopens
  exact (hok w (by rw [hw]; rfl)).2 key hopens j hj hcreating

/-- **One unresolved incident per rule, source and metric**, in every run of any number of evaluations, acknowledgements,
resolutions and reopenings whose steps disturb nobody. -/
theorem unique_of_reach [DecidableEq ι] (ops : ι → Op) {s : Store} (hs : Unique s) {c : Conf ι Stmt Store Outcome}
    (h : Reach sem undisturbed (start ops s) c) : Unique c.store := by
  have hgood : opening.Good semAlone (start ops s) := Spec.Good.init hs fun i => goes_call (ops i)
  have hreach : Reach semAlone undisturbed (start ops s) c :=
    h.restrict fun c i w k hok hw => (hok w (by rw [hw]; rfl)).1
  exact (hgood.reach opening_compatible hreach).1

end Calls

/-! ## Two evaluations at once -/

/-- The readings of one full disk, evaluated by two requests. -/
def fullDisk (_ : Bool) : Op :=
  .evaluateIngestedMetrics 1 [⟨1790000000000, 1, .host, 7, .diskUsedPercent, "/", 95⟩] 1790000000000

/-- One after the other: the second finds the incident of the first. -/
theorem unique_of_sequential : ∃ c, (start fullDisk diskStore).run sem
      [false, false, false, false, false, false, true, true, true, true, true] = some c ∧
    c.store.incidents.rows.length = 1 ∧ Unique c.store := by
  have hrun : ((start fullDisk diskStore).run sem
      [false, false, false, false, false, false, true, true, true, true, true]).any (fun c =>
      c.store.incidents.rows.length = 1) = true := by decide +kernel
  obtain ⟨c, hc, hone⟩ := (Option.any_eq_true _ _).mp hrun
  have hundisturbed : Reach sem undisturbed (start fullDisk diskStore) c :=
    Reach.of_allSteps (p := fun c i => (c.calls i).next?.all fun w => w.bringsBackAlone c.store &&
        ((c.calls (!i)).next?.bind Stmt.creating?).all fun key => !w.opens key c.store)
      (fun c i h w hw => by
        rw [hw, Option.all_some, Bool.and_eq_true] at h
        refine ⟨h.1, fun key hopens j hj hcreating => ?_⟩
        rw [Bool.eq_not_of_ne hj] at hcreating
        rw [hcreating, Option.all_some, hopens] at h
        exact nomatch h.2)
      (by decide +kernel) hc
  refine ⟨c, hc, of_decide_eq_true hone, unique_of_reach fullDisk ?_ hundisturbed⟩
  exact fun _ r hr => absurd hr (Table.not_mem_empty r)

/-- **Two open incidents of one rule on one disk**: both evaluations find none before either creates one. -/
theorem two_open_incidents : Unique diskStore ∧
    ∃ c, Reach sem anyStep (start fullDisk diskStore) c ∧ ¬ Unique c.store := by
  have hrun : ((start fullDisk diskStore).run sem
      [false, false, false, true, true, true, false, true, false, true]).any (fun c =>
      (c.store.incidents.rows.map fun r => (r.id, r.hasKey ⟨1, 0, 7, .diskUsedPercent⟩ && r.unresolved)) =
        [(0, true), (1, true)]) = true := by decide +kernel
  obtain ⟨c, hc, htwo⟩ := (Option.any_eq_true _ _).mp hrun
  refine ⟨fun _ r hr => absurd hr (Table.not_mem_empty r), c, .of_run hc, fun hunique => ?_⟩
  have hrows := of_decide_eq_true htwo
  obtain ⟨r, hr, hfirst⟩ := List.mem_map.mp (hrows ▸ List.mem_cons_self : (0, true) ∈ _)
  obtain ⟨r', hr', hsecond⟩ := List.mem_map.mp (hrows ▸ List.mem_cons_of_mem _ List.mem_cons_self : (1, true) ∈ _)
  obtain ⟨hid, hopen⟩ := Prod.mk.inj hfirst
  obtain ⟨hid', hopen'⟩ := Prod.mk.inj hsecond
  have hsame := hunique ⟨1, 0, 7, .diskUsedPercent⟩ r hr r' hr' hopen hopen'
  rw [hsame, hid'] at hid
  cases hid

end IkelyaneMonitor.Incidents
