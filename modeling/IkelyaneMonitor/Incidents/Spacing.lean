import Mathlib
import IkelyaneMonitor.Incidents.Effects

/-!
# The delay between two notifications of a rule

The time of the last notification is kept with the incident, in its timeline; an incident that opens is announced at once.

* `Store.notices` : the notifications of a rule on a source about an open incident;
* `Recorded` : each notification has its entry in the timeline of its incident; `Recorded.turned` : a turn keeps this;
* `Runs` : evaluations, what people do, and whatever else changes the samples and the rules;
* `notifications_spaced` : they are apart by the cooldown in every run that announces no second incident within it, which a
  metric that flaps does (`flapping_unspaced`).
-/

namespace IkelyaneMonitor.Incidents
open Interleave Telemetry Aiops Alerts

/-- The notifications of a rule on a source that an incident opened or is still open, the newest first. -/
def Store.notices (s : Store) (ruleId sourceId : Nat) : List Dispatch :=
  s.dispatches.filter fun d => d.ruleId == ruleId && d.sourceId == sourceId && d.outcome != .resolved

/-- Two of them are apart by the cooldown. -/
def Spaced (ruleId sourceId cooldownSec : Nat) (s : Store) : Prop :=
  (s.notices ruleId sourceId).Pairwise fun later earlier => (cooldownSec * 1000 : Int) ≤ later.sentAt - earlier.sentAt

/-- Each notification is about an incident that was opened, and has its entry in the timeline. -/
structure Recorded (s : Store) : Prop where
  known : ∀ d ∈ s.dispatches, d.incidentId < s.incidents.next
  noted : ∀ d ∈ s.dispatches, ∃ e ∈ s.events, e.incidentId = d.incidentId ∧ e.type = .notified ∧ d.sentAt ≤ e.createdAt

/-- Nothing is sent and nothing forgotten. -/
structure Keeps (s s' : Store) : Prop where
  dispatches : s'.dispatches = s.dispatches
  next : s.incidents.next ≤ s'.incidents.next
  events : ∀ e ∈ s.events, e ∈ s'.events

section Keeps
variable {s s' s'' : Store} {ruleId sourceId cooldownSec : Nat}

theorem Keeps.refl (s : Store) : Keeps s s := ⟨rfl, le_rfl, fun _ he => he⟩

theorem Keeps.trans (h : Keeps s s') (h' : Keeps s' s'') : Keeps s s'' :=
  ⟨h'.dispatches.trans h.dispatches, h.next.trans h'.next, fun e he => h'.events e (h.events e he)⟩

theorem Keeps.addEvent (s : Store) (incidentId : Nat) (type : IncidentEventType) (actorId : Option Nat) :
    Keeps s (s.addEvent incidentId type actorId) :=
  ⟨rfl, le_rfl, fun _ he => Table.mem_insert.mpr (.inl he)⟩

theorem Keeps.openIncident (s : Store) (d : NewIncident) : Keeps s (s.openIncident d) :=
  ⟨rfl, Nat.le_succ _, fun _ he => he⟩

theorem Keeps.write (s : Store) (id : Nat) (f : Incident → Incident) (hf : ∀ r, (f r).id = r.id) :
    Keeps s (s.write id f hf) :=
  ⟨rfl, le_rfl, fun _ he => he⟩

theorem Recorded.keeps (hs : Recorded s) (h : Keeps s s') : Recorded s' := by
  constructor
  · intro d hd
    rw [h.dispatches] at hd
    exact (hs.known d hd).trans_le h.next
  · intro d hd
    rw [h.dispatches] at hd
    obtain ⟨e, he, hnoted⟩ := hs.noted d hd
    exact ⟨e, h.events e he, hnoted⟩

theorem Spaced.keeps (hs : Spaced ruleId sourceId cooldownSec s) (h : Keeps s s') :
    Spaced ruleId sourceId cooldownSec s' := by
  unfold Spaced Store.notices at hs ⊢
  rw [h.dispatches]
  exact hs

end Keeps

/-! ## One turn -/

section Turn
variable {s : Store} {orgId : Nat} {now : Int} {point : MetricRow} {rule : AlertRule} {baseline : Option Baseline}
  {key : IncidentKey} {incidentId : Nat} {outcome : NotificationOutcome} {ruleId sourceId cooldownSec : Nat}

@[simp] theorem clock_notified : (s.notified rule key incidentId outcome).clock = s.clock := by
  unfold Store.notified
  split <;> rfl

theorem clock_settled (sustained : Bool) : (s.settled orgId now point rule baseline sustained).clock = s.clock := by
  unfold Store.settled
  split
  · exact clock_notified
  · split
    · exact clock_notified
    · rfl
  · exact clock_notified
  · rfl

theorem clock_turned (item : MetricRow × AlertRule) : (s.turned orgId now item).clock = s.clock := by
  unfold Store.turned
  dsimp only
  split
  · rfl
  · exact clock_settled _

theorem Recorded.notified (hs : Recorded s) (hid : incidentId < s.incidents.next) :
    Recorded (s.notified rule key incidentId outcome) := by
  unfold Store.notified
  split
  · exact hs
  · constructor
    · intro d hd
      obtain rfl | hd := List.mem_cons.mp hd
      · exact hid
      · exact hs.known d hd
    · intro d hd
      obtain rfl | hd := List.mem_cons.mp hd
      · exact ⟨_, Table.mem_insert.mpr (.inr rfl), rfl, rfl, le_rfl⟩
      · obtain ⟨e, he, hnoted⟩ := hs.noted d hd
        exact ⟨e, Table.mem_insert.mpr (.inl he), hnoted⟩

theorem Recorded.settled (hs : Recorded s) (sustained : Bool) :
    Recorded (s.settled orgId now point rule baseline sustained) := by
  unfold Store.settled
  split
  · refine Recorded.notified (hs.keeps ?_) (Nat.lt_succ_self _)
    exact (Keeps.openIncident s _).trans (Keeps.addEvent _ _ _ _)
  · rename_i incident hopen
    have hid : incident.id < s.incidents.next := s.incidents.lt_next _ (findOpen_mem hopen).1
    have hupdated : Recorded (s.updated point rule baseline incident) := hs.keeps (Keeps.write s _ _ _)
    split
    · exact hupdated.notified hid
    · exact hupdated
  · rename_i incident hopen
    have hid : incident.id < s.incidents.next := s.incidents.lt_next _ (findOpen_mem hopen).1
    exact Recorded.notified (hs.keeps ((Keeps.write s _ _ _).trans (Keeps.addEvent _ _ _ _))) hid
  · exact hs

theorem loaded_keeps (item : MetricRow × AlertRule) : Keeps s (s.loaded orgId now item) := ⟨rfl, le_rfl, fun _ he => he⟩

theorem Recorded.turned (hs : Recorded s) (item : MetricRow × AlertRule) : Recorded (s.turned orgId now item) := by
  unfold Store.turned
  dsimp only
  split
  · exact hs.keeps (loaded_keeps item)
  · exact (hs.keeps (loaded_keeps item)).settled _

/-- An incident whose last notification is old enough. -/
theorem old_of_shouldRenotify {e : IncidentEvent} (he : e ∈ s.events) (hid : e.incidentId = incidentId)
    (htype : e.type = .notified) (h : shouldRenotify (s.lastNotified incidentId) cooldownSec now = true) :
    (cooldownSec * 1000 : Int) ≤ now - e.createdAt := by
  have hmem : e.createdAt ∈
      (s.events.rows.filter fun e => e.incidentId == incidentId && e.type == .notified).map IncidentEvent.createdAt :=
    List.mem_map.mpr ⟨e, List.mem_filter.mpr ⟨he, by simp [hid, htype]⟩, rfl⟩
  unfold Store.lastNotified at h
  cases hlast : ((s.events.rows.filter fun e => e.incidentId == incidentId && e.type == .notified).map
      IncidentEvent.createdAt).max? with
  | none =>
      rw [List.max?_eq_none_iff] at hlast
      rw [hlast] at hmem
      cases hmem
  | some last =>
      rw [hlast] at h
      have hle := (List.max?_eq_some_iff.mp hlast).2 _ hmem
      have hold := of_decide_eq_true h
      omega

/-- The other incidents of the rule on the source were announced the cooldown ago, or earlier. -/
def Clear (ruleId sourceId cooldownSec : Nat) (s : Store) (incidentId : Nat) : Prop :=
  ∀ d ∈ s.notices ruleId sourceId, d.incidentId ≠ incidentId → (cooldownSec * 1000 : Int) ≤ s.clock - d.sentAt

/-- The turn announces an incident: one that opens, or one that is still open when its last notification is old enough. -/
def Announces (orgId : Nat) (now : Int) (point : MetricRow) (rule : AlertRule) (s : Store) : Prop :=
  itemVerdict s.entries s.cache orgId now (point, rule) = some true ∧ rule.dispatched ≠ [] ∧
    ∀ incident ∈ s.findOpen (MetricRow.incidentKey point orgId rule),
      shouldRenotify (s.lastNotified incident.id) rule.cooldownSec now = true

theorem notices_notified : (s.notified rule key incidentId outcome).notices ruleId sourceId =
    if key.ruleId = ruleId ∧ key.sourceId = sourceId ∧ outcome ≠ .resolved ∧ rule.dispatched ≠ [] then
      ⟨key.ruleId, key.sourceId, incidentId, outcome, s.clock⟩ :: s.notices ruleId sourceId
    else s.notices ruleId sourceId := by
  unfold Store.notified
  split
  · rename_i hnone
    rw [if_neg fun h => h.2.2.2 (List.isEmpty_iff.mp hnone)]
  · rename_i hsome
    have hne : rule.dispatched ≠ [] := fun h => hsome (List.isEmpty_iff.mpr h)
    unfold Store.notices Store.addEvent
    rw [List.filter_cons]
    simp [hne, and_assoc]

theorem Spaced.notified (hs : Spaced ruleId sourceId cooldownSec s)
    (h : key.ruleId = ruleId → key.sourceId = sourceId → outcome ≠ .resolved → rule.dispatched ≠ [] →
      ∀ d ∈ s.notices ruleId sourceId, (cooldownSec * 1000 : Int) ≤ s.clock - d.sentAt) :
    Spaced ruleId sourceId cooldownSec (s.notified rule key incidentId outcome) := by
  unfold Spaced
  rw [notices_notified]
  split
  · rename_i hsent
    exact List.pairwise_cons.mpr ⟨h hsent.1 hsent.2.1 hsent.2.2.1 hsent.2.2.2, hs⟩
  · exact hs

/-- A sustained breach is announced when the others are clear and its own last notification is old enough. -/
theorem Spaced.sustained (hrec : Recorded s) (hs : Spaced ruleId sourceId cooldownSec s) (hnow : now ≤ s.clock)
    (hcooldown : rule.id = ruleId → rule.cooldownSec = cooldownSec)
    (hclear : rule.id = ruleId → point.sourceId = sourceId → rule.dispatched ≠ [] →
      (∀ incident ∈ s.findOpen (MetricRow.incidentKey point orgId rule),
        shouldRenotify (s.lastNotified incident.id) rule.cooldownSec now = true) →
      Clear ruleId sourceId cooldownSec s (s.target (MetricRow.incidentKey point orgId rule))) :
    Spaced ruleId sourceId cooldownSec (s.settled orgId now point rule baseline true) := by
  unfold Store.settled
  cases hopen : s.findOpen (MetricRow.incidentKey point orgId rule) with
  | none =>
      have hkeeps : Keeps s ((s.openIncident (newIncident orgId now point rule baseline s)).addEvent s.incidents.next
          .opened none) := (Keeps.openIncident s _).trans (Keeps.addEvent _ _ _ _)
      apply Spaced.notified (hs.keeps hkeeps)
      intro hrule hsource _ hsent d hd
      refine hclear hrule hsource hsent (by simp [hopen]) d hd ?_
      -- the incident is new
      have hknown := hrec.known d (List.mem_filter.mp hd).1
      rw [Store.target, hopen]
      exact hknown.ne
  | some incident =>
      dsimp only
      split
      · rename_i hold
        apply Spaced.notified (hs.keeps (Keeps.write s _ _ _))
        intro hrule hsource _ hsent d hd
        by_cases hown : d.incidentId = incident.id
        · obtain ⟨e, he, hid, htype, hle⟩ := hrec.noted d (List.mem_filter.mp hd).1
          have hlast := old_of_shouldRenotify he (hid.trans hown) htype hold
          rw [hcooldown hrule] at hlast
          show (cooldownSec * 1000 : Int) ≤ s.clock - d.sentAt
          omega
        · refine hclear hrule hsource hsent ?_ d hd ?_
          · intro other hother
            rw [hopen] at hother
            obtain rfl := Option.some.inj hother
            exact hold
          · rw [Store.target, hopen]
            exact hown
      · exact hs.keeps (Keeps.write s _ _ _)

/-- Anything else is no announcement. -/
theorem Spaced.cleared (hs : Spaced ruleId sourceId cooldownSec s) :
    Spaced ruleId sourceId cooldownSec (s.settled orgId now point rule baseline false) := by
  unfold Store.settled
  cases s.findOpen (MetricRow.incidentKey point orgId rule) with
  | none => exact hs
  | some incident =>
      apply Spaced.notified (hs.keeps ((Keeps.write s _ _ _).trans (Keeps.addEvent _ _ _ _)))
      exact fun _ _ hresolved => absurd rfl hresolved

theorem Spaced.turned (hrec : Recorded s) (hs : Spaced ruleId sourceId cooldownSec s) (hnow : now ≤ s.clock)
    (hcooldown : rule.id = ruleId → rule.cooldownSec = cooldownSec)
    (hclear : rule.id = ruleId → point.sourceId = sourceId → Announces orgId now point rule s →
      Clear ruleId sourceId cooldownSec s (s.target (MetricRow.incidentKey point orgId rule))) :
    Spaced ruleId sourceId cooldownSec (s.turned orgId now (point, rule)) := by
  have hloaded : Keeps s (s.loaded orgId now (point, rule)) := loaded_keeps (point, rule)
  unfold Store.turned
  cases hverdict : itemVerdict s.entries s.cache orgId now (point, rule) with
  | none => exact hs.keeps hloaded
  | some sustained =>
      cases sustained with
      | true =>
          apply Spaced.sustained (hrec.keeps hloaded) (hs.keeps hloaded) hnow hcooldown
          intro hrule hsource hsent hold
          exact hclear hrule hsource ⟨hverdict, hsent, hold⟩
      | false => exact (hs.keeps hloaded).cleared

end Turn

/-! ## Whole runs -/

/-- The rest of the program changes samples, rules and sources, and the cache is its own; the rest stays. -/
structure Elsewhere (s s' : Store) : Prop where
  clock : s'.clock = s.clock
  incidents : s'.incidents = s.incidents
  events : s'.events = s.events
  dispatches : s'.dispatches = s.dispatches

/-- Calls one after another, each satisfying `ok`, and what happens elsewhere between them. -/
inductive Runs (ok : Op → Store → Prop) (s : Store) : Store → Prop
  | refl : Runs ok s s
  | call {s' s'' : Store} {op : Op} {outcome : Outcome} : Runs ok s s' → ok op s' →
      op.call.exec sem () s' = some (s'', outcome) → Runs ok s s''
  | elsewhere {s' s'' : Store} : Runs ok s s' → Elsewhere s' s'' → Runs ok s s''

/-- An evaluation at a time that has come, of rules with this cooldown. -/
def Timely (ruleId cooldownSec : Nat) (op : Op) (s : Store) : Prop :=
  ∀ orgId rows now, op = .evaluateIngestedMetrics orgId rows now →
    now ≤ s.clock ∧ ∀ rule ∈ s.rules, rule.id = ruleId → rule.cooldownSec = cooldownSec

/-- It announces no incident of the rule on the source within the cooldown of another. -/
def Apart (ruleId sourceId cooldownSec : Nat) (op : Op) (s : Store) : Prop :=
  ∀ orgId rows now, op = .evaluateIngestedMetrics orgId rows now → ∀ point rule s', Turn s orgId rows now point rule s' →
    rule.id = ruleId → point.sourceId = sourceId → Announces orgId now point rule s' →
      Clear ruleId sourceId cooldownSec s' (s'.target (MetricRow.incidentKey point orgId rule))

section Runs
variable {s s' : Store} {orgId : Nat} {now : Int} {rows : List MetricRow} {ruleId sourceId cooldownSec : Nat}

/-- What people do sends nothing. -/
def Stmt.silent : Stmt → Prop
  | .dispatch .. => False
  | _ => True

theorem sem_keeps {w : Stmt} (hw : w.silent) (h : sem () w s = some s') : Keeps s s' := by
  cases w with
  | dispatch => exact hw.elim
  | createEvent incidentId type =>
      obtain rfl := Option.some.inj h
      exact Keeps.addEvent s _ _ _
  | createIncident d =>
      obtain rfl := Option.some.inj h
      exact Keeps.openIncident s d
  | acknowledge | resolve | reopen =>
      obtain rfl := Option.some.inj h
      exact (Keeps.write s _ _ _).trans (Keeps.addEvent _ _ _ _)
  | _ =>
      obtain rfl := Option.some.inj h
      exact ⟨rfl, le_rfl, fun _ he => he⟩

theorem writeIncident_silent (actor : Auth.Actor) (id : Nat) (allowed : IncidentStatus → Bool) (write : Int → Stmt)
    (hwrite : ∀ now, (write now).silent) :
    (writeIncident actor id allowed write).All (fun _ => True) Stmt.silent fun _ => True := by
  unfold writeIncident
  split
  · trivial
  · refine ⟨trivial, fun s _ => ?_⟩
    dsimp only
    split
    · trivial
    · split
      · trivial
      · exact ⟨hwrite _, fun _ _ => trivial⟩

theorem call_keeps {op : Op} {outcome : Outcome} (hop : ∀ orgId rows now, op ≠ .evaluateIngestedMetrics orgId rows now)
    (h : op.call.exec sem () s = some (s', outcome)) : Keeps s s' := by
  have hsilent : op.call.All (fun _ => True) Stmt.silent fun _ => True := by
    cases op with
    | evaluateIngestedMetrics orgId rows now => exact absurd rfl (hop orgId rows now)
    | acknowledgeIncident actor id =>
        unfold Op.call acknowledgeIncident
        exact writeIncident_silent _ _ _ _ fun _ => trivial
    | resolveIncident actor id note =>
        unfold Op.call resolveIncident
        exact writeIncident_silent _ _ _ _ fun _ => trivial
    | reopenIncident actor id =>
        unfold Op.call reopenIncident
        exact writeIncident_silent _ _ _ _ fun _ => trivial
    | tick => exact ⟨trivial, fun _ _ => trivial⟩
  exact Prog.All.exec Keeps.refl (fun _ _ _ => Keeps.trans) (fun w s s' hw _ hsem => ⟨trivial, sem_keeps hw hsem⟩) hsilent
    trivial h

/-- Turn after turn, each in the store that those before it leave. -/
theorem foldl_turned {P : Store → Prop} (items : List (MetricRow × AlertRule))
    (hstep : ∀ pre item post, items = pre ++ item :: post → P (pre.foldl (Store.turned orgId now) s) →
      P (Store.turned orgId now (pre.foldl (Store.turned orgId now) s) item)) (h : P s) :
    P (items.foldl (Store.turned orgId now) s) := by
  induction items using List.reverseRecOn with
  | nil => exact h
  | append_singleton items item ih =>
      rw [List.foldl_append]
      apply hstep items item [] rfl
      apply ih
      intro pre item' post hsplit
      exact hstep pre item' (post ++ [item]) (by rw [hsplit, List.append_assoc, List.cons_append])

theorem rule_of_mem_evaluatedItems {item : MetricRow × AlertRule} (h : item ∈ evaluatedItems s orgId rows) :
    item.2 ∈ s.rules := by
  obtain ⟨point, -, hrules⟩ := List.mem_flatMap.mp h
  obtain ⟨rule, hrule, rfl⟩ := List.mem_map.mp hrules
  exact (List.mem_filter.mp (List.mem_filter.mp hrule).1).1

/-- What a run keeps. -/
structure Held (ruleId sourceId cooldownSec : Nat) (s : Store) : Prop where
  recorded : Recorded s
  spaced : Spaced ruleId sourceId cooldownSec s

theorem Held.keeps (hs : Held ruleId sourceId cooldownSec s) (h : Keeps s s') : Held ruleId sourceId cooldownSec s' :=
  ⟨hs.recorded.keeps h, hs.spaced.keeps h⟩

theorem Held.evaluated (hs : Held ruleId sourceId cooldownSec s)
    (htimely : Timely ruleId cooldownSec (.evaluateIngestedMetrics orgId rows now) s)
    (hapart : Apart ruleId sourceId cooldownSec (.evaluateIngestedMetrics orgId rows now) s) :
    Held ruleId sourceId cooldownSec ((evaluatedItems s orgId rows).foldl (Store.turned orgId now) s) := by
  obtain ⟨hnow, hcooldown⟩ := htimely _ _ _ rfl
  refine (foldl_turned (P := fun s' => s'.clock = s.clock ∧ Held ruleId sourceId cooldownSec s') _ ?_ ⟨rfl, hs⟩).2
  rintro pre ⟨point, rule⟩ post hsplit ⟨hclock, hheld⟩
  have hmem : (point, rule) ∈ evaluatedItems s orgId rows := by
    rw [hsplit]
    exact List.mem_append_right _ List.mem_cons_self
  have hturn : Turn s orgId rows now point rule (pre.foldl (Store.turned orgId now) s) :=
    turn_iff.mpr ⟨pre, post, hsplit, rfl⟩
  refine ⟨(clock_turned _).trans hclock, hheld.recorded.turned _, ?_⟩
  apply hheld.spaced.turned hheld.recorded (hclock ▸ hnow)
  · exact hcooldown rule (rule_of_mem_evaluatedItems hmem)
  · exact hapart _ _ _ rfl point rule _ hturn

theorem Held.call {op : Op} {outcome : Outcome} (hs : Held ruleId sourceId cooldownSec s)
    (htimely : Timely ruleId cooldownSec op s) (hapart : Apart ruleId sourceId cooldownSec op s)
    (h : op.call.exec sem () s = some (s', outcome)) : Held ruleId sourceId cooldownSec s' := by
  by_cases hop : ∃ orgId rows now, op = .evaluateIngestedMetrics orgId rows now
  · obtain ⟨orgId, rows, now, rfl⟩ := hop
    obtain rfl := (Prod.mk.inj (Option.some.inj (evaluateIngestedMetrics_exec.symm.trans h))).1
    exact hs.evaluated htimely hapart
  · exact hs.keeps (call_keeps (fun orgId rows now heq => hop ⟨orgId, rows, now, heq⟩) h)

end Runs

/-- **The delay between two notifications.** In every run of evaluations, of what people do and of what changes elsewhere,
in which no incident of the rule on the source is announced within the cooldown of another, any two notifications that an
incident opened or is still open are apart by the cooldown. -/
theorem notifications_spaced {ruleId sourceId cooldownSec : Nat} {s s' : Store} (hfresh : s.dispatches = [])
    (h : Runs (fun op s => Timely ruleId cooldownSec op s ∧ Apart ruleId sourceId cooldownSec op s) s s') :
    Spaced ruleId sourceId cooldownSec s' := by
  have hheld : Held ruleId sourceId cooldownSec s' := by
    induction h with
    | refl => refine ⟨⟨?_, ?_⟩, ?_⟩ <;> simp [hfresh, Spaced, Store.notices]
    | call _ hok hexec ih => exact ih.call hok.1 hok.2 hexec
    | elsewhere _ helsewhere ih =>
        exact ih.keeps ⟨helsewhere.dispatches, helsewhere.incidents ▸ le_rfl, fun e he => helsewhere.events ▸ he⟩
  exact hheld.spaced

/-! ## A disk that flaps -/

/-- The rule for full disks, with somebody to tell. -/
def mailedRule : AlertRule := { diskRule with channels := [.email], notifyEmails := ["ops@example.org"] }

/-- A reading of a disk, some seconds after the first evaluation. -/
def reading (seconds : Int) (value : ℚ) : MetricRow :=
  ⟨1790000000000 + seconds * 1000, 1, .host, 7, .diskUsedPercent, "/", value⟩

def mailedStore (rows : List MetricRow) (hrows : (rows.map MetricRow.id).Nodup) : Store :=
  { diskStore with
    rules := Table.empty.insert (fun id => { mailedRule with id := id }) fun _ => rfl
    entries := ⟨rows, hrows⟩ }

/-- The reading is evaluated when it is taken. -/
def evaluatedAt (seconds : Int) (value : ℚ) (s : Store) : Store :=
  (evaluatedItems s 1 [reading seconds value]).foldl (Store.turned 1 (1790000000000 + seconds * 1000)) s

def later (ms : Nat) (s : Store) : Store := { s with clock := s.clock + ms }

/-- Full for more than five minutes, and for fifteen more. -/
def fullStore : Store := mailedStore [reading (-300) 93, reading 0 95, reading 900 96] (by decide)

/-- Full for more than five minutes, cleared for ten seconds, and full again. -/
def flappingStore : Store :=
  mailedStore [reading (-300) 93, reading 0 95, reading 10 50, reading 20 95, reading 330 95] (by decide)

theorem runs_evaluatedAt {ok : Op → Store → Prop} {s s' : Store} (seconds : Int) (value : ℚ) (h : Runs ok s s')
    (hok : ok (.evaluateIngestedMetrics 1 [reading seconds value] (1790000000000 + seconds * 1000)) s') :
    Runs ok s (evaluatedAt seconds value s') := .call h hok evaluateIngestedMetrics_exec

theorem runs_later {ok : Op → Store → Prop} {s s' : Store} (ms : Nat) (h : Runs ok s s') (hok : ok (.tick ms) s') :
    Runs ok s (later ms s') := .call h hok rfl

theorem timely_evaluatedAt {s : Store} (seconds : Int) (value : ℚ) (hnow : 1790000000000 + seconds * 1000 ≤ s.clock)
    (hrules : s.rules.rows = [mailedRule]) :
    Timely 0 900 (.evaluateIngestedMetrics 1 [reading seconds value] (1790000000000 + seconds * 1000)) s := by
  rintro orgId rows now heq
  cases heq
  refine ⟨hnow, fun rule hrule _ => ?_⟩
  have hmem : rule ∈ s.rules.rows := hrule
  rw [hrules] at hmem
  obtain rfl := List.mem_singleton.mp hmem
  rfl

theorem apart_evaluatedAt {s : Store} (seconds : Int) (value : ℚ)
    (hitems : evaluatedItems s 1 [reading seconds value] = [(reading seconds value, mailedRule)])
    (hclear : Clear 0 7 900 s (s.target ⟨1, 0, 7, .diskUsedPercent⟩)) :
    Apart 0 7 900 (.evaluateIngestedMetrics 1 [reading seconds value] (1790000000000 + seconds * 1000)) s := by
  rintro orgId rows now heq point rule s' hturn _ _ _
  cases heq
  obtain ⟨pre, post, hsplit, rfl⟩ := turn_iff.mp hturn
  rw [hitems] at hsplit
  cases pre with
  | nil =>
      obtain ⟨hitem, -⟩ := List.cons.inj hsplit
      obtain ⟨rfl, rfl⟩ := Prod.mk.inj hitem
      exact hclear
  | cons item pre => simp at hsplit

/-- A breach that goes on is announced again after the cooldown. -/
theorem notifications_spaced_full : ∃ s', (s'.notices 0 7).map Dispatch.sentAt = [1790000900000, 1790000000000] ∧
    Spaced 0 7 900 s' := by
  refine ⟨evaluatedAt 900 96 (later 900000 (evaluatedAt 0 95 fullStore)), by decide +kernel,
    notifications_spaced (s := fullStore) rfl ?_⟩
  apply runs_evaluatedAt
  · apply runs_later
    · apply runs_evaluatedAt _ _ .refl
      refine ⟨timely_evaluatedAt 0 95 (by decide) rfl, apart_evaluatedAt 0 95 rfl ?_⟩
      intro d hd
      cases hd
    · exact ⟨nofun, nofun⟩
  · refine ⟨timely_evaluatedAt 900 96 (by decide +kernel) rfl, apart_evaluatedAt 900 96 rfl ?_⟩
    unfold Clear
    decide +kernel

/-- **A second incident within the cooldown.** The disk is full, clears and is full again: both incidents are announced,
within 330 seconds. -/
theorem flapping_unspaced : flappingStore.dispatches = [] ∧
    ∃ s', Runs (Timely 0 900) flappingStore s' ∧ (s'.notices 0 7).map Dispatch.sentAt = [1790000330000, 1790000000000] ∧
      ¬ Spaced 0 7 900 s' := by
  refine ⟨rfl, evaluatedAt 330 95 (later 320000 (evaluatedAt 10 50 (later 10000 (evaluatedAt 0 95 flappingStore)))), ?_,
    by decide +kernel, by unfold Spaced; decide +kernel⟩
  apply runs_evaluatedAt _ _ _ (timely_evaluatedAt 330 95 (by decide +kernel) rfl)
  apply runs_later _ _ nofun
  apply runs_evaluatedAt _ _ _ (timely_evaluatedAt 10 50 (by decide +kernel) rfl)
  apply runs_later _ _ nofun
  exact runs_evaluatedAt _ _ .refl (timely_evaluatedAt 0 95 (by decide) rfl)

end IkelyaneMonitor.Incidents
