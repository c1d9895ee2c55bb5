import IkelyaneMonitor.Tenancy.Writers

/-!
# What the audit trail tells

* `AuditLog.switches` : what an entry says of the row that it is about: whether it is there, and enabled;
* `switch_apply` : the change of a request does what its entry says; `Told` : what carries this through a run;
* `trail_tells_enabled` : whatever agents report meanwhile, a row is enabled or not as the entries about it say, the last one
  first; which endpoints, nodes, rules and actions there are is told by them, too.

Of the hosts, devices and databases the trail does not tell which there are: agents and scripts add some without an entry.
-/

namespace IkelyaneMonitor.Tenancy
open Interleave Relational
open Telemetry (MetricType)

/-- What an entry does to the switch of a row; `none` is a row that is not there. -/
def Verb.switch : Verb → Option Bool → Option Bool
  | .created, _ => some true
  | .enabled, b => b.map fun _ => true
  | .disabled, b => b.map fun _ => false
  | .deleted, _ => none
  | .updated, b | .rotated, b => b

def AuditLog.switches (k : Key) (b : Option Bool) (entry : AuditLog) : Option Bool :=
  if entry.target = k then entry.action.verb.switch b else b

/-- A change that does to the switch of its row what the verb says. -/
def Switches (verb : Verb) (k : Key) : Change Row Key → Prop
  | .put r => r.key = k ∧ ∀ b, verb.switch b = some r.enabled
  | .edit k' f => k' = k ∧ verb.switch none = none ∧
    ∀ r : Row, r.key = k → (f r).key = k ∧ verb.switch (some r.enabled) = some (f r).enabled
  | .drop k' => k' = k ∧ ∀ b, verb.switch b = none

section Switching
variable {URL : Type} {platform : Platform URL} {allowPrivateTargets : Bool}

theorem switches_edit {τ : Type} {m : Model τ} {verb : Verb} {id : Nat} {f : τ → τ} (hverb : verb.switch none = none)
    (hid : ∀ x, m.id (f x) = m.id x)
    (hf : ∀ x, verb.switch (some (m.row x).enabled) = some (m.row (f x)).enabled) :
    Switches verb (m.kind, id) (m.edit id f) := by
  refine ⟨rfl, hverb, fun r hk => ?_⟩
  obtain ⟨x, rfl⟩ := m.row_of_key (congrArg Prod.fst hk)
  have hread : m.read (m.row x) = some x := m.read_iff.mpr rfl
  simp only [hread, Option.map_some, Option.getD_some, settings_key, settings_enabled, hf, and_true]
  rw [m.key_row, hid, ← m.key_row, hk]

theorem asks_switches {request : Request} {a : Asked} (h : request.asks platform allowPrivateTargets = some a) :
    Switches a.action.verb (a.action.kind, a.targetId) a.change := by
  cases request <;> first | cases h | obtain ⟨-, c, hc, rfl⟩ := ask_eq_some h
  case registerDevice | createEndpoint =>
    obtain ⟨_, -, rfl⟩ := Option.map_eq_some_iff.mp hc
    exact ⟨rfl, fun _ => rfl⟩
  case updateDevice | updateEndpoint =>
    obtain ⟨_, -, rfl⟩ := Option.map_eq_some_iff.mp hc
    exact switches_edit rfl (fun _ => rfl) fun _ => rfl
  case registerHost | createAlertRule | createRemediationAction =>
    obtain ⟨-, hc⟩ := Option.ite_none_right_eq_some.mp hc
    obtain rfl := Option.some.inj hc
    exact ⟨rfl, fun _ => rfl⟩
  case updateAlertRule | updateRemediationAction =>
    obtain ⟨-, hc⟩ := Option.ite_none_right_eq_some.mp hc
    obtain rfl := Option.some.inj hc
    exact switches_edit rfl (fun _ => rfl) fun _ => rfl
  case createDependency =>
    obtain ⟨-, hc⟩ := Option.ite_none_left_eq_some.mp hc
    obtain rfl := Option.some.inj hc
    exact ⟨rfl, fun _ => rfl⟩
  case createNode =>
    split at hc
    · obtain rfl := Option.some.inj hc
      exact ⟨rfl, fun _ => rfl⟩
    · obtain ⟨_, -, rfl⟩ := Option.map_eq_some_iff.mp hc
      exact ⟨rfl, fun _ => rfl⟩
  case setHostEnabled enabled | setDeviceEnabled enabled | setDatabaseEnabled enabled | setEndpointEnabled enabled
      | setAlertRuleEnabled enabled | setRemediationActionEnabled enabled =>
    obtain rfl := Option.some.inj hc
    cases enabled <;> exact switches_edit rfl (fun _ => rfl) fun _ => rfl
  case rotateHostSecret | updateDatabaseSettings =>
    obtain rfl := Option.some.inj hc
    exact switches_edit rfl (fun _ => rfl) fun _ => rfl
  all_goals
    obtain rfl := Option.some.inj hc
    exact ⟨rfl, fun _ => rfl⟩

/-- Nothing but a dependency goes with a row that is deleted. -/
theorem exists_release {k : Key} {r : Row} (h : r.key.1 ≠ .dependency) :
    ∃ r', r.release k = some r' ∧ r'.enabled = r.enabled := by
  cases r <;> first | exact ⟨_, rfl, rfl⟩ | exact absurd rfl h

theorem switch_apply {verb : Verb} {k k' : Key} {c : Change Row Key} {m : Key → Option Row}
    (hm : ∀ k r, m k = some r → r.key = k) (hc : Switches verb k c) (hk' : k'.1 ≠ .dependency) :
    (schema.apply c m k').map Row.enabled =
      if k = k' then verb.switch ((m k').map Row.enabled) else (m k').map Row.enabled := by
  cases c with
  | put r =>
      obtain ⟨rfl, hswitch⟩ := hc
      by_cases hk : k' = r.key
      · subst hk
        have happly : schema.apply (.put r) m r.key = some r := Function.update_self _ _ _
        rw [happly, if_pos rfl, hswitch, Option.map_some]
      · have happly : schema.apply (.put r) m k' = m k' := Function.update_of_ne hk _ _
        rw [happly, if_neg (Ne.symm hk)]
  | edit k₁ f =>
      obtain ⟨rfl, hnone, hf⟩ := hc
      by_cases hk : k' = k₁
      · subst hk
        have happly : schema.apply (.edit k' f) m k' = (m k').map f := Function.update_self _ _ _
        rw [happly, if_pos rfl]
        cases hr : m k' with
        | none => exact hnone.symm
        | some r =>
            simp only [Option.map_some]
            exact (hf r (hm _ r hr)).2.symm
      · have happly : schema.apply (.edit k₁ f) m k' = m k' := Function.update_of_ne hk _ _
        rw [happly, if_neg (Ne.symm hk)]
  | drop k₁ =>
      obtain ⟨rfl, hswitch⟩ := hc
      have happly : schema.apply (.drop k₁) m k' = (m k').bind (schema.without k₁) := rfl
      rw [happly, hswitch]
      cases hr : m k' with
      | none => simp
      | some r =>
          have hkey : schema.key r = k' := hm _ r hr
          rw [Option.bind_some]
          by_cases hk : k₁ = k'
          · rw [if_pos hk, Schema.without, if_pos (hkey.trans hk.symm)]
            rfl
          · rw [if_neg hk, Schema.without, if_neg fun h => hk (h.symm.trans hkey)]
            split
            · obtain ⟨r', hr', henabled⟩ := exists_release (k := k₁) (r := r) (by rw [show r.key = k' from hkey]; exact hk')
              rw [show schema.release k₁ r = some r' from hr', Option.map_some, Option.map_some, henabled]
            · rfl

theorem switch_of_none {verb : Verb} {b : Bool} (h : verb.switch none = some b) (x : Option Bool) :
    verb.switch x = some b := by
  cases verb <;> simp_all [Verb.switch]

/-- The entries about other rows. -/
theorem foldl_switches_of_forall {k : Key} {entries : List AuditLog} (h : ∀ e ∈ entries, e.target ≠ k) (b : Option Bool) :
    entries.foldl (AuditLog.switches k) b = b := by
  induction entries with
  | nil => rfl
  | cons e entries ih =>
      rw [List.foldl_cons, AuditLog.switches, if_neg (h e List.mem_cons_self)]
      exact ih fun e he => h e (List.mem_cons_of_mem _ he)

end Switching

/-! ## Through a run -/

/-- The kinds of rows that requests alone add. -/
def Kind.isRequested : Kind → Bool
  | .endpoint | .node | .rule | .action => true
  | _ => false

/-- A row to begin with has its switch, and any other is enabled when it is added. -/
def switchAt (s : Db) (k : Key) : Bool := ((schema.rowAt k s.rows).map Row.enabled).getD true

structure Told (s t : Db) (entries : List AuditLog) : Prop where
  log : t.log = s.log ++ entries
  drawn : ∀ e ∈ entries, e.target ∈ t.drawn
  switch : ∀ k r, k.1 ≠ .dependency → schema.settings Row.settings t.rows k = some r →
    entries.foldl (AuditLog.switches k) (some (switchAt s k)) = some r.enabled
  rows : ∀ k : Key, k.1.isRequested = true → (schema.settings Row.settings t.rows k).map Row.enabled =
    entries.foldl (AuditLog.switches k) ((schema.rowAt k s.rows).map Row.enabled)

section Told
variable {URL : Type} {platform : Platform URL} {allowPrivateTargets : Bool} {s t t' : Db} {entries : List AuditLog}

theorem map_enabled_settings (rows : List Row) (k : Key) :
    (schema.settings Row.settings rows k).map Row.enabled = (schema.rowAt k rows).map Row.enabled := by
  rw [Schema.settings, Option.map_map]
  exact Option.map_congr fun r _ => settings_enabled r

theorem Told.refl (s : Db) : Told s s [] := by
  refine ⟨(List.append_nil _).symm, fun e he => absurd he List.not_mem_nil, fun k r _ hr => ?_,
    fun k _ => map_enabled_settings s.rows k⟩
  rw [List.foldl_nil, switchAt, ← map_enabled_settings, hr]
  rfl

theorem Told.idle (h : Told s t entries) (hdrawn : t.drawn ⊆ t'.drawn) (hlog : t'.log = t.log)
    (hset : schema.settings Row.settings t'.rows = schema.settings Row.settings t.rows) : Told s t' entries :=
  ⟨hlog.trans h.log, fun e he => hdrawn (h.drawn e he), hset ▸ h.switch, hset ▸ h.rows⟩

theorem Told.call (h : Told s t entries) (hdrawn : t.drawn ⊆ t'.drawn) {a : Asked} {request : Request}
    (ha : request.asks platform allowPrivateTargets = some a) (hsubject : schema.subject a.change ∈ t'.drawn)
    (hset : schema.settings Row.settings t'.rows = schema.apply a.change (schema.settings Row.settings t.rows))
    {e : AuditLog} (haction : e.action = a.action) (htarget : e.targetId = a.targetId) (hlog : t'.log = t.log ++ [e]) :
    Told s t' (entries ++ [e]) := by
  have hswitches := asks_switches ha
  have hkey : e.target = (a.action.kind, a.targetId) := by rw [AuditLog.target, haction, htarget]
  have happly : ∀ k : Key, k.1 ≠ .dependency → (schema.settings Row.settings t'.rows k).map Row.enabled =
      AuditLog.switches k ((schema.settings Row.settings t.rows k).map Row.enabled) e := by
    intro k hk
    rw [hset, switch_apply (fun k r hr => key_settings hr) hswitches hk, AuditLog.switches, hkey, haction]
  refine ⟨by rw [hlog, h.log, List.append_assoc], fun e' he' => ?_, fun k r hk hr => ?_, fun k hk => ?_⟩
  · rcases List.mem_append.mp he' with he' | he'
    · exact hdrawn (h.drawn e' he')
    · rw [List.mem_singleton.mp he', hkey, ← asks_key ha]
      have hsame : schema.subject a.change = changeKey a.change := by cases a.change <;> rfl
      exact hsame ▸ hsubject
  · have hr' := happly k hk
    rw [hr, Option.map_some] at hr'
    rw [List.foldl_append, List.foldl_cons, List.foldl_nil, hr']
    cases hq : schema.settings Row.settings t.rows k with
    | some q => rw [h.switch k q hk hq, Option.map_some]
    | none =>
        rw [hq, Option.map_none] at hr'
        unfold AuditLog.switches at hr' ⊢
        split at hr'
        · rw [if_pos ‹_›, if_pos ‹_›]
          exact (switch_of_none hr'.symm _).trans hr'
        · cases hr'
  · rw [List.foldl_append, List.foldl_cons, List.foldl_nil, ← h.rows k hk]
    refine happly k fun hkind => ?_
    rw [hkind] at hk
    cases hk

/-- An edit that leaves the switch of its row. -/
theorem map_enabled_edit {k : Key} {f : Row → Row} {m : Key → Option Row} (hm : ∀ k r, m k = some r → r.key = k)
    (hf : ∀ r : Row, r.key = k → (f r).enabled = r.enabled) (k' : Key) :
    (schema.apply (.edit k f) m k').map Row.enabled = (m k').map Row.enabled := by
  by_cases hk : k' = k
  · subst hk
    have happly : schema.apply (.edit k' f) m k' = (m k').map f := Function.update_self _ _ _
    rw [happly]
    cases hr : m k' with
    | none => rfl
    | some r => rw [Option.map_some, Option.map_some, Option.map_some, hf r (hm _ r hr)]
  · have happly : schema.apply (.edit k f) m k' = m k' := Function.update_of_ne hk _ _
    rw [happly]

theorem Told.edited (h : Told s t entries) (hdrawn : t.drawn ⊆ t'.drawn) (hlog : t'.log = t.log)
    (hset : ∀ k, (schema.settings Row.settings t'.rows k).map Row.enabled =
      (schema.settings Row.settings t.rows k).map Row.enabled) : Told s t' entries := by
  refine ⟨hlog.trans h.log, fun e he => hdrawn (h.drawn e he), fun k r hk hr => ?_, fun k hk => (hset k).trans (h.rows k hk)⟩
  have hr' := hset k
  rw [hr, Option.map_some] at hr'
  obtain ⟨q, hq, henabled⟩ := Option.map_eq_some_iff.mp hr'.symm
  rw [h.switch k q hk hq, henabled]

/-- No entry is about a row that is new. -/
theorem Told.added (h : Told s t entries) (hdrawn : t.drawn ⊆ t'.drawn) (hlog : t'.log = t.log)
    (hsdrawn : ∀ r ∈ s.rows, r.key ∈ t.drawn) {r : Row} (henabled : r.enabled = true) (hkind : r.key.1.isRequested = false)
    (hnew : r.key ∉ t.drawn)
    (hset : schema.settings Row.settings t'.rows = schema.apply (.put r) (schema.settings Row.settings t.rows)) :
    Told s t' entries := by
  have hself : schema.settings Row.settings t'.rows r.key = some r := by
    rw [hset]
    exact Function.update_self _ _ _
  have hother : ∀ k, k ≠ r.key → schema.settings Row.settings t'.rows k = schema.settings Row.settings t.rows k := by
    intro k hk
    rw [hset]
    exact Function.update_of_ne hk _ _
  refine ⟨hlog.trans h.log, fun e he => hdrawn (h.drawn e he), fun k q hk hq => ?_, fun k hk => ?_⟩
  · by_cases hsame : k = r.key
    · subst hsame
      obtain rfl := Option.some.inj (hself.symm.trans hq)
      have hnone : schema.rowAt r.key s.rows = none := rowAt_of_not_drawn hsdrawn hnew
      have habout : ∀ e ∈ entries, e.target ≠ r.key := by
        intro e he htarget
        exact hnew (htarget ▸ h.drawn e he)
      rw [foldl_switches_of_forall habout, switchAt, hnone, henabled]
      rfl
    · exact h.switch k q hk (hother k hsame ▸ hq)
  · rw [hother k fun hsame => ?_]
    · exact h.rows k hk
    · rw [hsame, hkind] at hk
      cases hk

/-- A statement of another writer. -/
theorem Told.write (h : Told s t entries) (hs : schema.Sound t.rows t.drawn) (hsdrawn : ∀ r ∈ s.rows, r.key ∈ t.drawn)
    {d : Nat} {w : Write Row Key} {c : Change Row Key} (hw : schema.Within d t.rows t.drawn w)
    (hdoes : schema.Does Row.settings w c) (hquiet : Quiet c) (hwrite : writeRow w t = some t') : Told s t' entries := by
  have hmind := writeRow_minded hs hw hwrite
  have hset := writeRow_settings hs hdoes hwrite
  cases c with
  | drop k => exact hquiet.elim
  | edit k f =>
      refine h.edited hmind.drawn hmind.log fun k' => ?_
      rw [hset]
      exact map_enabled_edit (fun k r hr => key_settings hr) (fun r hr => (hquiet r hr).2) k'
  | put r =>
      obtain ⟨henabled, hkind⟩ := hquiet
      obtain ⟨hnew, -⟩ := Schema.fresh_cons (writeRow_eq_some hwrite).1
      refine h.added hmind.drawn hmind.log hsdrawn henabled ?_ (hdoes.new settings_blanks hnew r rfl) hset
      rcases hkind with hkind | hkind | hkind <;> rw [hkind] <;> rfl

theorem Told.wrote {kinds : List Kind} (h : Told s t entries) (hs : schema.Sound t.rows t.drawn)
    (hsdrawn : ∀ r ∈ s.rows, r.key ∈ t.drawn) (hwrote : Wrote kinds t t') : Told s t' entries := by
  induction hwrote with
  | refl => exact h
  | write hwrote hw hdoes hquiet _ hwrite ih =>
      have hmind := hwrote.minded hs
      exact ih.write hmind.sound (fun r hr => hmind.drawn (hsdrawn r hr)) hw hdoes hquiet hwrite

end Told

section Runs
variable {URL : Type} {platform : Platform URL} {metricText : MetricType → String} {allowPrivateTargets : Bool}
  {org : Nat → Nat} {requests : Nat → Request} {faults : Nat → Option Nat} {s t : Db} {c : System}

theorem told_of_evolves (hs : schema.Sound s.rows s.drawn) {ms : List (Move Nat Writer)}
    (h : Evolves schema Row.settings (fun i => (requests i).effect platform allowPrivateTargets) (Writer.apply platform) s
      ms t) : s.drawn ⊆ t.drawn ∧ ∃ entries, Told s t entries := by
  induction h with
  | refl => exact ⟨List.Subset.refl _, [], .refl s⟩
  | idle _ _ hdrawn hset hlog ih =>
      obtain ⟨hsub, entries, htold⟩ := ih
      exact ⟨List.Subset.trans hsub hdrawn, entries, htold.idle hdrawn hlog hset⟩
  | call _ _ hdrawn hchange _ hsubject hset he hlog ih =>
      obtain ⟨hsub, entries, htold⟩ := ih
      obtain ⟨a, ha, metadata, rfl⟩ := he
      obtain ⟨a', ha', rfl⟩ := Option.map_eq_some_iff.mp hchange
      obtain rfl := Option.some.inj (ha'.symm.trans ha)
      exact ⟨List.Subset.trans hsub hdrawn, _, htold.call hdrawn ha hsubject hset rfl rfl hlog⟩
  | write hbefore hmind hwrite ih =>
      obtain ⟨hsub, entries, htold⟩ := ih
      have hsound := hbefore.sound hs
      exact ⟨List.Subset.trans hsub hmind.drawn, entries,
        htold.wrote hsound (fun r hr => hsub (hs.isDrawn r hr)) (Writer.wrote hsound hwrite)⟩

/-- A dependency has no switch, and goes with its nodes. -/
theorem trail_tells_enabled (horg : ∀ i, (requests i).orgId = org i) (hs : schema.Sound s.rows s.drawn)
    {run : List (Move Nat Writer)} (h : (start platform metricText allowPrivateTargets requests faults s).moves schema.sem
      (Writer.apply platform) run = some c) :
    ∃ entries, c.store.log = s.log ++ entries ∧
      (∀ r ∈ c.store.rows, r.key.1 ≠ .dependency →
        entries.foldl (AuditLog.switches r.key) (some (switchAt s r.key)) = some r.enabled) ∧
      ∀ k : Key, k.1.isRequested = true → (schema.rowAt k c.store.rows).map Row.enabled =
        entries.foldl (AuditLog.switches k) ((schema.rowAt k s.rows).map Row.enabled) := by
  obtain ⟨ms, hevolves, -⟩ := evolves settings_blanks (writers_mind platform) (start_sat (s := s) horg)
    (start_settles (s := s)) hs h
  obtain ⟨-, entries, htold⟩ := told_of_evolves hs hevolves
  refine ⟨entries, htold.log, fun r hr hk => ?_, fun k hk => ?_⟩
  · rw [htold.switch r.key r.settings hk (Schema.settings_of_mem (hevolves.sound hs).nodup hr), settings_enabled]
  · rw [← map_enabled_settings, htold.rows k hk]

/-- A device that an agent has added is disabled, another one deleted. -/
theorem trail_tells_enabled_watched : ∃ c, watched.moves schema.sem (Writer.apply plain) [.call 0, .call 0, .call 0,
      .write (.report polledReport), .call 2, .call 3] = some c ∧
    c.store.rows.map (fun r => (r.key, r.enabled)) = [((.host, 7), true), ((.device, 30), false)] ∧
    ∃ entries, c.store.log = pollingDb.log ++ entries ∧
      entries.map AuditLog.target = [(.device, 10), (.device, 30), (.device, 10)] ∧
      ∀ r ∈ c.store.rows, r.key.1 ≠ .dependency →
        entries.foldl (AuditLog.switches r.key) (some (switchAt pollingDb r.key)) = some r.enabled := by
  have hruns : (watched.moves schema.sem (Writer.apply plain) [.call 0, .call 0, .call 0, .write (.report polledReport),
      .call 2, .call 3]).map (fun c => (c.store.rows.map fun r => (r.key, r.enabled), c.store.log.map AuditLog.target)) =
      some ([((.host, 7), true), ((.device, 30), false)], [(.device, 10), (.device, 30), (.device, 10)]) := by
    decide +kernel
  obtain ⟨c, hc, hboth⟩ := Option.map_eq_some_iff.mp hruns
  have horg : ∀ i, (watching i).orgId = 1 := by
    intro i
    rcases i with _ | _ | _ | i <;> rfl
  obtain ⟨entries, hlog, hswitches, -⟩ := trail_tells_enabled horg pollingDb_sound hc
  have hentries : c.store.log = entries := hlog
  exact ⟨c, hc, congrArg Prod.fst hboth, entries, hlog, hentries ▸ congrArg Prod.snd hboth, hswitches⟩

end Runs

end IkelyaneMonitor.Tenancy
