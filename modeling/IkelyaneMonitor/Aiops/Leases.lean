import Mathlib
import IkelyaneMonitor.Aiops.Workers

/-!
# Leases keep the attempts apart

* `Rewrites` : a write on the rows that keeps the times and the counts;
* `Inv` : a lease that is served in time keeps its findings to its worker, and every call of the model has a ticket of its
  own: the incident, the number of its findings and the attempt;
* `Rightful` : what a call knows when it takes a step; `Inv.step`, `frame` : what such a step keeps, and what the others see
  of it, while leases are served in time and findings stay apart.
-/

namespace IkelyaneMonitor.Aiops.Workers
open Interleave IkelyaneMonitor.Topology
open RcaLlm (Store Stmt IncidentRow Claimed Narrative NarrativeInput Served maxAttempts settleMs leaseMs)

/-! ## Rows -/

section Rows
variable {s : Store}

theorem mem_updateMany {p : IncidentRow → Bool} {f : IncidentRow → IncidentRow} {hf : ∀ r, (f r).id = r.id}
    {r' : IncidentRow} : r' ∈ (s.updateMany p f hf).incidents ↔ ∃ r ∈ s.incidents, (if p r then f r else r) = r' :=
  List.mem_map

theorem get?_some {id : Cuid} {r : IncidentRow} (h : s.get? id = some r) : r ∈ s.incidents ∧ r.id = id :=
  ⟨List.mem_of_find?_eq_some h, by simpa using List.find?_some h⟩

theorem row_unique {r r' : IncidentRow} (hr : r ∈ s.incidents) (hr' : r' ∈ s.incidents) (h : r.id = r'.id) : r = r' :=
  List.inj_on_of_nodup_map s.ids_nodup hr hr' h

theorem get?_of_mem {r : IncidentRow} (hr : r ∈ s.incidents) : s.get? r.id = some r := by
  cases hget : s.get? r.id with
  | none =>
      have hnone := List.find?_eq_none.mp hget r hr
      exact absurd (decide_eq_true rfl) hnone
  | some r' =>
      obtain ⟨hr', hid⟩ := get?_some hget
      rw [row_unique hr' hr hid]

/-- A condition on one incident that no row or several would meet: no row does. -/
theorem not_of_missed {p : IncidentRow → Bool} {id : Cuid} (hp : ∀ r, p r = true → r.id = id) (h : missed s p = true)
    {r : IncidentRow} (hr : r ∈ s.incidents) : p r = false := by
  by_contra hpr
  have hmem : r ∈ s.incidents.filter p := List.mem_filter.mpr ⟨hr, by simpa using hpr⟩
  have hsub : (s.incidents.filter p).map IncidentRow.id ⊆ [id] := by
    intro a ha
    obtain ⟨r', hr', rfl⟩ := List.mem_map.mp ha
    exact List.mem_singleton.mpr (hp r' (List.mem_filter.mp hr').2)
  have hnodup : ((s.incidents.filter p).map IncidentRow.id).Nodup := s.ids_nodup.sublist (List.filter_sublist.map _)
  have hle := (List.subperm_of_subset hnodup hsub).length_le
  rw [List.length_map, List.length_singleton] at hle
  have hpos := List.length_pos_of_mem hmem
  have hone : (s.incidents.filter p).length = 1 := by omega
  simp [missed, hone] at h

theorem exists_of_not_missed {p : IncidentRow → Bool} (h : missed s p = false) : ∃ r ∈ s.incidents, p r = true := by
  have hone : (s.incidents.filter p).length = 1 := by simpa [missed] using h
  obtain ⟨r, hr⟩ := List.exists_mem_of_length_pos (by omega : 0 < (s.incidents.filter p).length)
  exact ⟨r, (List.mem_filter.mp hr).1, (List.mem_filter.mp hr).2⟩

theorem dueRow_iff {id : Cuid} {settledBefore : Int} {r : IncidentRow} : dueRow id settledBefore r = true ↔
    r.id = id ∧ (∃ t, r.rca.rcaLlmRequestedAt = some t ∧ t ≤ settledBefore) ∧ r.rca.rcaLlmAttempts < maxAttempts := by
  simp [dueRow, IncidentRow.due, Option.any_eq_true]

theorem current_iff {c : Claim} {r : IncidentRow} :
    r.current c.claimed = true ↔ r.id = c.id ∧ r.rca.rcaGeneratedAt = c.rcaGeneratedAt :=
  RcaLlm.current_iff

/-- Times of one incident differ if those of all do. -/
theorem history_nodup (h : s.versions.Nodup) (id : Cuid) : (history s id).Nodup := by
  refine List.Nodup.map_on (fun a ha b hb heq => ?_) (h.filter _)
  have hid : a.1 = b.1 := by
    rw [of_decide_eq_true (List.mem_filter.mp ha).2, of_decide_eq_true (List.mem_filter.mp hb).2]
  exact Prod.ext hid heq

theorem mem_history {id : Cuid} {t : Option Int} : t ∈ history s id ↔ (id, t) ∈ s.versions := by
  unfold history
  constructor
  · intro h
    obtain ⟨v, hv, rfl⟩ := List.mem_map.mp h
    obtain ⟨hmem, hid⟩ := List.mem_filter.mp hv
    rw [← of_decide_eq_true hid]
    exact hmem
  · intro h
    exact List.mem_map.mpr ⟨(id, t), List.mem_filter.mpr ⟨h, decide_eq_true rfl⟩, rfl⟩

/-- A write on some rows that keeps the times and the counts, and leaves a request on these. -/
def Kept (p : IncidentRow → Bool) (request : Option Int) (r r' : IncidentRow) : Prop :=
  r'.id = r.id ∧ r'.rca.rcaGeneratedAt = r.rca.rcaGeneratedAt ∧ r'.rca.rcaLlmAttempts = r.rca.rcaLlmAttempts ∧
    r'.rca.rcaLlmRequestedAt = if p r then request else r.rca.rcaLlmRequestedAt

structure Rewrites (db db' : Store) (p : IncidentRow → Bool) (request : Option Int) : Prop where
  versions : db'.versions = db.versions
  rows : ∀ r' ∈ db'.incidents, ∃ r ∈ db.incidents, Kept p request r r'
  kept : ∀ r ∈ db.incidents, ∃ r' ∈ db'.incidents, Kept p request r r'

theorem Rewrites.refl (db : Store) (request : Option Int) : Rewrites db db (fun _ => false) request :=
  ⟨rfl, fun r hr => ⟨r, hr, rfl, rfl, rfl, rfl⟩, fun r hr => ⟨r, hr, rfl, rfl, rfl, rfl⟩⟩

theorem rewrites_updateMany {p : IncidentRow → Bool} {f : IncidentRow → IncidentRow} (hf : ∀ r, (f r).id = r.id)
    {request : Option Int} (hkeep : ∀ r, (f r).rca.rcaGeneratedAt = r.rca.rcaGeneratedAt ∧
      (f r).rca.rcaLlmAttempts = r.rca.rcaLlmAttempts ∧ (f r).rca.rcaLlmRequestedAt = request) :
    Rewrites s (s.updateMany p f hf) p request := by
  have hrow : ∀ r, Kept p request r (if p r then f r else r) := by
    intro r
    unfold Kept
    split
    · exact ⟨hf r, (hkeep r).1, (hkeep r).2.1, (hkeep r).2.2⟩
    · exact ⟨rfl, rfl, rfl, rfl⟩
  refine ⟨rfl, fun r' hr' => ?_, fun r hr => ⟨_, mem_updateMany.mpr ⟨r, hr, rfl⟩, hrow r⟩⟩
  obtain ⟨r, hr, rfl⟩ := mem_updateMany.mp hr'
  exact ⟨r, hr, hrow r⟩

/-- A write that leaves the analyses alone. -/
theorem rewrites_aside {p : IncidentRow → Bool} {f : IncidentRow → IncidentRow} (hf : ∀ r, (f r).id = r.id)
    (h : ∀ r ∈ s.incidents, p r = true → (f r).rca = r.rca) :
    Rewrites s (s.updateMany p f hf) (fun _ => false) none := by
  have hrow : ∀ r ∈ s.incidents, Kept (fun _ => false) none r (if p r then f r else r) := by
    intro r hr
    unfold Kept
    split
    · rename_i hp
      rw [h r hr hp]
      exact ⟨hf r, rfl, rfl, rfl⟩
    · exact ⟨rfl, rfl, rfl, rfl⟩
  refine ⟨rfl, fun r' hr' => ?_, fun r hr => ⟨_, mem_updateMany.mpr ⟨r, hr, rfl⟩, hrow r hr⟩⟩
  obtain ⟨r, hr, rfl⟩ := mem_updateMany.mp hr'
  exact ⟨r, hr, hrow r hr⟩

end Rows

/-! ## The invariant -/

/-- What tells one call of the model from another. -/
def Claim.ticket (c : Claim) : Cuid × Nat × Nat := (c.id, c.version, c.rcaLlmAttempts)

/-- An attempt that was counted. -/
def Charged (attempts : Nat) : Prop := 1 ≤ attempts ∧ attempts ≤ maxAttempts

/-- A claim has the number of the findings of its time, and the count of the row while it has these. -/
structure Known (s : Store) (id : Cuid) (c : Claim) : Prop where
  id_eq : c.id = id
  charged : Charged c.rcaLlmAttempts
  numbered : ∃ newer older, history s id = newer ++ c.rcaGeneratedAt :: older ∧ older.length + 1 = c.version
  counted : ∀ r ∈ s.incidents, r.id = id → c.version = version s id → r.rca.rcaLlmAttempts = c.rcaLlmAttempts

section Invariant
variable {ι : Type}

structure Inv (s : World ι) : Prop where
  versions : s.db.versions.Nodup
  stamped : ∀ r ∈ s.db.incidents, (history s.db r.id).head? = some r.rca.rcaGeneratedAt
  live : ∀ h ∈ s.held, s.now ≤ h.lease
  /-- Nobody can claim the row again before the lease ends. -/
  postponed : ∀ h ∈ s.held, h.version s.db = version s.db h.id → ∀ r ∈ s.db.incidents, r.id = h.id →
    ∀ t, r.rca.rcaLlmRequestedAt = some t → h.lease ≤ t
  exclusive : ∀ h ∈ s.held, ∀ h' ∈ s.held, h.id = h'.id → h.version s.db = h'.version s.db → h = h'
  unread : ∀ h ∈ s.held, h.claim = none → ∃ r ∈ s.db.incidents, r.id = h.id ∧ Charged r.rca.rcaLlmAttempts ∧
    (h.id, version s.db h.id, r.rca.rcaLlmAttempts) ∉ s.asked.map Claim.ticket
  read : ∀ h ∈ s.held, ∀ c, h.claim = some c → Known s.db h.id c
  asked_nodup : (s.asked.map Claim.ticket).Nodup
  asked_le : ∀ c ∈ s.asked, Charged c.rcaLlmAttempts ∧ c.version ≤ version s.db c.id ∧
    ∀ r ∈ s.db.incidents, r.id = c.id → c.version = version s.db c.id → c.rcaLlmAttempts ≤ r.rca.rcaLlmAttempts

/-- The worker holds the claim. -/
def Holds (i : ι) (c : Claim) (s : World ι) : Prop := ∃ h ∈ s.held, h.worker = i ∧ h.claim = some c

/-- A narrative of the findings of the claim is still asked for. -/
def Pending (c : Claim) (s : World ι) : Prop :=
  ∃ r ∈ s.db.incidents, r.current c.claimed = true ∧ r.rca.rcaLlmRequestedAt ≠ none

/-- What a call knows when it takes a step. -/
def Rightful (i : ι) (s : World ι) : Act → Prop
  | .sql (.findIncident ..) | .sql .loadContext | .sql (.writeFindings ..) | .sql .findCandidates | .sql (.change ..) => True
  | .sql _ => False
  | .lease _ settledBefore _ => settledBefore < s.now
  | .readClaimed id => ∃ lease, ⟨i, id, lease, none⟩ ∈ s.held
  | .serve claim part => Holds i claim s ∧
      match part with
      | .callModel => claim.ticket ∉ s.asked.map Claim.ticket
      | .createEvent => ¬ Pending claim s
      | .recordError _ retryAt => maxAttempts ≤ claim.rcaLlmAttempts → retryAt = none
      | _ => True
  | _ => True

variable {s s' : World ι}

theorem Known.le {db : Store} {id : Cuid} {c : Claim} (h : Known db id c) : c.version ≤ version db id := by
  obtain ⟨newer, older, heq, hlen⟩ := h.numbered
  unfold version
  rw [heq, List.length_append, List.length_cons]
  omega

/-- While a row has the time of a claim, the claim is of its last findings. -/
theorem Inv.current (hinv : Inv s) {id : Cuid} {c : Claim} (hknown : Known s.db id c) {r : IncidentRow}
    (hr : r ∈ s.db.incidents) (hcurrent : r.current c.claimed = true) : c.version = version s.db id := by
  obtain ⟨hid, hstamp⟩ := current_iff.mp hcurrent
  obtain ⟨newer, older, heq, hlen⟩ := hknown.numbered
  have hhead := hinv.stamped r hr
  have hnodup := history_nodup hinv.versions id
  rw [hid, hknown.id_eq, heq, hstamp] at hhead
  rw [heq] at hnodup
  cases newer with
  | nil =>
      unfold version
      rw [heq, List.nil_append, List.length_cons, hlen]
  | cons t newer =>
      rw [List.cons_append, List.head?_cons, Option.some.injEq] at hhead
      rw [hhead, List.cons_append, List.nodup_cons] at hnodup
      exact absurd (List.mem_append_right _ List.mem_cons_self) hnodup.1

/-- The leases that are left when some are ended. -/
theorem Inv.release (hinv : Inv s) {held : List (Held ι)} (hsub : ∀ h ∈ held, h ∈ s.held) : Inv { s with held := held } where
  versions := hinv.versions
  stamped := hinv.stamped
  live := fun h hh => hinv.live h (hsub h hh)
  postponed := fun h hh => hinv.postponed h (hsub h hh)
  exclusive := fun h hh h' hh' => hinv.exclusive h (hsub h hh) h' (hsub h' hh')
  unread := fun h hh => hinv.unread h (hsub h hh)
  read := fun h hh => hinv.read h (hsub h hh)
  asked_nodup := hinv.asked_nodup
  asked_le := hinv.asked_le

/-- A write that keeps the times and the counts: a request it brings forward is one that nobody holds. -/
theorem Inv.update (hinv : Inv s) {db : Store} {p : IncidentRow → Bool} {request : Option Int}
    (hw : Rewrites s.db db p request) (hrequest : request = none ∨ ∀ r ∈ s.db.incidents, p r = true →
      ∀ h ∈ s.held, r.id = h.id → h.version s.db ≠ version s.db h.id) : Inv { s with db := db } := by
  have hhistory : ∀ id, history db id = history s.db id := fun id => by rw [history, hw.versions, history]
  have hversion : ∀ id, version db id = version s.db id := fun id => by rw [version, hhistory, version]
  have hsame : ∀ h : Held ι, h.version db = h.version s.db := by
    intro h
    unfold Held.version
    split
    · exact hversion h.id
    · rfl
  refine ⟨?_, fun r' hr' => ?_, hinv.live, fun h hh hcurrent r' hr' hid t ht => ?_, fun h hh h' hh' hid heq => ?_,
    fun h hh hnone => ?_, fun h hh c hc => ?_, hinv.asked_nodup, fun c hc => ?_⟩
  · rw [hw.versions]
    exact hinv.versions
  · obtain ⟨r, hr, hid, hstamp, -⟩ := hw.rows r' hr'
    rw [hhistory, hstamp, hid]
    exact hinv.stamped r hr
  · rw [hsame, hversion] at hcurrent
    obtain ⟨r, hr, hrid, -, -, hreq⟩ := hw.rows r' hr'
    rw [hrid] at hid
    rw [hreq] at ht
    split at ht
    · rename_i hp
      rcases hrequest with hnone | hfree
      · rw [hnone] at ht
        cases ht
      · exact absurd hcurrent (hfree r hr hp h hh hid)
    · exact hinv.postponed h hh hcurrent r hr hid t ht
  · rw [hsame, hsame] at heq
    exact hinv.exclusive h hh h' hh' hid heq
  · obtain ⟨r, hr, hid, hcharged, hnew⟩ := hinv.unread h hh hnone
    obtain ⟨r', hr', hrid, -, hattempts, -⟩ := hw.kept r hr
    refine ⟨r', hr', hrid.trans hid, ?_, ?_⟩
    · rw [hattempts]
      exact hcharged
    · rw [hversion, hattempts]
      exact hnew
  · have hknown := hinv.read h hh c hc
    refine ⟨hknown.id_eq, hknown.charged, ?_, fun r' hr' hid heq => ?_⟩
    · rw [hhistory]
      exact hknown.numbered
    · obtain ⟨r, hr, hrid, -, hattempts, -⟩ := hw.rows r' hr'
      rw [hattempts]
      exact hknown.counted r hr (hrid.symm.trans hid) (heq.trans (hversion _))
  · obtain ⟨hcharged, hle, hrow⟩ := hinv.asked_le c hc
    rw [hversion]
    refine ⟨hcharged, hle, fun r' hr' hid heq => ?_⟩
    obtain ⟨r, hr, hrid, -, hattempts, -⟩ := hw.rows r' hr'
    rw [hattempts]
    exact hrow r hr (hrid.symm.trans hid) heq

/-- A row that is due is one that nobody holds. -/
theorem Inv.free_of_due (hinv : Inv s) {settledBefore : Int} (hbefore : settledBefore < s.now) {r : IncidentRow}
    (hr : r ∈ s.db.incidents) {t : Int} (ht : r.rca.rcaLlmRequestedAt = some t) (hle : t ≤ settledBefore) :
    ∀ h ∈ s.held, h.id = r.id → h.version s.db ≠ version s.db h.id := by
  intro h hh hid hversion
  have hlease := hinv.postponed h hh hversion r hr hid.symm t ht
  have hlive := hinv.live h hh
  omega

/-- The row as a lease leaves it. -/
def leased (lease : Int) (r : IncidentRow) : IncidentRow :=
  r.withRca { r.rca with rcaLlmRequestedAt := some lease, rcaLlmAttempts := r.rca.rcaLlmAttempts + 1 }

theorem leased_id (lease : Int) (r : IncidentRow) : (leased lease r).id = r.id := rfl

theorem Inv.lease (hinv : Inv s) (i : ι) {id : Cuid} {settledBefore lease : Int} (hbefore : settledBefore < s.now)
    (hlease : s.now ≤ lease) (hwon : missed s.db (dueRow id settledBefore) = false) :
    Inv { s with
      db := s.db.updateMany (dueRow id settledBefore) (leased lease) (leased_id lease)
      held := ⟨i, id, lease, none⟩ :: s.held } := by
  obtain ⟨r₀, hr₀, hdue⟩ := exists_of_not_missed hwon
  obtain ⟨rfl, ⟨t₀, ht₀, hle₀⟩, hattempts⟩ := dueRow_iff.mp hdue
  have hfree := hinv.free_of_due hbefore hr₀ ht₀ hle₀
  -- only the row that was due is another
  have hrows : ∀ r' ∈ (s.db.updateMany (dueRow r₀.id settledBefore) (leased lease) (leased_id lease)).incidents,
      r' = leased lease r₀ ∨ r' ∈ s.db.incidents ∧ r'.id ≠ r₀.id := by
    intro r' hr'
    obtain ⟨r, hr, rfl⟩ := mem_updateMany.mp hr'
    by_cases hid : r.id = r₀.id
    · rw [row_unique hr hr₀ hid, if_pos hdue]
      exact .inl rfl
    · rw [if_neg fun hp => hid (dueRow_iff.mp hp).1]
      exact .inr ⟨hr, hid⟩
  have hmem₀ : leased lease r₀ ∈
      (s.db.updateMany (dueRow r₀.id settledBefore) (leased lease) (leased_id lease)).incidents :=
    mem_updateMany.mpr ⟨r₀, hr₀, if_pos hdue⟩
  have hkept : ∀ r ∈ s.db.incidents, r.id ≠ r₀.id →
      r ∈ (s.db.updateMany (dueRow r₀.id settledBefore) (leased lease) (leased_id lease)).incidents :=
    fun r hr hid => mem_updateMany.mpr ⟨r, hr, if_neg fun hp => hid (dueRow_iff.mp hp).1⟩
  refine ⟨hinv.versions, fun r' hr' => ?_, fun h hh => ?_, fun h hh hversion r' hr' hid t ht => ?_,
    fun h hh h' hh' hid hversion => ?_, fun h hh hnone => ?_, fun h hh c hc => ?_, hinv.asked_nodup, fun c hc => ?_⟩
  · rcases hrows r' hr' with rfl | ⟨hr, -⟩
    · exact hinv.stamped r₀ hr₀
    · exact hinv.stamped r' hr
  · rcases List.mem_cons.mp hh with rfl | hold
    · exact hlease
    · exact hinv.live h hold
  · rcases hrows r' hr' with rfl | ⟨hr, hne⟩
    · rcases List.mem_cons.mp hh with rfl | hold
      · exact (Option.some.inj ht).le
      · exact absurd hversion (hfree h hold hid.symm)
    · rcases List.mem_cons.mp hh with rfl | hold
      · exact absurd hid hne
      · exact hinv.postponed h hold hversion r' hr hid t ht
  · rcases List.mem_cons.mp hh with rfl | hold <;> rcases List.mem_cons.mp hh' with rfl | hold'
    · rfl
    · exact absurd (hversion.symm.trans (congrArg (version s.db) hid)) (hfree h' hold' hid.symm)
    · exact absurd (hversion.trans (congrArg (version s.db) hid.symm)) (hfree h hold hid)
    · exact hinv.exclusive h hold h' hold' hid hversion
  · rcases List.mem_cons.mp hh with rfl | hold
    · refine ⟨leased lease r₀, hmem₀, rfl, ⟨Nat.le_add_left 1 _, hattempts⟩, fun hticket => ?_⟩
      obtain ⟨c, hc, heq⟩ := List.mem_map.mp hticket
      obtain ⟨hid, hrest⟩ := Prod.mk.inj heq
      obtain ⟨hversion, hcount⟩ := Prod.mk.inj hrest
      have hle := (hinv.asked_le c hc).2.2 r₀ hr₀ hid.symm (hversion.trans (congrArg (version s.db) hid.symm))
      rw [hcount] at hle
      exact absurd hle (Nat.not_succ_le_self _)
    · obtain ⟨r, hr, hid, hcharged, hnew⟩ := hinv.unread h hold hnone
      have hne : r.id ≠ r₀.id := fun heq => hfree h hold (hid.symm.trans heq) (by rw [Held.version, hnone])
      exact ⟨r, hkept r hr hne, hid, hcharged, hnew⟩
  · rcases List.mem_cons.mp hh with rfl | hold
    · cases hc
    · have hknown := hinv.read h hold c hc
      refine ⟨hknown.id_eq, hknown.charged, hknown.numbered, fun r' hr' hid hversion => ?_⟩
      rcases hrows r' hr' with rfl | ⟨hr, -⟩
      · exact absurd (by rw [Held.version, hc]; exact hversion) (hfree h hold hid.symm)
      · exact hknown.counted r' hr hid hversion
  · obtain ⟨hcharged, hle, hrow⟩ := hinv.asked_le c hc
    refine ⟨hcharged, hle, fun r' hr' hid hversion => ?_⟩
    rcases hrows r' hr' with rfl | ⟨hr, -⟩
    · exact Nat.le_succ_of_le (hrow r₀ hr₀ hid hversion)
    · exact hrow r' hr hid hversion

/-- A lease that is not won writes nothing. -/
theorem missed_spec {db : Store} {id : Cuid} {settledBefore lease : Int}
    (h : missed db (dueRow id settledBefore) = true) :
    Rewrites db (db.updateMany (dueRow id settledBefore) (leased lease) (leased_id lease)) (fun _ => false) none := by
  refine rewrites_aside (leased_id lease) fun r hr hdue => ?_
  have hnone := not_of_missed (fun r hr => (dueRow_iff.mp hr).1) h hr
  exact absurd (hdue.symm.trans hnone) (by decide)

/-- The claim that is read is the one that was leased. -/
theorem Inv.readClaimed [DecidableEq ι] (hinv : Inv s) {i : ι} {r : IncidentRow} (hr : r ∈ s.db.incidents) :
    Inv { s with held := s.held.map (Held.read i r.id (claimOf s.db r)) } := by
  have hread : ∀ h' ∈ s.held.map (Held.read i r.id (claimOf s.db r)), ∃ h ∈ s.held,
      h'.id = h.id ∧ h'.lease = h.lease ∧ h'.worker = h.worker ∧ h'.version s.db = h.version s.db ∧
        (h' = h ∨ h.claim = none ∧ h.id = r.id ∧ h'.claim = some (claimOf s.db r)) := by
    intro h' hh'
    obtain ⟨h, hh, rfl⟩ := List.mem_map.mp hh'
    refine ⟨h, hh, ?_⟩
    unfold Held.read
    split
    · rename_i hmine
      obtain ⟨-, hid, hnone⟩ := hmine
      refine ⟨rfl, rfl, rfl, ?_, .inr ⟨hnone, hid, rfl⟩⟩
      rw [Held.version, Held.version, hnone, hid]
      rfl
    · exact ⟨rfl, rfl, rfl, rfl, .inl rfl⟩
  refine ⟨hinv.versions, hinv.stamped, fun h' hh' => ?_, fun h' hh' hversion => ?_, fun h hh h' hh' hid hversion => ?_,
    fun h' hh' hnone => ?_, fun h' hh' c hc => ?_, hinv.asked_nodup, hinv.asked_le⟩
  · obtain ⟨h, hh, -, hlease, -⟩ := hread h' hh'
    rw [hlease]
    exact hinv.live h hh
  · obtain ⟨h, hh, hid, hlease, -, hsame, -⟩ := hread h' hh'
    rw [hid, hlease]
    exact hinv.postponed h hh (by rw [← hsame, hversion, hid])
  · obtain ⟨a, ha, rfl⟩ := List.mem_map.mp hh
    obtain ⟨b, hb, rfl⟩ := List.mem_map.mp hh'
    have hpart : ∀ a ∈ s.held, (Held.read i r.id (claimOf s.db r) a).id = a.id ∧
        (Held.read i r.id (claimOf s.db r) a).version s.db = a.version s.db := by
      intro a ha
      unfold Held.read
      split
      · rename_i hmine
        refine ⟨rfl, ?_⟩
        rw [Held.version, Held.version, hmine.2.2, hmine.2.1]
        rfl
      · exact ⟨rfl, rfl⟩
    have hab : a = b := hinv.exclusive a ha b hb ((hpart a ha).1.symm.trans (hid.trans (hpart b hb).1))
      ((hpart a ha).2.symm.trans (hversion.trans (hpart b hb).2))
    rw [hab]
  · obtain ⟨h, hh, -, -, -, -, rfl | ⟨-, -, hsome⟩⟩ := hread h' hh'
    · exact hinv.unread h' hh hnone
    · rw [hsome] at hnone
      cases hnone
  · obtain ⟨h, hh, hid, -, -, -, rfl | ⟨hnone, hrid, hsome⟩⟩ := hread h' hh'
    · exact hinv.read h' hh c hc
    · rw [hsome] at hc
      cases hc
      obtain ⟨r₁, hr₁, hid₁, hcharged, -⟩ := hinv.unread h hh hnone
      have hrow : r₁ = r := row_unique hr₁ hr (hid₁.trans hrid)
      refine ⟨hrid.symm.trans hid.symm, hrow ▸ hcharged, ?_, fun r' hr' hid' _ => ?_⟩
      · have hhead := hinv.stamped r hr
        rw [hid, hrid]
        obtain ⟨older, hcons⟩ := List.head?_eq_some_iff.mp hhead
        refine ⟨[], older, hcons, ?_⟩
        show older.length + 1 = (history s.db r.id).length
        rw [hcons, List.length_cons]
      · rw [row_unique hr' hr (hid'.trans (hid.trans hrid))]
        rfl

/-- The row as a refresh leaves it. -/
def refreshed (findings : RcaFindings) (llmEnabled : Bool) (now : Int) (r : IncidentRow) : IncidentRow :=
  { r with rca := .refreshed findings llmEnabled now, writtenFrom := none }

theorem refreshed_id (findings : RcaFindings) (llmEnabled : Bool) (now : Int) (r : IncidentRow) :
    (refreshed findings llmEnabled now r).id = r.id := rfl

/-- The incidents as a refresh leaves them. -/
def written (db : Store) (id : Cuid) (findings : RcaFindings) (llmEnabled : Bool) (now : Int) : Store :=
  { db.updateMany (fun r => decide (r.id = id)) (refreshed findings llmEnabled now)
    (refreshed_id findings llmEnabled now) with
    versions := (id, some now) :: db.versions }

section Written
variable {db : Store} {id : Cuid} {findings : RcaFindings} {llmEnabled : Bool} {now : Int}

theorem history_written (id' : Cuid) : history (written db id findings llmEnabled now) id' =
    if id = id' then some now :: history db id' else history db id' := by
  show List.map Prod.snd (List.filter (fun v => decide (v.1 = id')) ((id, some now) :: db.versions)) = _
  rw [List.filter_cons]
  by_cases hid : id = id'
  · rw [if_pos hid, if_pos (decide_eq_true hid)]
    rfl
  · rw [if_neg hid, if_neg (by simpa using hid)]
    rfl

/-- The findings of the other incidents keep their numbers. -/
theorem version_written_ne {id' : Cuid} (h : id' ≠ id) :
    version (written db id findings llmEnabled now) id' = version db id' := by
  unfold version
  rw [history_written, if_neg (Ne.symm h)]

theorem version_written_self : version (written db id findings llmEnabled now) id = version db id + 1 := by
  unfold version
  rw [history_written, if_pos rfl, List.length_cons]

theorem mem_written {r' : IncidentRow} (hr' : r' ∈ (written db id findings llmEnabled now).incidents) :
    r'.id = id ∧ r'.rca = .refreshed findings llmEnabled now ∨ r'.id ≠ id ∧ r' ∈ db.incidents := by
  obtain ⟨r, hr, rfl⟩ := (@mem_updateMany db _ _ (refreshed_id findings llmEnabled now) r').mp hr'
  by_cases hid : r.id = id
  · rw [if_pos (decide_eq_true hid)]
    exact .inl ⟨hid, rfl⟩
  · rw [if_neg (by simpa using hid)]
    exact .inr ⟨hid, hr⟩

theorem mem_written_of_ne {r : IncidentRow} (hr : r ∈ db.incidents) (h : r.id ≠ id) :
    r ∈ (written db id findings llmEnabled now).incidents :=
  (@mem_updateMany db _ _ (refreshed_id findings llmEnabled now) r).mpr ⟨r, hr, if_neg (by simpa using h)⟩

end Written

/-- A lease is for findings that are there. -/
theorem Inv.version_le (hinv : Inv s) {h : Held ι} (hh : h ∈ s.held) : h.version s.db ≤ version s.db h.id := by
  cases hc : h.claim with
  | none => rw [Held.version, hc]
  | some c =>
      rw [Held.version, hc]
      exact (hinv.read h hh c hc).le

theorem Inv.write (hinv : Inv s) {id : Cuid} {findings : RcaFindings} {llmEnabled : Bool} {now : Int}
    (hread : ∀ h ∈ s.held, h.id = id → h.claim ≠ none) (hnew : (id, some now) ∉ s.db.versions) :
    Inv { s with db := written s.db id findings llmEnabled now } := by
  have hsame : ∀ h ∈ s.held, h.version (written s.db id findings llmEnabled now) = h.version s.db := by
    intro h hh
    cases hc : h.claim with
    | none =>
        rw [Held.version, Held.version, hc]
        exact version_written_ne fun hid => hread h hh hid hc
    | some c => rw [Held.version, Held.version, hc]
  -- leases on the incident are for findings before these
  have hcurrent : ∀ h ∈ s.held, h.version s.db = version (written s.db id findings llmEnabled now) h.id → h.id ≠ id := by
    intro h hh heq hid
    have hle := hinv.version_le hh
    rw [hid, version_written_self] at heq
    rw [hid] at hle
    omega
  refine ⟨List.nodup_cons.mpr ⟨hnew, hinv.versions⟩, fun r' hr' => ?_, hinv.live, fun h hh hversion r' hr' hid t ht => ?_,
    fun h hh h' hh' hid hversion => ?_, fun h hh hnone => ?_, fun h hh c hc => ?_, hinv.asked_nodup, fun c hc => ?_⟩
  · rw [history_written]
    rcases mem_written hr' with ⟨rfl, hrca⟩ | ⟨hne, hr⟩
    · rw [if_pos rfl, hrca, List.head?_cons]
      rfl
    · rw [if_neg (Ne.symm hne)]
      exact hinv.stamped r' hr
  · rw [hsame h hh] at hversion
    have hne := hcurrent h hh hversion
    rw [version_written_ne hne] at hversion
    rcases mem_written hr' with ⟨hid', -⟩ | ⟨-, hr⟩
    · exact absurd (hid.symm.trans hid') hne
    · exact hinv.postponed h hh hversion r' hr hid t ht
  · rw [hsame h hh, hsame h' hh'] at hversion
    exact hinv.exclusive h hh h' hh' hid hversion
  · have hne : h.id ≠ id := fun hid => hread h hh hid hnone
    obtain ⟨r, hr, hid, hcharged, hticket⟩ := hinv.unread h hh hnone
    refine ⟨r, mem_written_of_ne hr (fun heq => hne (hid.symm.trans heq)), hid, hcharged, ?_⟩
    rw [version_written_ne hne]
    exact hticket
  · have hknown := hinv.read h hh c hc
    obtain ⟨newer, older, heq, hlen⟩ := hknown.numbered
    refine ⟨hknown.id_eq, hknown.charged, ?_, fun r' hr' hid hversion => ?_⟩
    · rw [history_written]
      split
      · exact ⟨some now :: newer, older, by rw [heq, List.cons_append], hlen⟩
      · exact ⟨newer, older, heq, hlen⟩
    · have hne := hcurrent h hh (by rw [Held.version, hc]; exact hversion)
      rw [version_written_ne hne] at hversion
      rcases mem_written hr' with ⟨hid', -⟩ | ⟨-, hr⟩
      · exact absurd (hid.symm.trans hid') hne
      · exact hknown.counted r' hr hid hversion
  · obtain ⟨hcharged, hle, hrow⟩ := hinv.asked_le c hc
    by_cases hid : c.id = id
    · rw [hid] at hle
      rw [hid, version_written_self]
      exact ⟨hcharged, Nat.le_succ_of_le hle, fun r' hr' hid' hversion => by omega⟩
    · rw [version_written_ne hid]
      refine ⟨hcharged, hle, fun r' hr' hid' hversion => ?_⟩
      rcases mem_written hr' with ⟨hid'', -⟩ | ⟨-, hr⟩
      · exact absurd (hid'.symm.trans hid'') hid
      · exact hrow r' hr hid' hversion

/-- The model is called once for each ticket. -/
theorem Inv.ask (hinv : Inv s) {i : ι} {c : Claim} (hholds : Holds i c s) (hnew : c.ticket ∉ s.asked.map Claim.ticket) :
    Inv { s with asked := c :: s.asked } := by
  obtain ⟨h, hh, -, hc⟩ := hholds
  have hknown := hinv.read h hh c hc
  refine ⟨hinv.versions, hinv.stamped, hinv.live, hinv.postponed, hinv.exclusive, fun h' hh' hnone => ?_, hinv.read,
    List.nodup_cons.mpr ⟨hnew, hinv.asked_nodup⟩, fun c' hc' => ?_⟩
  · obtain ⟨r, hr, hid, hcharged, hticket⟩ := hinv.unread h' hh' hnone
    refine ⟨r, hr, hid, hcharged, fun hmem => ?_⟩
    rcases List.mem_cons.mp hmem with heq | hold
    · obtain ⟨hid', hrest⟩ := Prod.mk.inj heq
      have hsame : h = h' := by
        refine hinv.exclusive h hh h' hh' (hknown.id_eq.symm.trans hid'.symm) ?_
        rw [Held.version, Held.version, hc, hnone]
        exact (Prod.mk.inj hrest).1.symm
      rw [hsame, hnone] at hc
      cases hc
    · exact hticket hold
  · rcases List.mem_cons.mp hc' with rfl | hold
    · refine ⟨hknown.charged, ?_, fun r hr hid hversion => ?_⟩
      · rw [hknown.id_eq]
        exact hknown.le
      · rw [hknown.counted r hr (hid.trans hknown.id_eq) (hknown.id_eq ▸ hversion)]
    · exact hinv.asked_le c' hold

/-- Two claims of one ticket are one claim. -/
theorem Inv.ticket_inj (hinv : Inv s) {j : ι} {c c' : Claim} (hc : Holds i c s) (hc' : Holds j c' s)
    (hid : c.id = c'.id) (hversion : c.version = c'.version) : i = j ∧ c = c' := by
  obtain ⟨h, hh, rfl, hclaim⟩ := hc
  obtain ⟨h', hh', rfl, hclaim'⟩ := hc'
  have hsame : h = h' := by
    refine hinv.exclusive h hh h' hh' ?_ ?_
    · rw [← (hinv.read h hh c hclaim).id_eq, ← (hinv.read h' hh' c' hclaim').id_eq, hid]
    · rw [Held.version, Held.version, hclaim, hclaim']
      exact hversion
  subst hsame
  exact ⟨rfl, Option.some.inj (hclaim.symm.trans hclaim')⟩

/-- Claims that have the time of a row are one worker's. -/
theorem Inv.holder_inj (hinv : Inv s) {j : ι} {c c' : Claim} (hc : Holds i c s) (hc' : Holds j c' s) {r : IncidentRow}
    (hr : r ∈ s.db.incidents) (hrow : r.current c.claimed = true) (hrow' : r.current c'.claimed = true) : i = j := by
  have hlast : ∀ k c, Holds k c s → r.current c.claimed = true → c.id = r.id ∧ c.version = version s.db r.id := by
    rintro k c ⟨h, hh, -, hclaim⟩ hcurrent
    have hknown := hinv.read h hh c hclaim
    have hid : c.id = r.id := (current_iff.mp hcurrent).1.symm
    refine ⟨hid, ?_⟩
    rw [hinv.current hknown hr hcurrent, ← hknown.id_eq, hid]
  obtain ⟨hid, hversion⟩ := hlast i c hc hrow
  obtain ⟨hid', hversion'⟩ := hlast j c' hc' hrow'
  exact (hinv.ticket_inj hc hc' (hid.trans hid'.symm) (hversion.trans hversion'.symm)).1

/-- A write brings no request forward that is asked for a claim, unless it writes the row of the claim. -/
theorem Rewrites.pending {db : Store} {p : IncidentRow → Bool} {request : Option Int} (hw : Rewrites s.db db p request)
    {c : Claim} (hfree : request = none ∨ ∀ r ∈ s.db.incidents, p r = true → r.current c.claimed = false)
    (h : Pending c { s with db := db }) : Pending c s := by
  obtain ⟨r', hr', hcurrent, hne⟩ := h
  obtain ⟨r, hr, hid, hstamp, -, hreq⟩ := hw.rows r' hr'
  have hsame : r.current c.claimed = true := by
    rw [current_iff, ← hid, ← hstamp]
    exact current_iff.mp hcurrent
  refine ⟨r, hr, hsame, fun hnone => hne ?_⟩
  rw [hreq]
  split
  · rename_i hp
    rcases hfree with hrequest | hother
    · exact hrequest
    · rw [hother r hr hp] at hsame
      cases hsame
  · exact hnone

/-! ## One step -/

section Step
variable [DecidableEq ι] {i : ι}

/-- The claims the worker goes on with when one was served. -/
def without (i : ι) (claim : Claim) (held : List (Held ι)) : List (Held ι) :=
  held.filter fun h => decide (¬(h.worker = i ∧ h.claim = some claim))

theorem mem_without {claim : Claim} {held : List (Held ι)} {h : Held ι} :
    h ∈ without i claim held ↔ h ∈ held ∧ ¬(h.worker = i ∧ h.claim = some claim) := by
  unfold without
  rw [List.mem_filter, decide_eq_true_eq]

/-- Nobody else holds the findings that a row has with the time of a claim. -/
theorem Inv.sole (hinv : Inv s) {claim : Claim} (hholds : Holds i claim s) {r : IncidentRow} (hr : r ∈ s.db.incidents)
    (hcurrent : r.current claim.claimed = true) :
    ∀ h ∈ without i claim s.held, r.id = h.id → h.version s.db ≠ version s.db h.id := by
  obtain ⟨h₀, hh₀, hworker, hc⟩ := hholds
  intro h hh hid hversion
  obtain ⟨hmem, hother⟩ := mem_without.mp hh
  have hknown := hinv.read h₀ hh₀ claim hc
  have hsame : h.id = h₀.id := hid.symm.trans ((current_iff.mp hcurrent).1.trans hknown.id_eq)
  have heq : h = h₀ := by
    refine hinv.exclusive h hmem h₀ hh₀ hsame ?_
    rw [hversion, hsame, ← hinv.current hknown hr hcurrent, Held.version, hc]
  exact hother (heq ▸ ⟨hworker, hc⟩)

/-- The rows a step of `serveNarrative` writes, and the request it leaves there. -/
def Part.rows (claim : Claim) : Part → IncidentRow → Bool
  | .dropRequest, r => decide (r.id = claim.id)
  | .refuse, r | .store .., r | .recordError .., r => r.current claim.claimed
  | _, _ => false

def Part.request : Part → Option Int
  | .recordError _ retryAt => retryAt
  | _ => none

theorem part_spec {claim : Claim} {part : Part} (hs : sem i (.serve claim part) s = some s') :
    Rewrites s.db s'.db (part.rows claim) part.request ∧ s'.now = s.now ∧
      s'.held = (if part.ends s.db claim then without i claim s.held else s.held) ∧
        s'.asked = if part.calls then claim :: s.asked else s.asked := by
  cases part with
  | dateNow | readInput | readMetrics | callModel | createEvent =>
      obtain rfl := Option.some.inj hs
      exact ⟨Rewrites.refl _ _, rfl, rfl, rfl⟩
  | dropRequest | refuse | store | recordError =>
      obtain rfl := Option.some.inj hs
      refine ⟨rewrites_updateMany ?_ ?_, rfl, rfl, rfl⟩
      · exact fun _ => rfl
      · exact fun _ => ⟨rfl, rfl, rfl⟩

theorem change_spec {id : Cuid} {status : Incidents.IncidentStatus} {severity : Alerts.Severity}
    {triggerValue peakValue anomalyScore : Option ℚ}
    (hs : sem i (.sql (.change id status severity triggerValue peakValue anomalyScore)) s = some s') :
    Rewrites s.db s'.db (fun _ => false) none := by
  obtain rfl := Option.some.inj hs
  refine rewrites_aside ?_ ?_
  · exact fun _ => rfl
  · exact fun _ _ _ => rfl

theorem Inv.part (hinv : Inv s) {claim : Claim} {part : Part} (hright : Rightful i s (.serve claim part))
    (hs : sem i (.serve claim part) s = some s') : Inv s' := by
  obtain ⟨hholds, hpart⟩ := hright
  obtain ⟨hrows, hnow, hheld, hasked⟩ := part_spec hs
  have hless : ∀ h ∈ s'.held, h ∈ s.held := by
    intro h hh
    rw [hheld] at hh
    split at hh
    · exact (mem_without.mp hh).1
    · exact hh
  -- a request is only brought forward with the end of the lease
  have hinv' : Inv { s with db := s'.db, held := s'.held } := by
    refine (hinv.release hless).update hrows ?_
    cases part with
    | recordError description retryAt =>
        have hended : s'.held = without i claim s.held := hheld.trans (if_pos rfl)
        refine .inr fun r hr hp => ?_
        show ∀ h ∈ s'.held, r.id = h.id → h.version s.db ≠ version s.db h.id
        rw [hended]
        exact hinv.sole hholds hr hp
    | _ => exact .inl rfl
  have hworld : s' = { s with db := s'.db, held := s'.held, asked := s'.asked } := by
    rw [← hnow]
  cases part with
  | callModel =>
      obtain rfl := Option.some.inj hs
      exact hinv.ask hholds hpart
  | _ =>
      rw [hworld, hasked]
      exact hinv'

theorem Inv.step (hinv : Inv s) {act : Act} (hright : Rightful i s act) (htime : inTime i act s = true)
    (hapart : apart i act s = true) (hs : sem i act s = some s') : Inv s' := by
  cases act with
  | dateNow =>
      obtain rfl := Option.some.inj hs
      exact hinv
  | tick ms =>
      obtain rfl := Option.some.inj hs
      have hlive : ∀ h ∈ s.held, s.now + ms ≤ h.lease := fun h hh => of_decide_eq_true (List.all_eq_true.mp htime h hh)
      exact ⟨hinv.versions, hinv.stamped, hlive, hinv.postponed, hinv.exclusive, hinv.unread, hinv.read, hinv.asked_nodup,
        hinv.asked_le⟩
  | crash =>
      obtain rfl := Option.some.inj hs
      exact hinv.release fun h hh => (List.mem_filter.mp hh).1
  | sql w =>
      cases w with
      | findIncident | loadContext | findCandidates =>
          obtain rfl := Option.some.inj hs
          exact hinv
      | writeFindings id findings llmEnabled now =>
          obtain rfl := Option.some.inj hs
          obtain ⟨hread, hnew⟩ := (Bool.and_eq_true _ _).mp hapart
          exact hinv.write (fun h hh => of_decide_eq_true (List.all_eq_true.mp hread h hh)) (of_decide_eq_true hnew)
      | change =>
          have hrows := change_spec hs
          obtain rfl := Option.some.inj hs
          exact hinv.update hrows (.inl rfl)
      | _ => exact hright.elim
  | lease id settledBefore lease =>
      obtain rfl := Option.some.inj hs
      cases hmissed : missed s.db (dueRow id settledBefore) with
      | true =>
          exact hinv.update (missed_spec hmissed) (.inl rfl)
      | false => exact hinv.lease i hright (of_decide_eq_true htime) hmissed
  | readClaimed id =>
      rw [sem] at hs
      split at hs
      · obtain rfl := Option.some.inj hs
        exact hinv.release fun h hh => (List.mem_filter.mp hh).1
      · rename_i r hget
        obtain rfl := Option.some.inj hs
        obtain ⟨hr, rfl⟩ := get?_some hget
        exact hinv.readClaimed hr
  | serve claim part => exact hinv.part hright hs

/-- What the others see of a step. -/
structure Frame (i : ι) (s s' : World ι) : Prop where
  held : ∀ h ∈ s.held, h.worker ≠ i → h ∈ s'.held
  now : s.now ≤ s'.now
  asked : ∀ c ∈ s'.asked, c ∈ s.asked ∨ Holds i c s
  pending : ∀ j c, j ≠ i → Holds j c s → Pending c s' → Pending c s

theorem frame (hinv : Inv s) {act : Act} (hright : Rightful i s act) (hapart : apart i act s = true)
    (hs : sem i act s = some s') : Frame i s s' := by
  have hsame : Frame i s s := ⟨fun _ hh _ => hh, le_refl _, fun _ hc => .inl hc, fun _ _ _ _ h => h⟩
  cases act with
  | dateNow =>
      obtain rfl := Option.some.inj hs
      exact hsame
  | tick ms =>
      obtain rfl := Option.some.inj hs
      refine ⟨hsame.held, ?_, hsame.asked, hsame.pending⟩
      show s.now ≤ s.now + ms
      omega
  | crash =>
      obtain rfl := Option.some.inj hs
      exact ⟨fun h hh hne => List.mem_filter.mpr ⟨hh, decide_eq_true hne⟩, hsame.now, hsame.asked, hsame.pending⟩
  | sql w =>
      cases w with
      | findIncident | loadContext | findCandidates =>
          obtain rfl := Option.some.inj hs
          exact hsame
      | writeFindings id findings llmEnabled now =>
          obtain rfl := Option.some.inj hs
          refine ⟨hsame.held, hsame.now, hsame.asked, fun j c _ hholds hpending => ?_⟩
          obtain ⟨r', hr', hcurrent, hne⟩ := hpending
          obtain ⟨hid, hstamp⟩ := current_iff.mp hcurrent
          rcases mem_written hr' with ⟨hid', hrca⟩ | ⟨-, hr⟩
          · -- the time of the claim is one the incident had
            obtain ⟨h, hh, -, hclaim⟩ := hholds
            have hknown := hinv.read h hh c hclaim
            obtain ⟨newer, older, heq, -⟩ := hknown.numbered
            have hmem : c.rcaGeneratedAt ∈ history s.db h.id := by
              rw [heq]
              exact List.mem_append_right _ List.mem_cons_self
            rw [mem_history, ← hknown.id_eq, ← hid, hid', ← hstamp, hrca] at hmem
            exact absurd hmem (of_decide_eq_true ((Bool.and_eq_true _ _).mp hapart).2)
          · exact ⟨r', hr, hcurrent, hne⟩
      | change =>
          obtain rfl := Option.some.inj hs
          exact ⟨hsame.held, hsame.now, hsame.asked, fun _ _ _ _ hpending =>
            (change_spec hs).pending (.inl rfl) hpending⟩
      | _ => exact hright.elim
  | lease id settledBefore lease =>
      obtain rfl := Option.some.inj hs
      refine ⟨fun h hh _ => ?_, hsame.now, hsame.asked, fun j c _ _ hpending => ?_⟩
      · show h ∈ if missed s.db (dueRow id settledBefore) then s.held else ⟨i, id, lease, none⟩ :: s.held
        split
        · exact hh
        · exact List.mem_cons_of_mem _ hh
      · obtain ⟨r', hr', hcurrent, hne⟩ := hpending
        obtain ⟨r, hr, rfl⟩ :=
          (@mem_updateMany s.db (dueRow id settledBefore) (leased lease) (leased_id lease) r').mp hr'
        split at hcurrent
        · -- a row that is leased was asked for
          rename_i hdue
          obtain ⟨-, ⟨t, ht, -⟩, -⟩ := dueRow_iff.mp hdue
          exact ⟨r, hr, hcurrent, by simp [ht]⟩
        · rename_i hdue
          rw [if_neg hdue] at hne
          exact ⟨r, hr, hcurrent, hne⟩
  | readClaimed id =>
      rw [sem] at hs
      split at hs
      · obtain rfl := Option.some.inj hs
        exact ⟨fun h hh hne => List.mem_filter.mpr ⟨hh, decide_eq_true fun hmine => hne hmine.1⟩, hsame.now, hsame.asked,
          hsame.pending⟩
      · obtain rfl := Option.some.inj hs
        refine ⟨fun h hh hne => List.mem_map.mpr ⟨h, hh, ?_⟩, hsame.now, hsame.asked, hsame.pending⟩
        exact if_neg fun hmine => hne hmine.1
  | serve claim part =>
      obtain ⟨hrows, hnow, hheld, hasked⟩ := part_spec hs
      refine ⟨fun h hh hne => ?_, hnow.ge, fun c hc => ?_, fun j c hji hholds hpending => ?_⟩
      · rw [hheld]
        split
        · exact mem_without.mpr ⟨hh, fun hmine => hne hmine.1⟩
        · exact hh
      · rw [hasked] at hc
        split at hc
        · rcases List.mem_cons.mp hc with rfl | hold
          · exact .inr hright.1
          · exact .inl hold
        · exact .inl hc
      · refine hrows.pending ?_ hpending
        cases part with
        | recordError description retryAt =>
            -- two claims of the findings of a row are one worker's
            refine .inr fun r hr hmine => Bool.eq_false_of_not_eq_true fun hother => hji ?_
            exact (hinv.holder_inj hright.1 hholds hr hmine hother).symm
        | _ => exact .inl rfl

end Step

end Invariant

end IkelyaneMonitor.Aiops.Workers
