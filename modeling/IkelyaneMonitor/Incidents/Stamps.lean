import IkelyaneMonitor.Incidents.Unique

/-!
# The status of an incident and its stamps

People and the evaluator read the status of an incident in one statement and write the incident, by its id alone, in
another.

* `Stamped` : RESOLVED exactly with a time of resolution; `ResolvedAs` : resolved by this person with this note;
* `landsOpen` : an acknowledgement or a resolution lands on an incident that is still unresolved;
* `stamps_of_reach` : the runs of `landsOpen` keep both, the second until the incident is reopened; the code does not see to
  it (`acknowledged_after_resolution`).
-/

namespace IkelyaneMonitor.Incidents
open Interleave Telemetry Aiops Alerts Auth

def Incident.Stamped (r : Incident) : Prop := r.status = .resolved ↔ r.resolvedAt.isSome = true

/-- The incident is resolved, by this person and with this note. -/
def ResolvedAs (id userId : Nat) (note : Option String) (s : Store) : Prop :=
  ∃ r ∈ s.incidents, r.id = id ∧ r.status = .resolved ∧ r.resolvedBy = some userId ∧ r.resolutionNote = note

namespace Stmt

/-- An acknowledgement or a resolution finds the incident unresolved. -/
def landsOpen : Stmt → Store → Bool
  | .acknowledge id _ _, s | .resolve id _ _ _, s | .autoResolve id _, s => (s.incidents.get? id).all Incident.unresolved
  | _, _ => true

def reopens (id : Nat) : Stmt → Bool
  | .reopen id' _ => id' == id
  | _ => false

end Stmt

section System
variable {ι : Type}

/-- The step acknowledges or resolves no incident that is resolved. -/
def landsOpen (c : Conf ι Stmt Store Outcome) (i : ι) : Bool := (c.calls i).next?.all fun w => w.landsOpen c.store

/-- The step reopens the incident. -/
def reopens (id : Nat) (c : Conf ι Stmt Store Outcome) (i : ι) : Bool := (c.calls i).next?.any fun w => w.reopens id

end System

/-! ## Statements -/

section Statements
variable {ι : Type} {i : ι} {w : Stmt} {s s' : Store}

def AllStamped (s : Store) : Prop := ∀ r ∈ s.incidents, r.Stamped

theorem stamped_write (hs : AllStamped s) (id : Nat) {f : Incident → Incident} (hf : ∀ r, (f r).id = r.id)
    (h : ∀ r, s.incidents.get? id = some r → r.Stamped → (f r).Stamped) : AllStamped (s.write id f hf) := by
  intro r' hr'
  obtain ⟨r, hr, rfl⟩ := List.mem_map.mp hr'
  split
  · exact h r (Table.get?_eq_some.mpr ⟨hr, beq_iff_eq.mp ‹_›⟩) (hs r hr)
  · exact hs r hr

theorem sem_stamped (hs : AllStamped s) (hw : w.landsOpen s = true) (h : sem i w s = some s') : AllStamped s' := by
  cases w with
  | createIncident d =>
      cases h
      intro r hr
      obtain hr | rfl := mem_openIncident.mp hr
      · exact hs r hr
      · exact ⟨nofun, nofun⟩
  | updateIncident id =>
      cases h
      exact stamped_write hs id _ fun r _ hr => hr
  | autoResolve id now =>
      cases h
      exact stamped_write hs id _ fun r _ _ => ⟨fun _ => rfl, fun _ => rfl⟩
  | acknowledge id userId now =>
      cases h
      refine stamped_write hs id (fun r => r.id_acknowledge userId now) fun r hget hr => ⟨nofun, fun hat => ?_⟩
      -- the incident is unresolved, so it has no time of resolution that would be left behind
      have hun : r.unresolved = true := by simpa [Stmt.landsOpen, hget] using hw
      exact absurd (hr.mpr hat) (by simpa [Incident.unresolved] using hun)
  | resolve id userId note now =>
      cases h
      exact stamped_write hs id (fun r => r.id_resolve userId note now) fun r _ _ => ⟨fun _ => rfl, fun _ => rfl⟩
  | reopen id userId =>
      cases h
      exact stamped_write hs id Incident.id_reopen fun r _ _ => ⟨nofun, nofun⟩
  | _ =>
      cases h
      exact hs

variable {id userId : Nat} {note : Option String}

theorem resolvedAs_write (hs : ResolvedAs id userId note s) (id' : Nat) {f : Incident → Incident}
    (hf : ∀ r, (f r).id = r.id) (h : ∀ r, s.incidents.get? id' = some r → id' = id → r.status = .resolved →
      (f r).status = .resolved ∧ (f r).resolvedBy = r.resolvedBy ∧ (f r).resolutionNote = r.resolutionNote) :
    ResolvedAs id userId note (s.write id' f hf) := by
  obtain ⟨r, hr, hid, hstatus, hby, hnote⟩ := hs
  refine ⟨_, List.mem_map.mpr ⟨r, hr, rfl⟩, ?_⟩
  split
  · rename_i hid'
    obtain ⟨hstatus', hby', hnote'⟩ := h r (Table.get?_eq_some.mpr ⟨hr, beq_iff_eq.mp hid'⟩)
      ((beq_iff_eq.mp hid').symm.trans hid) hstatus
    exact ⟨(hf r).trans hid, hstatus', hby'.trans hby, hnote'.trans hnote⟩
  · exact ⟨hid, hstatus, hby, hnote⟩

theorem sem_resolvedAs (hs : ResolvedAs id userId note s) (hw : w.landsOpen s = true) (hno : w.reopens id = false)
    (h : sem i w s = some s') : ResolvedAs id userId note s' := by
  -- no acknowledgement and no resolution lands on it
  have hlands : ∀ {id'}, ((s.incidents.get? id').all Incident.unresolved) = true → ∀ r, s.incidents.get? id' = some r →
      r.status ≠ .resolved := by
    intro id' hall r hget
    rw [hget, Option.all_some] at hall
    simpa [Incident.unresolved] using hall
  cases w with
  | createIncident d =>
      cases h
      obtain ⟨r, hr, hrest⟩ := hs
      exact ⟨r, mem_openIncident.mpr (.inl hr), hrest⟩
  | updateIncident id' =>
      cases h
      exact resolvedAs_write hs id' _ fun r _ _ hstatus => ⟨hstatus, rfl, rfl⟩
  | autoResolve id' now =>
      cases h
      exact resolvedAs_write hs id' _ fun r hget _ hstatus => absurd hstatus (hlands hw r hget)
  | acknowledge id' userId' now =>
      cases h
      exact resolvedAs_write hs id' (fun r => r.id_acknowledge userId' now) fun r hget _ hstatus =>
        absurd hstatus (hlands hw r hget)
  | resolve id' userId' note' now =>
      cases h
      exact resolvedAs_write hs id' (fun r => r.id_resolve userId' note' now) fun r hget _ hstatus =>
        absurd hstatus (hlands hw r hget)
  | reopen id' userId' =>
      cases h
      exact resolvedAs_write hs id' Incident.id_reopen fun r _ hid _ => absurd hid (by simpa [Stmt.reopens] using hno)
  | _ =>
      cases h
      exact hs

end Statements

/-! ## Runs -/

section Runs
variable {ι : Type} [DecidableEq ι]

theorem stamped_of_reach {c c' : Conf ι Stmt Store Outcome} (hs : AllStamped c.store)
    (h : Reach sem (fun c i => landsOpen c i = true) c c') : AllStamped c'.store := by
  induction h with
  | refl => exact hs
  | step _ hok hstep ih =>
      obtain ⟨w, k, s', hw, hsem, rfl⟩ := (Conf.step_eq_some sem).mp hstep
      exact sem_stamped ih (by simpa [landsOpen, hw] using hok) hsem

theorem resolvedAs_of_reach {id userId : Nat} {note : Option String} {c c' : Conf ι Stmt Store Outcome}
    (hs : ResolvedAs id userId note c.store)
    (h : Reach sem (fun c i => landsOpen c i = true ∧ reopens id c i = false) c c') :
    ResolvedAs id userId note c'.store := by
  induction h with
  | refl => exact hs
  | step _ hok hstep ih =>
      obtain ⟨w, k, s', hw, hsem, rfl⟩ := (Conf.step_eq_some sem).mp hstep
      exact sem_resolvedAs ih (by simpa [landsOpen, hw] using hok.1) (by simpa [reopens, hw] using hok.2) hsem

/-- A call of `resolveIncident`: not started, about to write, or done. -/
theorem residual_resolveIncident {actor : Actor} {id : Nat} {note : Option String} {q : Call}
    (h : (resolveIncident actor id note).Residual q) : q = resolveIncident actor id note ∨
      (∃ now, q = .stmt (.resolve id actor.userId note now) fun _ => .ret (.written (.ok ()))) ∨ ∃ a, q = .ret a := by
  induction h with
  | refl => exact .inl rfl
  | @step w k s _ ih =>
      obtain hq | ⟨now, hq⟩ | ⟨a, hq⟩ := ih
      · unfold resolveIncident writeIncident at hq
        split at hq
        · cases hq
        · cases hq
          beta_reduce
          split
          · exact .inr (.inr ⟨_, rfl⟩)
          · split
            · exact .inr (.inr ⟨_, rfl⟩)
            · exact .inr (.inl ⟨_, rfl⟩)
      · cases hq
        exact .inr (.inr ⟨_, rfl⟩)
      · cases hq

/-- The first statement of `resolveIncident` resolves nothing. -/
theorem resolveIncident_reads {actor : Actor} {id : Nat} {note : Option String} {w : Stmt} {k : Store → Call}
    (h : resolveIncident actor id note = .stmt w k) (s : Store) : k s ≠ .ret (.written (.ok ())) := by
  unfold resolveIncident writeIncident at h
  split at h
  · cases h
  · cases h
    beta_reduce
    split
    · nofun
    · split <;> nofun

/-- The step with which `resolveIncident` succeeds resolves the incident. -/
theorem resolvedAs_of_step {c c' : Conf ι Stmt Store Outcome} {i : ι} {actor : Actor} {note : Option String} {r : Incident}
    (hcall : (resolveIncident actor r.id note).Residual (c.calls i)) (hr : r ∈ c.store.incidents)
    (hstep : c.step sem i = some c') (hdone : c'.calls i = .ret (.written (.ok ()))) :
    ResolvedAs r.id actor.userId note c'.store := by
  obtain ⟨w, k, s', hw, hsem, rfl⟩ := (Conf.step_eq_some sem).mp hstep
  simp only [Function.update_self] at hdone
  rw [hw] at hcall
  obtain hq | ⟨now, hq⟩ | ⟨a, hq⟩ := residual_resolveIncident hcall
  · exact absurd hdone (resolveIncident_reads hq.symm _)
  · cases hq
    cases hsem
    refine ⟨_, List.mem_map.mpr ⟨r, hr, rfl⟩, ?_⟩
    rw [if_pos (beq_self_eq_true _)]
    exact ⟨rfl, rfl, rfl, rfl⟩
  · cases hq

/-- **Status and stamps.** In every run whose acknowledgements and resolutions land on unresolved incidents, an incident is
RESOLVED exactly when it has a time of resolution; and once a person has resolved it, it stays resolved by them and with
their note until it is reopened. -/
theorem stamps_of_reach (ops : ι → Op) {s : Store} (hs : AllStamped s) {c : Conf ι Stmt Store Outcome}
    (h : Reach sem (fun c i => landsOpen c i = true) (start ops s) c) :
    (∀ r ∈ c.store.incidents, r.status = .resolved ↔ r.resolvedAt.isSome = true) ∧
    ∀ i actor note r c₁ c₂, ops i = .resolveIncident actor r.id note → r ∈ c.store.incidents →
      c.step sem i = some c₁ → c₁.calls i = .ret (.written (.ok ())) →
      Reach sem (fun c i => landsOpen c i = true ∧ reopens r.id c i = false) c₁ c₂ →
      ResolvedAs r.id actor.userId note c₂.store := by
  have hstart : AllStamped (start ops s).store := hs
  refine ⟨stamped_of_reach hstart h, fun i actor note r c₁ c₂ hop hr hstep hdone hrun => ?_⟩
  have hcall : (resolveIncident actor r.id note).Residual (c.calls i) := by
    have hres : (ops i).call.Residual (c.calls i) := h.residual i
    rwa [hop] at hres
  exact resolvedAs_of_reach (resolvedAs_of_step hcall hr hstep hdone) hrun

end Runs

/-! ## An acknowledgement that comes late -/

/-- One open incident. -/
def incidentStore : Store :=
  diskStore.openIncident ⟨⟨1, 0, 7, .diskUsedPercent⟩, "Disk almost full", .warning, .host, none, 95, none, 1790000000000⟩

/-- User 5 resolves it, user 6 acknowledges it. -/
def twoPeople : Bool → Op
  | false => .resolveIncident ⟨5, 1, .operator⟩ 0 (some "cleaned up")
  | true => .acknowledgeIncident ⟨6, 1, .operator⟩ 0

/-- Whether a call returned `ok`. -/
def succeeded : Call → Bool
  | .ret (.written (.ok ())) => true
  | _ => false

theorem eq_of_succeeded {p : Call} (h : succeeded p = true) : p = .ret (.written (.ok ())) := by
  unfold succeeded at h
  split at h
  · rfl
  · cases h

theorem incidentStore_stamped : AllStamped incidentStore := by
  intro r hr
  cases List.mem_singleton.mp hr
  exact ⟨nofun, nofun⟩

/-- The resolution first: the acknowledgement is refused. -/
theorem stamps_of_resolution : ∃ c₀ c c', (start twoPeople incidentStore).run sem [false] = some c₀ ∧
    c₀.step sem false = some c ∧ c.run sem [true] = some c' ∧
    (∀ r ∈ c₀.store.incidents, r.status = .resolved ↔ r.resolvedAt.isSome = true) ∧
    ResolvedAs 0 5 (some "cleaned up") c'.store := by
  have hrun : ((start twoPeople incidentStore).run sem [false]).any (fun c₀ => (c₀.step sem false).any fun c =>
      (c.run sem [true]).any fun _ => succeeded (c.calls false) && c.allSteps sem (fun c i => landsOpen c i && !reopens 0 c i)
        [true] && c₀.store.incidents.rows.any fun r => r.id == 0) = true := by decide +kernel
  obtain ⟨c₀, hc₀, hrun⟩ := (Option.any_eq_true _ _).mp hrun
  obtain ⟨c, hc, hrun⟩ := (Option.any_eq_true _ _).mp hrun
  obtain ⟨c', hc', hrun⟩ := (Option.any_eq_true _ _).mp hrun
  simp only [Bool.and_eq_true, List.any_eq_true, beq_iff_eq] at hrun
  obtain ⟨⟨hdone, hlands⟩, r, hr, hid⟩ := hrun
  have hreach₀ : Reach sem (fun c i => landsOpen c i = true) (start twoPeople incidentStore) c₀ :=
    Reach.of_allSteps (fun _ _ h => h) (by decide +kernel) hc₀
  have hreach : Reach sem (fun c i => landsOpen c i = true ∧ reopens r.id c i = false) c c' :=
    Reach.of_allSteps (fun c i h => by simpa [hid] using h) hlands hc'
  have hstamps := stamps_of_reach twoPeople incidentStore_stamped hreach₀
  refine ⟨c₀, c, c', hc₀, hc, hc', hstamps.1, ?_⟩
  rw [← hid]
  exact hstamps.2 false ⟨5, 1, .operator⟩ (some "cleaned up") r c c' (by rw [hid]; rfl) hr hc (eq_of_succeeded hdone) hreach

/-- **An acknowledgement undoes a resolution.** User 6 reads the open incident, user 5 resolves it, and user 6 writes. -/
theorem acknowledged_after_resolution : AllStamped incidentStore ∧
    ∃ c, Reach sem anyStep (start twoPeople incidentStore) c ∧ c.calls false = .ret (.written (.ok ())) ∧
      (∃ r ∈ c.store.incidents, ¬ (r.status = .resolved ↔ r.resolvedAt.isSome = true)) ∧
      ¬ ResolvedAs 0 5 (some "cleaned up") c.store := by
  have hrun : ((start twoPeople incidentStore).run sem [true, false, false, true]).any (fun c =>
      succeeded (c.calls false) && (c.store.incidents.rows.all fun r => r.status == .acknowledged && r.resolvedAt.isSome) &&
        !c.store.incidents.rows.isEmpty) = true := by decide +kernel
  obtain ⟨c, hc, hlate⟩ := (Option.any_eq_true _ _).mp hrun
  simp only [Bool.and_eq_true, List.all_eq_true, beq_iff_eq, Bool.not_eq_true', List.isEmpty_eq_false_iff] at hlate
  obtain ⟨⟨hdone, hall⟩, hne⟩ := hlate
  obtain ⟨r, hr⟩ := List.exists_mem_of_ne_nil _ hne
  refine ⟨incidentStore_stamped, c, .of_run hc, eq_of_succeeded hdone, ⟨r, hr, fun h => ?_⟩, ?_⟩
  · have hresolved := h.mpr (hall r hr).2
    rw [(hall r hr).1] at hresolved
    cases hresolved
  · rintro ⟨r, hr, _, hresolved, _⟩
    rw [(hall r hr).1] at hresolved
    cases hresolved

end IkelyaneMonitor.Incidents
