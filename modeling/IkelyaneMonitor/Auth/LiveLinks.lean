import IkelyaneMonitor.Auth.InvitationLaws

/-!
# One live link for an address

The `UPDATE` of a `createInvitation` revokes the links that were there when it started. Nothing keeps another one from
committing a link before the first one commits its own.

* `OneLive` : of the invitations of an organization and an address, one is live at most;
* `Orderly` : when a `createInvitation` commits, no link that another one committed since its `UPDATE` started is live;
* `oneLive_step`, `not_oneLive_step` : a statement keeps `OneLive` when it is orderly, and only then;
* `one_live_link` : so in the runs of orderly statements the law holds, which the code does not see to
  (`two_live_links`).
-/

namespace IkelyaneMonitor.Auth.Invitations
open Interleave
open Members (User Membership Invitation)

variable {ι : Type}

def OneLive (invitations : Table Invitation) : Prop :=
  ∀ v ∈ invitations, ∀ v' ∈ invitations, live v = true → live v' = true → link v = link v' → v = v'

def Orderly (c : System ι) (i : ι) : Prop :=
  ∀ now draft, (c.calls i).next? = some (.commitInvitation now draft) →
    ∀ v ∈ c.store.invitations, live v = true → link v = draft.link → v.id < c.store.begun i

variable [DecidableEq ι] {hashToken toLowerCase : String → String} {ops : ι → Op} {i : ι}

/-- A commit revokes the rows that it held, and adds its own. -/
theorem mem_commitInvitation {now : Int} {draft : Draft} {s s' : Store ι}
    (h : sem i (.commitInvitation now draft) s = some s') {v : Invitation} (hv : v ∈ s'.invitations)
    (hlive : live v = true) : v ∈ s.invitations ∧ s.rows.holder v.id ≠ some i ∨ v = draft.row s.invitations.next := by
  cases h
  refine ((@Table.mem_insert Invitation _ _ draft.row (fun _ => rfl) v).mp hv).imp_left fun hold => ?_
  obtain ⟨v₀, hv₀, rfl⟩ := (mem_written (f := fun v => { v with revokedAt := some now }) fun _ => rfl).mp hold
  split at hlive
  · rw [live, Option.isNone_some, Bool.and_false] at hlive
    cases hlive
  · rename_i hheld
    rw [if_neg hheld]
    exact ⟨hv₀, hheld⟩

theorem oneLive_step {c c' : System ι} (hgood : (accepting hashToken ops).Good sem c) (hstep : c.step sem i = some c')
    (hok : Orderly c i) (h : OneLive c.store.invitations) : OneLive c'.store.invitations := by
  obtain ⟨-, w, k, hw, hsem, -, hguar⟩ := hgood.guar hstep
  have heffect := sem_effect hsem
  have hold : ∀ v ∈ c'.store.invitations, live v = true → v ∈ c.store.invitations ∨
      ∃ now draft, w = .commitInvitation now draft ∧ v = draft.row c.store.invitations.next := by
    intro v hv hlive
    rcases heffect.rows v hv with hold | ⟨-, v₀, -, -, hstamped⟩ | hnew
    · exact .inl hold
    · rw [hstamped.not_live] at hlive
      cases hlive
    · exact .inr hnew
  -- next to a new link, no other is live
  have hnew : ∀ {now draft}, w = .commitInvitation now draft → ∀ v ∈ c'.store.invitations, live v = true →
      link v = draft.link → v = draft.row c.store.invitations.next := by
    rintro now draft rfl v hv hlive hlink
    refine (mem_commitInvitation hsem hv hlive).resolve_left ?_
    rintro ⟨hv', hheld⟩
    have hlt := hok now draft (by rw [hw, Prog.next?_stmt]) v hv' hlive hlink
    rcases (hguar.links now draft rfl).covered v hv' hlive hlink hlt with hheld' | hnil
    · exact hheld hheld'
    · exact List.not_mem_nil hnil
  intro v hv v' hv' hlive hlive' hlink
  rcases hold v hv hlive with hv₀ | ⟨now, draft, hw, rfl⟩
  · rcases hold v' hv' hlive' with hv₀' | ⟨now, draft, hw, rfl⟩
    · exact h v hv₀ v' hv₀' hlive hlive' hlink
    · exact hnew hw v hv hlive hlink
  · exact (hnew hw v' hv' hlive' hlink.symm).symm

theorem not_oneLive_step {c c' : System ι} (hgood : (accepting hashToken ops).Good sem c) (hstep : c.step sem i = some c')
    (hnot : ¬ Orderly c i) : ¬ OneLive c'.store.invitations := by
  obtain ⟨-, w, k, hw, hsem, -, hguar⟩ := hgood.guar hstep
  unfold Orderly at hnot
  push Not at hnot
  obtain ⟨now, draft, hnext, v, hv, hlive, hlink, hge⟩ := hnot
  rw [hw, Prog.next?_stmt, Option.some.injEq] at hnext
  subst hnext
  have hheld : c.store.rows.holder v.id ≠ some i :=
    fun hheld => absurd ((hguar.links now draft rfl).held_lt v.id hheld) (Nat.not_lt.mpr hge)
  have hkept := (sem_effect hsem).kept v hv hheld
  have hadded : draft.row c.store.invitations.next ∈ c'.store.invitations := by
    have hs' := Option.some.inj hsem
    rw [← hs']
    exact (@Table.mem_insert Invitation _ _ draft.row (fun _ => rfl) _).mpr (.inr rfl)
  intro hone
  have heq := hone v hkept _ hadded hlive rfl hlink
  have hlt := c.store.invitations.lt_next v hv
  rw [heq] at hlt
  exact absurd hlt (Nat.lt_irrefl _)

theorem one_live_link (hashToken toLowerCase : String → String) (ops : ι → Op) (users : Table User)
    (memberships : Table Membership) (invitations : Table Invitation)
    (hstamp : ∀ v ∈ invitations, ¬ (v.acceptedAt.isSome = true ∧ v.revokedAt.isSome = true))
    (hone : OneLive invitations) {c : System ι}
    (hr : Reach sem Orderly (start hashToken toLowerCase ops users memberships invitations) c) :
    OneLive c.store.invitations ∧ ∀ i c', c.step sem i = some c' → (OneLive c'.store.invitations ↔ Orderly c i) := by
  have hgood : ∀ {c}, Reach sem Orderly (start hashToken toLowerCase ops users memberships invitations) c →
      (accepting hashToken ops).Good sem c := fun hr => (start_good hstamp).reach compatible hr
  have hholds : OneLive c.store.invitations := by
    induction hr with
    | refl => exact hone
    | step hr hok hstep ih => exact oneLive_step (hgood hr) hstep hok ih
  refine ⟨hholds, fun i c' hstep => ⟨fun hone' => ?_, fun hok => oneLive_step (hgood hr) hstep hok hholds⟩⟩
  by_contra hnot
  exact not_oneLive_step (hgood hr) hstep hnot hone'

/-- `Orderly`, executable. -/
def orderly (c : System ι) (i : ι) : Bool :=
  match (c.calls i).next? with
  | some (.commitInvitation _ draft) =>
    c.store.invitations.rows.all fun v => !(live v && link v == draft.link) || decide (v.id < c.store.begun i)
  | _ => true

omit [DecidableEq ι] in
theorem orderly_of {c : System ι} (h : orderly c i = true) : Orderly c i := by
  intro now draft hnext v hv hlive hlink
  rw [orderly, hnext] at h
  have hrow := List.all_eq_true.mp h v hv
  rw [hlive, hlink, BEq.rfl, Bool.true_and, Bool.not_true, Bool.false_or] at hrow
  exact of_decide_eq_true hrow

/-- Two calls of the owner for one address, with different roles. -/
def invite : Fin 2 → Op
  | 0 => ⟨.createInvitation ⟨0, 0, .owner⟩ "ops@example.org" .admin "first" 1000, none⟩
  | 1 => ⟨.createInvitation ⟨0, 0, .owner⟩ "ops@example.org" .viewer "second" 2000, none⟩

/-- One after the other: the second link replaces the first. -/
theorem one_live_link_replaced : ∃ c, Reach sem Orderly (start id id invite owner ownership .empty) c ∧
    c.store.invitations.count live = 1 ∧ OneLive c.store.invitations ∧
      ∀ i c', c.step sem i = some c' → (OneLive c'.store.invitations ↔ Orderly c i) := by
  have hrun : ((start id id invite owner ownership .empty).run sem [0, 0, 0, 0, 1, 1, 1, 1, 1]).any (fun c =>
      c.store.invitations.count live = 1) = true := by decide +kernel
  obtain ⟨c, hc, hcount⟩ := (Option.any_eq_true _ _).mp hrun
  have hreach : Reach sem Orderly (start id id invite owner ownership .empty) c :=
    Reach.of_allSteps (p := orderly) (fun _ _ => orderly_of) (by decide +kernel) hc
  have hempty : ∀ v, v ∉ (Table.empty : Table Invitation) := Table.not_mem_empty
  exact ⟨c, hreach, of_decide_eq_true hcount, one_live_link id id invite owner ownership .empty
    (fun v hv => absurd hv (hempty v)) (fun v hv => absurd hv (hempty v)) hreach⟩

/-- **Two live links**: neither `UPDATE` sees the link of the other. -/
theorem two_live_links : ∃ c, Reach sem anyStep (start id id invite owner ownership .empty) c ∧
    ¬ OneLive c.store.invitations := by
  have hrun : ((start id id invite owner ownership .empty).run sem [0, 0, 1, 1, 0, 0, 1, 1]).any (fun c =>
      c.store.invitations.rows = [⟨0, 0, "ops@example.org", .admin, "first", 604801000, none, none⟩,
        ⟨1, 0, "ops@example.org", .viewer, "second", 604802000, none, none⟩]) = true := by decide +kernel
  obtain ⟨c, hc, hrows⟩ := (Option.any_eq_true _ _).mp hrun
  refine ⟨c, .of_run hc, fun hone => ?_⟩
  have hmem : ∀ v ∈ ([⟨0, 0, "ops@example.org", .admin, "first", 604801000, none, none⟩,
      ⟨1, 0, "ops@example.org", .viewer, "second", 604802000, none, none⟩] : List Invitation), v ∈ c.store.invitations := by
    rw [← of_decide_eq_true hrows]
    exact fun v hv => hv
  have heq := hone _ (hmem _ List.mem_cons_self) _ (hmem _ (List.mem_cons_of_mem _ List.mem_cons_self)) rfl rfl rfl
  exact absurd (congrArg Invitation.id heq) (by decide)

end IkelyaneMonitor.Auth.Invitations
