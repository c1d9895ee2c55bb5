import IkelyaneMonitor.Interleave.RelyGuarantee
import IkelyaneMonitor.Auth.Invitations

/-!
# Accepting an invitation

* `Effect` : what a statement does to the rows and to what the others hold, `sem_effect`; `Inv` : a row that a transaction
  holds is live, `inv_step`;
* `accepting` : what a call promises; `Rely` : what it may count on, which every statement of another leaves (`compatible`);
* `Known`, `Claimed`, `Sweeping` : what a call knows of the invitation it read, of the one it claimed, and of the links it
  replaces; `op_goes` : every call keeps its promises;
* `accept_laws` : an invitation is accepted once and as a whole.
-/

namespace IkelyaneMonitor.Auth.Invitations
open Interleave
open Members (User Membership Invitation)

/-- The statement ends a transaction that wrote. -/
def Stmt.commits : Stmt → Bool
  | .commitInvitation .. | .commitRevoke _ | .commitAccept .. => true
  | _ => false

/-- A live row, and the same one accepted or revoked. -/
def Stamped (v v' : Invitation) : Prop :=
  ∃ now, v' = { v with acceptedAt := some now } ∨ v' = { v with revokedAt := some now }

theorem Stamped.not_live {v v' : Invitation} (h : Stamped v v') : live v' = false := by
  obtain ⟨now, rfl | rfl⟩ := h
  · rfl
  · rw [live, Option.isNone_some, Bool.and_false]

theorem Stamped.id {v v' : Invitation} (h : Stamped v v') : v'.id = v.id := by
  obtain ⟨now, rfl | rfl⟩ := h <;> rfl

theorem live_iff {v : Invitation} : live v = true ↔ v.acceptedAt = none ∧ v.revokedAt = none := by
  rw [live, Bool.and_eq_true, Option.isNone_iff_eq_none, Option.isNone_iff_eq_none]

section Statements
variable {ι : Type}

theorem isLive_iff {s : Store ι} {id : Nat} : s.isLive id = true ↔ ∃ v ∈ s.invitations, v.id = id ∧ live v = true := by
  rw [Store.isLive, Option.any_eq_true]
  constructor
  · rintro ⟨v, hv, hl⟩
    obtain ⟨hmem, hid⟩ := Table.get?_eq_some.mp hv
    exact ⟨v, hmem, hid, hl⟩
  · rintro ⟨v, hmem, hid, hl⟩
    exact ⟨v, Table.get?_eq_some.mpr ⟨hmem, hid⟩, hl⟩

theorem isLive_of_revocable {s : Store ι} {id orgId : Nat} (h : s.revocable id orgId = true) : s.isLive id = true := by
  rw [Store.revocable, Option.any_eq_true] at h
  obtain ⟨v, hv, hl⟩ := h
  rw [Store.isLive, hv, Option.any_some]
  exact (Bool.and_eq_true_iff.mp hl).2

/-- No invitation is both accepted and revoked, and a row that a transaction holds is live. -/
structure Inv (s : Store ι) : Prop where
  oneStamp : ∀ v ∈ s.invitations, ¬ (v.acceptedAt.isSome = true ∧ v.revokedAt.isSome = true)
  heldLive : ∀ v ∈ s.invitations, ∀ j, s.rows.holder v.id = some j → live v = true

variable [DecidableEq ι]

/-- What a statement of `i` does to the invitations, and to what the others hold. -/
structure Effect (i : ι) (w : Stmt) (s s' : Store ι) : Prop where
  others : ∀ j, j ≠ i → RowLocks.Same j s.rows s'.rows ∧ s'.begun j = s.begun j
  held : ∀ id, s'.rows.holder id = some i → w.commits = false ∧ (s.rows.holder id = some i ∨ s.isLive id = true)
  next_le : s.invitations.next ≤ s'.invitations.next
  kept : ∀ v ∈ s.invitations, s.rows.holder v.id ≠ some i → v ∈ s'.invitations
  rows : ∀ v' ∈ s'.invitations, v' ∈ s.invitations ∨
    (w.commits = true ∧ ∃ v ∈ s.invitations, s.rows.holder v.id = some i ∧ Stamped v v') ∨
    ∃ now draft, w = .commitInvitation now draft ∧ v' = draft.row s.invitations.next

variable {i : ι}

omit [DecidableEq ι] in
theorem Effect.quiet {w : Stmt} {s s' : Store ι} (hw : w.commits = false) (hinvitations : s'.invitations = s.invitations)
    (hothers : ∀ j, j ≠ i → RowLocks.Same j s.rows s'.rows ∧ s'.begun j = s.begun j)
    (hheld : ∀ id, s'.rows.holder id = some i → s.rows.holder id = some i ∨ s.isLive id = true) : Effect i w s s' where
  others := hothers
  held := fun id h => ⟨hw, hheld id h⟩
  next_le := by rw [hinvitations]
  kept := fun v hv _ => hinvitations ▸ hv
  rows := fun v hv => .inl (hinvitations ▸ hv)

theorem hold_some {s s' : Store ι} {id : Nat} {there : Bool} (h : s.hold i id there = some s') :
    s.rows.open? i id = true ∧ s' = { s with rows := s.rows.take i id there } := by
  unfold Store.hold at h
  split at h
  · rename_i hopen
    exact ⟨hopen, (Option.some.inj h).symm⟩
  · cases h

theorem reserve_some {s s' : Store ι} {k : UniqueKey} {taken : Bool} (h : s.reserve i k taken = some s') :
    ∃ keys, s' = { s with keys := keys } := by
  unfold Store.reserve at h
  split at h
  · exact ⟨s.keys, (Option.some.inj h).symm⟩
  · split at h
    · cases h
    · exact ⟨_, (Option.some.inj h).symm⟩

theorem take_held {l : RowLocks ι (Nat × String)} {id id' : Nat} {there : Bool}
    (h : (l.take i id there).holder id' = some i) : l.holder id' = some i ∨ id' = id ∧ there = true := by
  cases there with
  | false => exact .inl h
  | true =>
      by_cases hid : id' = id
      · exact .inr ⟨hid, rfl⟩
      · simp only [RowLocks.take, if_true, Function.update_of_ne hid] at h
        exact .inl h

theorem release_held {l : RowLocks ι (Nat × String)} (id : Nat) : (l.release i).holder id ≠ some i := by
  simp only [RowLocks.release]
  split
  · simp
  · assumption

theorem effect_hold {w : Stmt} {s s' : Store ι} {id : Nat} {there : Bool} (hw : w.commits = false)
    (hthere : there = true → s.isLive id = true) (h : s.hold i id there = some s') : Effect i w s s' := by
  obtain ⟨hopen, rfl⟩ := hold_some h
  refine .quiet hw rfl (fun j hj => ⟨RowLocks.same_take hj hopen there, rfl⟩) fun id' hheld => ?_
  refine (take_held hheld).imp_right ?_
  rintro ⟨rfl, hyes⟩
  exact hthere hyes

omit [DecidableEq ι] in
theorem effect_same {w : Stmt} {s s' : Store ι} (hw : w.commits = false) (hinvitations : s'.invitations = s.invitations)
    (hrows : s'.rows = s.rows) (hbegun : s'.begun = s.begun) : Effect i w s s' :=
  .quiet hw hinvitations (fun j _ => ⟨hrows ▸ RowLocks.Same.refl j s.rows, by rw [hbegun]⟩)
    fun id h => .inl (hrows ▸ h)

theorem mem_written {s : Store ι} {f : Invitation → Invitation} (hf : ∀ v, key (f v) = key v) {v' : Invitation} :
    v' ∈ s.written i f hf ↔ ∃ v ∈ s.invitations, v' = if s.rows.holder v.id = some i then f v else v := by
  rw [Store.written, Table.mem_updateMany]
  simp only [decide_eq_true_eq]

theorem written_held {s : Store ι} {f : Invitation → Invitation} (hf : ∀ v, key (f v) = key v) {v : Invitation}
    (hv : v ∈ s.invitations) (hheld : s.rows.holder v.id = some i) : f v ∈ s.written i f hf :=
  (mem_written hf).mpr ⟨v, hv, (if_pos hheld).symm⟩

/-- The end of a transaction that stamped the rows it held, and may have added one. -/
theorem effect_commit {w : Stmt} {s s' : Store ι} {f : Invitation → Invitation} (hf : ∀ v, key (f v) = key v)
    (hw : w.commits = true) (hrows : s'.rows = s.rows.release i) (hbegun : s'.begun = s.begun)
    (hstamped : ∀ v, Stamped v (f v)) (hle : s.invitations.next ≤ s'.invitations.next)
    (hkept : ∀ v ∈ s.written i f hf, v ∈ s'.invitations)
    (hback : ∀ v ∈ s'.invitations, v ∈ s.written i f hf ∨
      ∃ now draft, w = .commitInvitation now draft ∧ v = draft.row s.invitations.next) : Effect i w s s' where
  others := fun j hj => ⟨hrows ▸ RowLocks.same_release hj s.rows, by rw [hbegun]⟩
  held := fun id h => absurd (hrows ▸ h) (release_held id)
  next_le := hle
  kept := fun v hv hheld => hkept v ((mem_written hf).mpr ⟨v, hv, (if_neg hheld).symm⟩)
  rows := by
    intro v' hv'
    rcases hback v' hv' with hold | hnew
    · obtain ⟨v, hv, rfl⟩ := (mem_written hf).mp hold
      split
      · rename_i hheld
        exact .inr (.inl ⟨hw, v, hv, hheld, hstamped v⟩)
      · exact .inl hv
    · exact .inr (.inr hnew)

theorem sem_effect {w : Stmt} {s s' : Store ι} (h : sem i w s = some s') : Effect i w s s' := by
  cases w with
  | revokeLive orgId email =>
      cases h
      exact .quiet rfl rfl (fun j hj => ⟨RowLocks.same_start hj _ _ _, Function.update_of_ne hj _ _⟩) fun _ h => .inl h
  | revokeRow id => exact effect_hold rfl (fun hlive => hlive) h
  | revokeOne id orgId =>
      simp only [sem] at h
      split at h
      · rename_i hrevocable
        exact effect_hold rfl (fun _ => isLive_of_revocable hrevocable) h
      · cases h
        exact effect_same rfl rfl rfl rfl
  | claim id =>
      simp only [sem] at h
      split at h
      · rename_i hlive
        exact effect_hold rfl (fun _ => hlive) h
      · cases h
        exact effect_same rfl rfl rfl rfl
  | insertInvitation | insertUser =>
      obtain ⟨keys, rfl⟩ := reserve_some h
      exact effect_same rfl rfl rfl rfl
  | upsertMembership joiner orgId =>
      cases joiner with
      | existing userId =>
          obtain ⟨keys, rfl⟩ := reserve_some h
          exact effect_same rfl rfl rfl rfl
      | new email =>
          cases h
          exact effect_same rfl rfl rfl rfl
  | commitInvitation now draft =>
      cases h
      refine effect_commit (f := fun v => { v with revokedAt := some now }) (fun _ => rfl) rfl rfl rfl
        (fun v => ⟨now, .inr rfl⟩) (Nat.le_succ _) (fun v hv => ?_) fun v hv => ?_
      · exact (@Table.mem_insert Invitation _ _ draft.row (fun _ => rfl) v).mpr (.inl hv)
      · have hnew := (@Table.mem_insert Invitation _ _ draft.row (fun _ => rfl) v).mp hv
        exact hnew.imp_right fun hrow => ⟨now, draft, rfl, hrow⟩
  | commitRevoke now =>
      cases h
      exact effect_commit (f := fun v => { v with revokedAt := some now }) (fun _ => rfl) rfl rfl rfl
        (fun v => ⟨now, .inr rfl⟩) (Nat.le_refl _) (fun _ hv => hv) fun _ hv => .inl hv
  | commitAccept now joiner orgId role =>
      cases h
      exact effect_commit (f := fun v => { v with acceptedAt := some now }) (fun _ => rfl) rfl rfl rfl
        (fun v => ⟨now, .inl rfl⟩) (Nat.le_refl _) (fun _ hv => hv) fun _ hv => .inl hv
  | finish =>
      cases h
      exact .quiet rfl rfl (fun j hj => ⟨RowLocks.same_release hj s.rows, rfl⟩) fun id hheld =>
        absurd hheld (release_held id)
  | findMember | findInvitation | findUser =>
      cases h
      exact effect_same rfl rfl rfl rfl

/-- Only a commit writes. -/
theorem sem_tables {w : Stmt} (hw : w.commits = false) {s s' : Store ι} (h : sem i w s = some s') :
    s'.users = s.users ∧ s'.memberships = s.memberships ∧ s'.invitations = s.invitations := by
  have hhold : ∀ {id there}, s.hold i id there = some s' →
      s'.users = s.users ∧ s'.memberships = s.memberships ∧ s'.invitations = s.invitations := by
    intro id there h
    obtain ⟨-, rfl⟩ := hold_some h
    exact ⟨rfl, rfl, rfl⟩
  have hreserve : ∀ {k taken}, s.reserve i k taken = some s' →
      s'.users = s.users ∧ s'.memberships = s.memberships ∧ s'.invitations = s.invitations := by
    intro k taken h
    obtain ⟨keys, rfl⟩ := reserve_some h
    exact ⟨rfl, rfl, rfl⟩
  cases w with
  | commitInvitation | commitRevoke | commitAccept => cases hw
  | revokeRow id => exact hhold h
  | revokeOne id orgId =>
      simp only [sem] at h
      split at h
      · exact hhold h
      · cases h
        exact ⟨rfl, rfl, rfl⟩
  | claim id =>
      simp only [sem] at h
      split at h
      · exact hhold h
      · cases h
        exact ⟨rfl, rfl, rfl⟩
  | insertInvitation | insertUser => exact hreserve h
  | upsertMembership joiner orgId =>
      cases joiner with
      | existing userId => exact hreserve h
      | new email =>
          cases h
          exact ⟨rfl, rfl, rfl⟩
  | revokeLive | findMember | findInvitation | findUser | finish =>
      cases h
      exact ⟨rfl, rfl, rfl⟩

theorem inv_step {w : Stmt} {s s' : Store ι} (hs : Inv s) (h : sem i w s = some s') : Inv s' := by
  have heffect := sem_effect h
  constructor
  · intro v' hv'
    rcases heffect.rows v' hv' with hold | ⟨-, v, hv, hheld, hstamped⟩ | ⟨now, draft, -, rfl⟩
    · exact hs.oneStamp v' hold
    · obtain ⟨haccepted, hrevoked⟩ := live_iff.mp (hs.heldLive v hv i hheld)
      obtain ⟨now, rfl | rfl⟩ := hstamped
      · simp [hrevoked]
      · simp [haccepted]
    · simp [Draft.row]
  · intro v' hv' j hj
    have hbefore : j ≠ i → s.rows.holder v'.id = some j := fun hji => ((heffect.others j hji).1.2 v'.id).mp hj
    rcases heffect.rows v' hv' with hold | ⟨hcommits, v, hv, hheld, hstamped⟩ | ⟨now, draft, -, rfl⟩
    · by_cases hji : j = i
      · subst hji
        rcases (heffect.held _ hj).2 with hheld | hlive
        · exact hs.heldLive v' hold j hheld
        · obtain ⟨v, hv, hid, hlive⟩ := isLive_iff.mp hlive
          rwa [Table.eq_of_key hold hv hid.symm]
      · exact hs.heldLive v' hold j (hbefore hji)
    · by_cases hji : j = i
      · subst hji
        exact absurd ((heffect.held _ hj).1.symm.trans hcommits) nofun
      · have := hbefore hji
        rw [hstamped.id, hheld, Option.some.injEq] at this
        exact absurd this.symm hji
    · rfl

end Statements

/-! ## Promises -/

/-- The hash of the token the caller of `acceptInvitation` brings. -/
def Op.tokenHash (hashToken : String → String) (op : Op) : Option String :=
  match op.request with
  | .acceptInvitation token _ _ _ => some (hashToken token)
  | _ => none

def Draft.link (d : Draft) : Nat × String := (d.orgId, d.email)

section Promises
variable {ι : Type}

/-- The transaction has revoked the links of `g` that were there when its `UPDATE` started, but for those of `ids`. -/
structure Sweeping (i : ι) (g : Nat × String) (ids : List Nat) (s : Store ι) : Prop where
  begun_le : s.begun i ≤ s.invitations.next
  covered : ∀ v ∈ s.invitations, live v = true → link v = g → v.id < s.begun i → s.rows.holder v.id = some i ∨ v.id ∈ ids
  held_lt : ∀ id, s.rows.holder id = some i → id < s.begun i
  left_lt : ∀ id ∈ ids, id < s.begun i

variable (hashToken : String → String) (ops : ι → Op)

structure Guarantee (i : ι) (s : Store ι) (w : Stmt) (p : Call ι) : Prop where
  whole : w.commits = true → ∃ a, p = .ret a ∧ a.ok = true
  signedIn : ∀ now userId orgId role, w = .commitAccept now (.existing userId) orgId role →
    (ops i).signedInUserId = some userId
  accepted : ∀ a, p = .ret (.accepted (.ok a)) → ∃ v ∈ s.invitations, v.id = a.invitationId ∧ v.acceptedAt = none
  links : ∀ now draft, w = .commitInvitation now draft → Sweeping i draft.link [] s

/-- What a call may count on while others move. -/
structure Rely (i : ι) (s s' : Store ι) : Prop where
  same : RowLocks.Same i s.rows s'.rows
  begun : s'.begun i = s.begun i
  next_le : s.invitations.next ≤ s'.invitations.next
  kept : ∀ v ∈ s.invitations, s.rows.holder v.id = some i ∨ live v = false → v ∈ s'.invitations
  live : ∀ v ∈ s'.invitations, live v = true → v.id < s.invitations.next → v ∈ s.invitations

/-- The invitation the call accepted is there. -/
def Post (i : ι) (a : Outcome) (s : Store ι) : Prop :=
  ∀ r, a = .accepted (.ok r) → ∃ v ∈ s.invitations, v.id = r.invitationId ∧ v.acceptedAt.isSome = true ∧
    (ops i).tokenHash hashToken = some v.tokenHash

def accepting : Spec ι Stmt (Store ι) Outcome where
  inv := Inv
  rely := fun i _ => Rely i
  guar := fun i s w _ p => Guarantee ops i s w p
  post := Post hashToken ops

variable {hashToken ops} [DecidableEq ι]

theorem compatible {ok : System ι → ι → Prop} : (accepting hashToken ops).Compatible sem ok := by
  intro c i w k s' hs _ _ hsem _ j hji
  have heffect := sem_effect hsem
  obtain ⟨hsame, hbegun⟩ := heffect.others j hji
  refine ⟨hsame, hbegun, heffect.next_le, fun v hv hv' => heffect.kept v hv fun hi => ?_, fun v hv hlive hlt => ?_⟩
  · rcases hv' with hj | hdead
    · exact hji (Option.some.inj (hj.symm.trans hi))
    · rw [hs.heldLive v hv i hi] at hdead
      cases hdead
  · rcases heffect.rows v hv with hold | ⟨-, v₀, -, -, hstamped⟩ | ⟨now, draft, -, rfl⟩
    · exact hold
    · rw [hstamped.not_live] at hlive
      cases hlive
    · exact absurd hlt (Nat.lt_irrefl _)

variable {i : ι}

omit [DecidableEq ι] in
theorem stable_sweeping (w : Option Stmt) (g : Nat × String) (ids : List Nat) :
    (accepting hashToken ops).Stable i w (Sweeping i g ids) := by
  intro s s' _ _ hrely hs
  refine ⟨?_, fun v hv hlive hlink hlt => ?_, fun id hheld => ?_, fun id hid => ?_⟩
  · rw [hrely.begun]
    exact le_trans hs.begun_le hrely.next_le
  · rw [hrely.begun] at hlt
    have hold := hrely.live v hv hlive (lt_of_lt_of_le hlt hs.begun_le)
    rw [hrely.same.2 v.id]
    exact hs.covered v hold hlive hlink hlt
  · rw [hrely.begun]
    exact hs.held_lt id ((hrely.same.2 id).mp hheld)
  · rw [hrely.begun]
    exact hs.left_lt id hid

/-- The transaction has updated nothing yet. -/
def Idle (i : ι) (s : Store ι) : Prop := ∀ id, s.rows.holder id ≠ some i

omit [DecidableEq ι] in
theorem stable_idle (w : Option Stmt) : (accepting hashToken ops).Stable i w (Idle i) :=
  fun _ _ _ _ hrely hs id hheld => hs id ((hrely.same.2 id).mp hheld)

/-- While the invitation is live, it is the one the call read. -/
def Known (invitation : Invitation) (s : Store ι) : Prop :=
  invitation.id < s.invitations.next ∧ ∀ v ∈ s.invitations, live v = true → v.id = invitation.id → v = invitation

omit [DecidableEq ι] in
theorem stable_known (w : Option Stmt) (invitation : Invitation) :
    (accepting hashToken ops).Stable i w (Known invitation) := by
  intro s s' _ _ hrely hs
  refine ⟨lt_of_lt_of_le hs.1 hrely.next_le, fun v hv hlive hid => ?_⟩
  exact hs.2 v (hrely.live v hv hlive (hid ▸ hs.1)) hlive hid

/-- The transaction has claimed the invitation. -/
def Claimed (i : ι) (invitation : Invitation) (s : Store ι) : Prop :=
  invitation ∈ s.invitations ∧ s.rows.holder invitation.id = some i

omit [DecidableEq ι] in
theorem stable_claimed (w : Option Stmt) (invitation : Invitation) :
    (accepting hashToken ops).Stable i w (Claimed i invitation) :=
  fun _ _ _ _ hrely hs => ⟨hrely.kept _ hs.1 (.inl hs.2), (hrely.same.2 _).mpr hs.2⟩

omit [DecidableEq ι] in
theorem stable_post (w : Option Stmt) (a : Outcome) :
    (accepting hashToken ops).Stable i w (Post hashToken ops i a) := by
  intro s s' _ _ hrely hs r ha
  obtain ⟨v, hv, hid, haccepted, htoken⟩ := hs r ha
  refine ⟨v, hrely.kept v hv (.inr ?_), hid, haccepted, htoken⟩
  rw [live, Option.isNone_eq_false_iff.mpr haccepted, Bool.false_and]

end Promises

/-! ## The calls -/

section Calls
variable {ι : Type} {hashToken toLowerCase : String → String} {ops : ι → Op} {i : ι}

theorem mem_liveIds {s : Store ι} {orgId : Nat} {email : String} {id : Nat} :
    id ∈ s.liveIds orgId email ↔ ∃ v ∈ s.invitations, v.id = id ∧ live v = true ∧ link v = (orgId, email) := by
  simp only [Store.liveIds, List.mem_map, List.mem_filter, Bool.and_eq_true, beq_iff_eq, Table.mem_def]
  constructor
  · rintro ⟨v, ⟨hv, hlive, hlink⟩, hid⟩
    exact ⟨v, hv, hid, hlive, hlink⟩
  · rintro ⟨v, hv, hid, hlive, hlink⟩
    exact ⟨v, ⟨hv, hlive, hlink⟩, hid⟩

/-- The call accepted an invitation. -/
def Outcome.accepts : Outcome → Bool
  | .accepted (.ok _) => true
  | _ => false

theorem post_of_not {a : Outcome} (ha : a.accepts = false) (s : Store ι) : Post hashToken ops i a s := by
  rintro r rfl
  cases ha

variable [DecidableEq ι]

/-- The `UPDATE` starts with the links that are live. -/
theorem Sweeping.start {s : Store ι} (hs : Idle i s) (orgId : Nat) (email : String) {s' : Store ι}
    (h : sem i (.revokeLive orgId email) s = some s') : Sweeping i (orgId, email) (s.liveIds orgId email) s' := by
  cases h
  have hbegun : Function.update s.begun i s.invitations.next i = s.invitations.next := Function.update_self _ _ _
  refine ⟨le_of_eq hbegun, fun v hv hlive hlink _ => ?_, fun id hheld => absurd hheld (hs id), fun id hid => ?_⟩
  · exact .inr (mem_liveIds.mpr ⟨v, hv, rfl, hlive, hlink⟩)
  · obtain ⟨v, hv, rfl, -⟩ := mem_liveIds.mp hid
    exact lt_of_lt_of_eq (s.invitations.lt_next v hv) hbegun.symm

/-- The turn of a row: it is revoked, unless it no longer is live. -/
theorem Sweeping.turn {s s' : Store ι} {g : Nat × String} {id : Nat} {ids : List Nat} (hs : Sweeping i g (id :: ids) s)
    (h : sem i (.revokeRow id) s = some s') : Sweeping i g ids s' := by
  obtain ⟨-, rfl⟩ := hold_some h
  refine ⟨hs.begun_le, fun v hv hlive hlink hlt => ?_, fun id' hheld => ?_, fun id' hid' => ?_⟩
  · by_cases hid : v.id = id
    · have hthere : s.isLive id = true := isLive_iff.mpr ⟨v, hv, hid, hlive⟩
      simp only [RowLocks.take, hthere, if_true]
      exact .inl (by rw [hid, Function.update_self])
    · refine (hs.covered v hv hlive hlink hlt).imp (fun hheld => ?_) fun hmem => ?_
      · simp only [RowLocks.take]
        split
        · rwa [Function.update_of_ne hid]
        · exact hheld
      · exact (List.mem_cons.mp hmem).resolve_left hid
  · rcases take_held hheld with hold | ⟨rfl, -⟩
    · exact hs.held_lt id' hold
    · exact hs.left_lt id' List.mem_cons_self
  · exact hs.left_lt id' (List.mem_cons_of_mem _ hid')

variable (hashToken ops i) in
/-- What is left of the call keeps its promises from this store on. -/
def Goes (p : Call ι) (s : Store ι) : Prop :=
  ∃ P, (accepting hashToken ops).Stable i p.next? P ∧ P s ∧ (accepting hashToken ops).Sat sem i p P

theorem goes_ret {a : Outcome} {s : Store ι} (h : Post hashToken ops i a s) : Goes hashToken ops i (.ret a) s :=
  ⟨Post hashToken ops i a, stable_post _ a, h, fun _ _ h => h⟩

theorem goes_stmt {w : Stmt} {k : Store ι → Call ι} {P : Store ι → Prop}
    (hP : ∀ w, (accepting hashToken ops).Stable i w P)
    (hk : ∀ s s', Inv s → P s → sem i w s = some s' → Guarantee ops i s w (k s) ∧ Goes hashToken ops i (k s) s')
    {s : Store ι} (hs : P s) : Goes hashToken ops i (.stmt w k) s := by
  refine ⟨P, hP _, hs, fun s s' hinv hs hsem => ?_⟩
  obtain ⟨hguar, hgoes⟩ := hk s s' hinv hs hsem
  exact ⟨inv_step hinv hsem, hguar, hgoes⟩

omit [DecidableEq ι] in
theorem Guarantee.quiet {w : Stmt} {p : Call ι} {s : Store ι} (hw : w.commits = false)
    (hp : ∀ a, p = .ret a → a.accepts = false) : Guarantee ops i s w p where
  whole := fun h => absurd (hw.symm.trans h) nofun
  signedIn := by
    rintro now userId orgId role rfl
    cases hw
  accepted := fun a h => absurd (hp _ h) nofun
  links := by
    rintro now draft rfl
    cases hw

/-- A statement that is not the end of a transaction that wrote. -/
theorem goes_quiet {w : Stmt} {k : Store ι → Call ι} {P : Store ι → Prop}
    (hP : ∀ w, (accepting hashToken ops).Stable i w P) (hw : w.commits = false)
    (hret : ∀ s a, k s = .ret a → a.accepts = false)
    (hk : ∀ s s', P s → sem i w s = some s' → Goes hashToken ops i (k s) s') {s : Store ι} (hs : P s) :
    Goes hashToken ops i (.stmt w k) s :=
  goes_stmt hP (fun s s' _ hs hsem => ⟨.quiet hw (hret s), hk s s' hs hsem⟩) hs

omit [DecidableEq ι] in
theorem stable_true (w : Option Stmt) : (accepting hashToken ops).Stable i w fun _ => True := Spec.Stable.true i w

theorem goes_finish {a : Outcome} (ha : a.accepts = false) (s : Store ι) : Goes hashToken ops i (finish a) s :=
  goes_quiet stable_true rfl (fun _ _ h => Prog.ret.inj h ▸ ha) (fun _ s' _ _ => goes_ret (post_of_not ha s')) trivial

omit [DecidableEq ι] in
theorem revokeRows_ne_ret {k : Call ι} (hk : ∀ a, k ≠ .ret a) (ids : List Nat) (a : Outcome) : revokeRows k ids ≠ .ret a := by
  cases ids with
  | nil => exact hk a
  | cons id ids => exact nofun

theorem goes_revokeRows {k : Call ι} {g : Nat × String} (hret : ∀ a, k ≠ .ret a)
    (hk : ∀ s, Sweeping i g [] s → Goes hashToken ops i k s) {ids : List Nat} {s : Store ι} (hs : Sweeping i g ids s) :
    Goes hashToken ops i (revokeRows k ids) s := by
  induction ids generalizing s with
  | nil => exact hk s hs
  | cons id ids ih =>
      exact goes_quiet (fun w => stable_sweeping w g _) rfl (fun _ a h => absurd h (revokeRows_ne_ret hret ids a))
        (fun s s' hs hsem => ih (hs.turn hsem)) hs

theorem goes_replaceLink (actor : Actor) (email : String) (role : Role) (token : String) (now : Int) {s : Store ι}
    (hs : Idle i s) : Goes hashToken ops i (replaceLink hashToken actor email role token now) s := by
  refine goes_quiet stable_idle rfl (fun s a => ?_) (fun s s' hs hsem => ?_) hs
  · split <;> nofun
  cases hsem
  split
  · exact goes_finish rfl s
  refine goes_quiet stable_idle rfl (fun s a => ?_) (fun s s' hs hsem => ?_) hs
  · exact fun h => absurd h (revokeRows_ne_ret (fun _ => Prog.stmt_ne_ret) _ a)
  refine goes_revokeRows (fun _ => Prog.stmt_ne_ret) (fun s hs => ?_) (Sweeping.start hs _ _ hsem)
  refine goes_quiet (fun w => stable_sweeping w _ _) rfl (fun s a => ?_) (fun s s' hs hsem => ?_) hs
  · split <;> nofun
  obtain ⟨keys, rfl⟩ := reserve_some hsem
  split
  · exact goes_finish rfl _
  have hs' : Sweeping i (actor.orgId, email) [] { s with keys := keys } :=
    ⟨hs.begun_le, hs.covered, hs.held_lt, hs.left_lt⟩
  refine goes_stmt (fun w => stable_sweeping w _ _) (fun s s' _ hs _ => ⟨?_, goes_ret (post_of_not rfl s')⟩) hs'
  refine ⟨fun _ => ⟨_, rfl, rfl⟩, nofun, nofun, fun now' draft hw => ?_⟩
  cases hw
  exact hs

theorem goes_createInvitation (actor : Actor) (input : String) (role : Role) (token : String) (now : Int) {s : Store ι}
    (hs : Idle i s) : Goes hashToken ops i (createInvitation hashToken toLowerCase actor input role token now) s := by
  unfold createInvitation
  dsimp only
  split
  · exact goes_ret (post_of_not rfl s)
  split
  · exact goes_ret (post_of_not rfl s)
  split
  · exact goes_ret (post_of_not rfl s)
  exact goes_replaceLink actor _ role token now hs

theorem goes_revokeInvitation (actor : Actor) (invitationId : Nat) (now : Int) (s : Store ι) :
    Goes hashToken ops i (revokeInvitation actor invitationId now) s := by
  unfold revokeInvitation
  split
  · exact goes_ret (post_of_not rfl s)
  refine goes_quiet stable_true rfl (fun s a => ?_) (fun s s' _ _ => ?_) trivial
  · split <;> nofun
  split
  · refine goes_stmt stable_true (fun s s' _ _ _ => ⟨?_, goes_ret (post_of_not rfl s')⟩) trivial
    exact ⟨fun _ => ⟨_, rfl, rfl⟩, nofun, nofun, nofun⟩
  · exact goes_finish rfl s'

theorem goes_abort (error : AcceptError) (s : Store ι) : Goes hashToken ops i (abort error) s := goes_finish rfl s

theorem goes_createUser {input password : String} {fail : CreateUserError → Call ι} {k : String → Call ι}
    {P : Store ι → Prop} (hP : ∀ w, (accepting hashToken ops).Stable i w P)
    (hkeys : ∀ s keys, P s → P { s with keys := keys })
    (hfail : ∀ error s, Goes hashToken ops i (fail error) s) (hfail' : ∀ error a, fail error ≠ .ret a)
    (hk : ∀ email s, P s → Goes hashToken ops i (k email) s) (hk' : ∀ email a, k email ≠ .ret a) {s : Store ι} (hs : P s) :
    Goes hashToken ops i (createUser toLowerCase input password fail k) s := by
  unfold createUser
  dsimp only
  split
  · exact hfail _ s
  split
  · exact hfail _ s
  refine goes_quiet hP rfl (fun s a => ?_) (fun s s' hs hsem => ?_) hs
  · split
    · exact fun h => absurd h (hfail' _ _)
    · nofun
  cases hsem
  split
  · exact hfail _ s
  refine goes_quiet hP rfl (fun s a => ?_) (fun s s' hs hsem => ?_) hs
  · split
    · exact fun h => absurd h (hfail' _ _)
    · exact fun h => absurd h (hk' _ _)
  obtain ⟨keys, rfl⟩ := reserve_some hsem
  split
  · exact hfail _ _
  · exact hk _ _ (hkeys s keys hs)

theorem goes_joinOrganization {invitation : Invitation} (now : Int) {joiner : Joiner}
    (hsignedIn : ∀ userId, joiner = .existing userId → (ops i).signedInUserId = some userId)
    (htoken : (ops i).tokenHash hashToken = some invitation.tokenHash) {s : Store ι} (hs : Claimed i invitation s) :
    Goes hashToken ops i (joinOrganization invitation now joiner) s := by
  refine goes_quiet (fun w => stable_claimed w _) rfl (fun _ _ h => absurd h Prog.stmt_ne_ret) (fun s s' hs hsem => ?_) hs
  have hs' : Claimed i invitation s' := by
    cases joiner with
    | existing userId =>
        obtain ⟨keys, rfl⟩ := reserve_some hsem
        exact hs
    | new email =>
        cases hsem
        exact hs
  refine goes_stmt (fun w => stable_claimed w _) (fun s s' hinv hs hsem => ⟨?_, goes_ret fun r hr => ?_⟩) hs'
  · refine ⟨fun _ => ⟨_, rfl, rfl⟩, fun now userId orgId role hw => ?_, fun a ha => ?_, nofun⟩
    · cases hw
      exact hsignedIn userId rfl
    · cases ha
      exact ⟨invitation, hs.1, rfl, (live_iff.mp (hinv.heldLive _ hs.1 i hs.2)).1⟩
  · cases hsem
    cases hr
    refine ⟨{ invitation with acceptedAt := some now }, ?_, rfl, rfl, htoken⟩
    exact written_held (f := fun v => { v with acceptedAt := some now }) (fun _ => rfl) hs.1 hs.2

/-- The claim finds the invitation as the call read it, or not live. -/
theorem Known.claim {invitation : Invitation} {s s' : Store ι} (hs : Known invitation s)
    (hlive : s.isLive invitation.id = true) (h : sem i (.claim invitation.id) s = some s') : Claimed i invitation s' := by
  simp only [sem, hlive, if_true] at h
  obtain ⟨-, rfl⟩ := hold_some h
  obtain ⟨v, hv, hid, hvlive⟩ := isLive_iff.mp hlive
  refine ⟨hs.2 v hv hvlive hid ▸ hv, ?_⟩
  simp only [RowLocks.take, if_true, Function.update_self]

theorem goes_acceptTransaction {invitation : Invitation} (now : Int) {joiner : Nat ⊕ String}
    (hsignedIn : ∀ userId, joiner = .inl userId → (ops i).signedInUserId = some userId)
    (htoken : (ops i).tokenHash hashToken = some invitation.tokenHash) {s : Store ι} (hs : Known invitation s) :
    Goes hashToken ops i (acceptTransaction toLowerCase invitation now joiner) s := by
  have hcreate : ∀ (password : String) (a : Outcome), createUser (ι := ι) toLowerCase invitation.email password
      (fun error => abort (.createUser error)) (fun email => joinOrganization invitation now (.new email)) ≠ .ret a := by
    intro password a
    unfold createUser
    dsimp only
    split
    · nofun
    split <;> nofun
  refine goes_quiet (fun w => stable_known w _) rfl (fun s a => ?_) (fun s s' hs hsem => ?_) hs
  · split
    · nofun
    split
    · nofun
    · exact fun h => absurd h (hcreate _ a)
  split
  · exact goes_abort _ s'
  rename_i hlive
  have hs' : Claimed i invitation s' := hs.claim (by simpa using hlive) hsem
  split
  · rename_i userId
    exact goes_joinOrganization now (fun userId' h => by cases h; exact hsignedIn userId rfl) htoken hs'
  · exact goes_createUser (fun w => stable_claimed w _) (fun s keys hs => hs) (fun error s => goes_abort _ s)
      (fun _ _ => Prog.stmt_ne_ret)
      (fun email s hs => goes_joinOrganization now (fun _ h => by cases h) htoken hs)
      (fun _ _ => Prog.stmt_ne_ret) hs'

theorem goes_acceptInvitation {token : String} {now : Int} {signedInUserId : Option Nat} {newAccount : Option String}
    (hop : (ops i).request = .acceptInvitation token now signedInUserId newAccount) (s : Store ι) :
    Goes hashToken ops i (acceptInvitation hashToken toLowerCase token now signedInUserId newAccount) s := by
  unfold acceptInvitation
  split
  · exact goes_ret (post_of_not rfl s)
  refine goes_quiet stable_true rfl (fun s a => ?_) (fun s s' _ hsem => ?_) trivial
  · split
    · exact fun h => Prog.ret.inj h ▸ rfl
    split
    · exact fun h => Prog.ret.inj h ▸ rfl
    · nofun
  cases hsem
  split
  · exact goes_ret (post_of_not rfl s)
  rename_i invitation hfind
  split
  · exact goes_ret (post_of_not rfl s)
  obtain ⟨hmem, hhash⟩ := Table.find?_mem hfind
  have htoken : (ops i).tokenHash hashToken = some invitation.tokenHash := by
    rw [Op.tokenHash, hop]
    exact congrArg some (beq_iff_eq.mp hhash).symm
  have hknown : Known invitation s :=
    ⟨s.invitations.lt_next _ hmem, fun v hv _ hid => Table.eq_of_key hv hmem hid⟩
  refine goes_quiet (fun w => stable_known w _) rfl (fun s a => ?_) (fun s s' hs hsem => ?_) hknown
  · split
    · split
      · exact fun h => Prog.ret.inj h ▸ rfl
      split
      · exact fun h => Prog.ret.inj h ▸ rfl
      split
      · exact fun h => Prog.ret.inj h ▸ rfl
      · nofun
    · split
      · exact fun h => Prog.ret.inj h ▸ rfl
      · nofun
  cases hsem
  split
  · split
    · exact goes_ret (post_of_not rfl s)
    split
    · exact goes_ret (post_of_not rfl s)
    split
    · exact goes_ret (post_of_not rfl s)
    rename_i existing _ _ _ userId hsame
    refine goes_acceptTransaction now (fun userId' h => ?_) htoken hs
    cases h
    rw [Op.signedInUserId, hop]
    exact congrArg some (not_not.mp hsame)
  · split
    · exact goes_ret (post_of_not rfl s)
    · exact goes_acceptTransaction now (fun _ h => by cases h) htoken hs

theorem goes_failAt {p : Call ι} {s : Store ι} (h : Goes hashToken ops i p s) (n : Nat) :
    Goes hashToken ops i (p.failAt .finish .thrown n) s := by
  have hrely : ∀ w w' s s', (accepting hashToken ops).rely i w s s' → (accepting hashToken ops).rely i w' s s' :=
    fun _ _ _ _ h => h
  have hguar : ∀ s w s' (p : Call ι) n, (accepting hashToken ops).guar i s w s' p →
      (accepting hashToken ops).guar i s w s' (p.failAt .finish .thrown n) := by
    intro s w s' p n hg
    refine ⟨fun hw => ?_, hg.signedIn, fun a ha => hg.accepted a (Prog.failAt_eq_ret.mp ha), hg.links⟩
    obtain ⟨a, ha, hok⟩ := hg.whole hw
    exact ⟨a, Prog.failAt_eq_ret.mpr ha, hok⟩
  have hundo : (accepting hashToken ops).Sat sem i (.stmt .finish fun _ => .ret .thrown) fun _ => True := by
    intro s s' hinv _ hsem
    refine ⟨inv_step hinv hsem, .quiet rfl fun a ha => Prog.ret.inj ha ▸ rfl, ?_⟩
    exact goes_ret (post_of_not rfl s')
  obtain ⟨P, hP, hs, hsat⟩ := h
  exact ⟨P, hP.of_rely hrely, hs, Spec.Sat.failAt hrely hguar hundo hsat n⟩

theorem op_goes (i : ι) {s : Store ι} (hs : Idle i s) : Goes hashToken ops i ((ops i).call hashToken toLowerCase) s := by
  have hrequest : Goes hashToken ops i ((ops i).request.call hashToken toLowerCase) s := by
    cases hop : (ops i).request with
    | createInvitation actor email role token now => exact goes_createInvitation actor email role token now hs
    | revokeInvitation actor invitationId now => exact goes_revokeInvitation actor invitationId now s
    | acceptInvitation token now signedInUserId newAccount => exact goes_acceptInvitation hop s
  unfold Op.call
  split
  · exact hrequest
  · exact goes_failAt hrequest _

end Calls

/-! ## Single use, all or nothing -/

section Laws
variable {ι : Type} (hashToken toLowerCase : String → String) (ops : ι → Op)

structure Laws (c : System ι) : Prop where
  /-- No invitation is both accepted and revoked. -/
  oneStamp : ∀ v ∈ c.store.invitations, ¬ (v.acceptedAt.isSome = true ∧ v.revokedAt.isSome = true)
  /-- The invitation of a successful call is accepted, and the one its token opens. -/
  accepted : ∀ i r, c.calls i = .ret (.accepted (.ok r)) → ∃ v ∈ c.store.invitations, v.id = r.invitationId ∧
    v.acceptedAt.isSome = true ∧ (ops i).tokenHash hashToken = some v.tokenHash
  /-- Of the calls that accept an invitation, one succeeds. -/
  once : ∀ i j r r', c.calls i = .ret (.accepted (.ok r)) → c.calls j = .ret (.accepted (.ok r')) →
    r.invitationId = r'.invitationId → i = j

/-- What a statement of call `i` may write. -/
structure StepLaws (i : ι) (c c' : System ι) : Prop where
  /-- Nothing, unless the call returns ok with it. -/
  whole : (c'.store.users = c.store.users ∧ c'.store.memberships = c.store.memberships ∧
    c'.store.invitations = c.store.invitations) ∨ ∃ a, c'.calls i = .ret a ∧ a.ok = true
  /-- No membership of an account that was there, unless its owner is signed in. -/
  signedIn : ∀ m ∈ c'.store.memberships, m ∉ c.store.memberships → ∀ u ∈ c.store.users, u.id = m.userId →
    (ops i).signedInUserId = some u.id
  /-- No membership that was there, -/
  kept : ∀ m ∈ c.store.memberships, m ∈ c'.store.memberships
  /-- so that a member keeps its role. -/
  role : ∀ userId orgId role, c.store.role? userId orgId = some role → c'.store.role? userId orgId = some role

variable {hashToken toLowerCase ops} [DecidableEq ι]

theorem start_good {users : Table User} {memberships : Table Membership} {invitations : Table Invitation}
    (h : ∀ v ∈ invitations, ¬ (v.acceptedAt.isSome = true ∧ v.revokedAt.isSome = true)) :
    (accepting hashToken ops).Good sem (start hashToken toLowerCase ops users memberships invitations) := by
  refine ⟨⟨h, fun v _ j hj => ?_⟩, fun i => op_goes i fun id hheld => ?_⟩
  · cases hj
  · cases hheld

/-- Memberships are only added, by the end of an acceptance. -/
theorem sem_memberships {i : ι} {w : Stmt} {s s' : Store ι} (h : sem i w s = some s') :
    ∃ added, s'.memberships.rows = s.memberships.rows ++ added ∧ ∀ m ∈ added,
      ∃ now joiner orgId role, w = .commitAccept now joiner orgId role ∧ m.userId = (joiner.join s.users).2 := by
  cases hw : w.commits with
  | false =>
      refine ⟨[], ?_, nofun⟩
      rw [(sem_tables hw h).2.1, List.append_nil]
  | true =>
      cases w with
      | commitInvitation | commitRevoke =>
          cases h
          exact ⟨[], (List.append_nil _).symm, nofun⟩
      | commitAccept now joiner orgId role =>
          cases h
          cases role with
          | none => exact ⟨[], (List.append_nil _).symm, nofun⟩
          | some role =>
              refine ⟨[⟨s.memberships.next, (joiner.join s.users).2, orgId, role⟩], rfl, fun m hm => ?_⟩
              rw [List.mem_singleton.mp hm]
              exact ⟨now, joiner, orgId, some role, rfl, rfl⟩
      | _ => cases hw

theorem step_laws {c c' : System ι} {i : ι} (hgood : (accepting hashToken ops).Good sem c)
    (hstep : c.step sem i = some c') : StepLaws ops i c c' := by
  obtain ⟨-, w, k, hw, hsem, hcalls, hguar⟩ := hgood.guar hstep
  obtain ⟨added, hrows, hadded⟩ := sem_memberships hsem
  refine ⟨?_, fun m hm hnew u hu huid => ?_, fun m hm => ?_, fun userId orgId role hrole => ?_⟩
  · cases hcommits : w.commits with
    | false => exact .inl (sem_tables hcommits hsem)
    | true =>
        obtain ⟨a, ha, hok⟩ := hguar.whole hcommits
        refine .inr ⟨a, ?_, hok⟩
        rw [hcalls, Function.update_self]
        exact ha
  · rw [Table.mem_def, hrows, List.mem_append] at hm
    obtain ⟨now, joiner, orgId, role, rfl, hjoined⟩ := hadded m (hm.resolve_left hnew)
    cases joiner with
    | existing userId =>
        rw [huid, hjoined]
        exact hguar.signedIn now userId orgId role rfl
    | new email =>
        -- the new account has an id that no account had
        exact absurd (huid.trans hjoined) (Nat.ne_of_lt (c.store.users.lt_next u hu))
  · rw [Table.mem_def, hrows]
    exact List.mem_append_left _ hm
  · unfold Store.role? Table.find? at hrole ⊢
    obtain ⟨m, hm, hmrole⟩ := Option.map_eq_some_iff.mp hrole
    rw [hrows, List.find?_append, hm, Option.some_or, Option.map_some, hmrole]

omit [DecidableEq ι] in
/-- A call that returns without a statement accepts nothing. -/
theorem call_ret {op : Op} {a : Outcome} (h : op.call (ι := ι) hashToken toLowerCase = .ret a) : a.accepts = false := by
  have hrequest : op.request.call (ι := ι) hashToken toLowerCase = .ret a := by
    unfold Op.call at h
    split at h
    · exact h
    · exact Prog.failAt_eq_ret.mp h
  have hret : ∀ {b : Outcome}, b.accepts = false → (Prog.ret b : Call ι) = .ret a → a.accepts = false :=
    fun hb h => Prog.ret.inj h ▸ hb
  cases hop : op.request with
  | createInvitation actor email role token now =>
      rw [hop] at hrequest
      simp only [Request.call, createInvitation] at hrequest
      split at hrequest
      · exact hret rfl hrequest
      split at hrequest
      · exact hret rfl hrequest
      split at hrequest
      · exact hret rfl hrequest
      · cases hrequest
  | revokeInvitation actor invitationId now =>
      rw [hop] at hrequest
      simp only [Request.call, revokeInvitation] at hrequest
      split at hrequest
      · exact hret rfl hrequest
      · cases hrequest
  | acceptInvitation token now signedInUserId newAccount =>
      rw [hop] at hrequest
      simp only [Request.call, acceptInvitation] at hrequest
      split at hrequest
      · exact hret rfl hrequest
      · cases hrequest

theorem once_of_reach {users : Table User} {memberships : Table Membership} {invitations : Table Invitation}
    (h : ∀ v ∈ invitations, ¬ (v.acceptedAt.isSome = true ∧ v.revokedAt.isSome = true)) {c : System ι}
    (hr : Reach sem anyStep (start hashToken toLowerCase ops users memberships invitations) c) {i j : ι} {r r' : Accepted}
    (hi : c.calls i = .ret (.accepted (.ok r))) (hj : c.calls j = .ret (.accepted (.ok r')))
    (hid : r.invitationId = r'.invitationId) : i = j := by
  refine Spec.Good.single_use (S := accepting hashToken ops)
    (fun id (s : Store ι) => ∃ v ∈ s.invitations, v.id = id ∧ v.acceptedAt = none)
    (fun a id => ∃ r, a = .accepted (.ok r) ∧ r.invitationId = id) compatible ?_ ?_ (start_good h) ?_ hr hi hj
    ⟨r, rfl, rfl⟩ ⟨r', rfl, hid.symm⟩
  · rintro i a s id hpost ⟨r, rfl, rfl⟩ ⟨v, hv, hvid, hnone⟩
    obtain ⟨v', hv', hvid', haccepted, -⟩ := hpost r rfl
    rw [Table.eq_of_key hv' hv (hvid'.trans hvid.symm), hnone] at haccepted
    cases haccepted
  · rintro i s w s' a id hguar ⟨r, rfl, rfl⟩
    exact hguar.accepted r rfl
  · rintro i a id hcall ⟨r, rfl, -⟩
    cases call_ret hcall

theorem accept_laws (hashToken toLowerCase : String → String) (ops : ι → Op) (users : Table User)
    (memberships : Table Membership) (invitations : Table Invitation)
    (h : ∀ v ∈ invitations, ¬ (v.acceptedAt.isSome = true ∧ v.revokedAt.isSome = true)) {c : System ι}
    (hr : Reach sem anyStep (start hashToken toLowerCase ops users memberships invitations) c) :
    Laws hashToken ops c ∧ ∀ i c', c.step sem i = some c' → StepLaws ops i c c' := by
  have hgood : (accepting hashToken ops).Good sem c := (start_good h).reach compatible hr
  refine ⟨⟨hgood.1.oneStamp, fun i r hi => hgood.post hi r rfl, fun i j r r' hi hj => once_of_reach h hr hi hj⟩, ?_⟩
  exact fun i c' hstep => step_laws hgood hstep

/-- The account of the owner of organization 0. -/
def owner : Table User := Table.empty.insert (fun id => ⟨id, "owner@example.org", none⟩) fun _ => rfl

def ownership : Table Membership := Table.empty.insert (fun id => ⟨id, 0, 0, .owner⟩) fun _ => rfl

/-- An invitation, and two calls that accept it. -/
def invitedTwice : Fin 3 → Op
  | 0 => ⟨.createInvitation ⟨0, 0, .owner⟩ "ops@example.org" .operator "token" 1000, none⟩
  | _ => ⟨.acceptInvitation "token" 2000 none (some "correct horse staple"), none⟩

/-- The second acceptance waits for the first one, and finds the invitation accepted. -/
theorem accept_laws_invitedTwice : ∃ c, Reach sem anyStep (start id id invitedTwice owner ownership .empty) c ∧
    c.store.memberships.rows = [⟨0, 0, 0, .owner⟩, ⟨1, 1, 0, .operator⟩] ∧ Laws id invitedTwice c ∧
      ∀ i c', c.step sem i = some c' → StepLaws invitedTwice i c c' := by
  have hrun : ((start id id invitedTwice owner ownership .empty).run sem
      [0, 0, 0, 0, 1, 2, 1, 2, 1, 1, 1, 1, 1, 2, 2]).any (fun c =>
        c.store.memberships.rows = [⟨0, 0, 0, .owner⟩, ⟨1, 1, 0, .operator⟩]) = true := by decide +kernel
  obtain ⟨c, hc, hmemberships⟩ := (Option.any_eq_true _ _).mp hrun
  have hreach := Reach.of_run hc
  exact ⟨c, hreach, of_decide_eq_true hmemberships,
    accept_laws id id invitedTwice owner ownership .empty (fun v hv => absurd hv (Table.not_mem_empty v)) hreach⟩

end Laws

end IkelyaneMonitor.Auth.Invitations
