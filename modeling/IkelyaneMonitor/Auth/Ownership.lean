import IkelyaneMonitor.Interleave.RelyGuarantee
import IkelyaneMonitor.Auth.Members

/-!
# An organization keeps an owner

Before a membership is changed or removed, the rows of its organization are locked with `SELECT ... FOR UPDATE`, and the
owners are counted under these locks. Rows that appear later are not locked. But a call that goes on to write found its
target, and the target was there when the statement started: so the call holds a row, and two calls that both hold one do
not overlap.

* `Owned` : every organization has an owner; `Safe` : with it, what holds of the locks;
* `Leaves` : what one move leaves to another call; `ownership` : what the calls promise each other;
* `unguessed` : an id is not asked about before it is drawn;
* `owned_of_reach` : every run keeps `Owned`.
-/

namespace IkelyaneMonitor.Auth.Members
open Interleave

def Owned (s : Store) : Prop := ∀ o ∈ s.organizations, ∃ m ∈ s.memberships, m.orgId = o.id ∧ m.role = .owner

/-- The row is there and belongs to the organization. -/
def Store.InOrg (s : Store) (orgId id : Nat) : Prop := ∃ m ∈ s.memberships, m.id = id ∧ m.orgId = orgId

structure Safe (s : Store) : Prop where
  owned : Owned s
  coherent : s.locks.Coherent s.InOrg
  below : s.locks.Below s.memberships.next

/-- The call has been through the rows of the organization and holds one. -/
structure Critical (s : Store) (i orgId : Nat) : Prop where
  through : s.locks.pending i = some (orgId, [])
  holds : ∃ m ∈ s.memberships, m.orgId = orgId ∧ s.locks.holder m.id = some i

/-- What a move of another leaves to call `j`. -/
structure Leaves (j : Nat) (s s' : Store) : Prop where
  aborted : s.aborted ⊆ s'.aborted
  next_le : s.memberships.next ≤ s'.memberships.next
  old : ∀ m' ∈ s'.memberships, m'.id < s.memberships.next → ∃ m ∈ s.memberships, m.id = m'.id ∧ m.orgId = m'.orgId
  locks : j ∉ s'.aborted → s.locks.Same j s'.locks
  rows : j ∉ s'.aborted → ∀ orgId, Critical s j orgId → ∀ m ∈ s.memberships, m.orgId = orgId → m ∈ s'.memberships

/-- The statement draws the id of a new membership. -/
def Stmt.draws : Stmt → Bool
  | .createOrganization .. | .accept .. => true
  | _ => false

/-- Ids cannot be known before they are drawn: when the step draws one, no transaction in progress was asked about it. -/
def unguessed (ops : Nat → Op) (c : System) (i : Nat) : Prop :=
  ∀ w, (c.calls i).next? = some w → w.draws = true →
    ∀ j, (c.store.locks.pending j).isSome = true → (ops j).membershipId? ≠ some c.store.memberships.next

/-! ## Statements -/

theorem Critical.exclusive {s : Store} (h : Safe s) {i j orgId : Nat} (hi : Critical s i orgId) (hj : Critical s j orgId) :
    i = j := by
  obtain ⟨m, hm, horg, hheld⟩ := hi.holds
  obtain ⟨m', hm', horg', hheld'⟩ := hj.holds
  exact h.coherent.exclusive hi.through hj.through ⟨m, hm, rfl, horg⟩ hheld ⟨m', hm', rfl, horg'⟩ hheld'

theorem Leaves.refl (j : Nat) (s : Store) : Leaves j s s where
  aborted := List.Subset.refl _
  next_le := Nat.le_refl _
  old := fun m hm _ => ⟨m, hm, rfl, rfl⟩
  locks := fun _ => .refl j _
  rows := fun _ _ _ _ hm _ => hm

/-- Only the locks of the mover change. -/
theorem Leaves.of_locks {i : Nat} {s : Store} {locks : RowLocks Nat Nat} (h : ∀ j, j ≠ i → s.locks.Same j locks) :
    ∀ j, j ≠ i → Leaves j s { s with locks := locks } := by
  intro j hj
  refine { Leaves.refl j s with locks := fun _ => h j hj }

theorem mem_idsOf {s : Store} {orgId id : Nat} : id ∈ s.idsOf orgId ↔ s.InOrg orgId id := by
  simp only [Store.idsOf, Store.InOrg, List.mem_map, List.mem_filter, beq_iff_eq, Table.mem_def]
  constructor
  · rintro ⟨m, ⟨hm, horg⟩, hid⟩
    exact ⟨m, hm, hid, horg⟩
  · rintro ⟨m, hm, hid, horg⟩
    exact ⟨m, ⟨hm, horg⟩, hid⟩

theorem Store.InOrg.lt_next {s : Store} {orgId id : Nat} (h : s.InOrg orgId id) : id < s.memberships.next := by
  obtain ⟨m, hm, rfl, -⟩ := h
  exact s.memberships.lt_next m hm

theorem Safe.lockMemberships {s : Store} (h : Safe s) (i orgId : Nat) :
    Safe { s with locks := s.locks.start i orgId (s.idsOf orgId) } where
  owned := h.owned
  coherent := h.coherent.start (fun _ hid => mem_idsOf.mpr hid) i
  below := h.below.start (fun _ hid => (mem_idsOf.mp hid).lt_next) i orgId

theorem Safe.lockRow {s : Store} (h : Safe s) {i orgId id : Nat} {ids : List Nat}
    (hi : s.locks.pending i = some (orgId, id :: ids)) (hopen : s.locks.open? i id = true) :
    Safe { s with locks := s.locks.take i id (s.memberships.get? id).isSome } where
  owned := h.owned
  coherent := by
    refine h.coherent.take hi hopen fun ⟨m, hm, hid, _⟩ => ?_
    rw [Option.isSome_iff_exists]
    exact ⟨m, Table.get?_eq_some.mpr ⟨hm, hid⟩⟩
  below := h.below.take hi _

theorem Safe.release {s : Store} (h : Safe s) (i : Nat) : Safe (s.release i) where
  owned := h.owned
  coherent := h.coherent.release (fun _ => True) (fun _ _ => iff_of_eq (and_true _).symm) i
  below := h.below.release i

/-- The owner that is left when the target is changed or removed. -/
def OtherOwner (s : Store) (target : Membership) : Prop :=
  target.role = .owner → ∃ other ∈ s.memberships, other.id ≠ target.id ∧ other.orgId = target.orgId ∧ other.role = .owner

section Write
variable {s : Store} {i : Nat} {target : Membership} {t : Table Membership}

/-- A write to one row of an organization whose rows the writer has locked, and that has another owner. -/
theorem Safe.write (h : Safe s) (htarget : target ∈ s.memberships) (hother : OtherOwner s target)
    (hnext : t.next = s.memberships.next) (hkeep : ∀ m ∈ s.memberships, m.id ≠ target.id → m ∈ t)
    (hold : ∀ m' ∈ t, ∃ m ∈ s.memberships, m.id = m'.id ∧ m.orgId = m'.orgId) :
    Safe (Store.release { s with memberships := t } i) where
  owned := by
    intro o ho
    obtain ⟨m, hm, horg, hrole⟩ := h.owned o ho
    by_cases hid : m.id = target.id
    · obtain rfl : m = target := Table.eq_of_key hm htarget hid
      obtain ⟨other, hmem, hne, horg', hrole'⟩ := hother hrole
      exact ⟨other, hkeep other hmem hne, horg'.trans horg, hrole'⟩
    · exact ⟨m, hkeep m hm hid, horg, hrole⟩
  coherent := by
    refine h.coherent.release (fun id => ∃ m' ∈ t, m'.id = id) (fun orgId id => ?_) i
    constructor
    · rintro ⟨m', hm', rfl, horg⟩
      obtain ⟨m, hm, hid, horg'⟩ := hold m' hm'
      exact ⟨⟨m, hm, hid, horg'.trans horg⟩, m', hm', rfl⟩
    · rintro ⟨⟨m, hm, rfl, rfl⟩, m', hm', hid⟩
      obtain ⟨m₀, hm₀, hid₀, horg₀⟩ := hold m' hm'
      obtain rfl : m₀ = m := Table.eq_of_key hm₀ hm (hid₀.trans hid)
      exact ⟨m', hm', hid, horg₀.symm⟩
  below := hnext ▸ h.below.release i

theorem Leaves.write (h : Safe s) (hcritical : Critical s i target.orgId) (htarget : target ∈ s.memberships)
    (hnext : t.next = s.memberships.next) (hkeep : ∀ m ∈ s.memberships, m.id ≠ target.id → m ∈ t)
    (hold : ∀ m' ∈ t, ∃ m ∈ s.memberships, m.id = m'.id ∧ m.orgId = m'.orgId) :
    ∀ j, j ≠ i → Leaves j s (Store.release { s with memberships := t } i) := by
  intro j hj
  refine ⟨List.Subset.refl _, Nat.le_of_eq hnext.symm, fun m' hm' _ => hold m' hm', fun _ => RowLocks.same_release hj _, ?_⟩
  intro _ orgId hother m hm horg
  -- two calls do not both hold rows of one organization
  refine hkeep m hm fun hid => hj ?_
  obtain rfl : m = target := Table.eq_of_key hm htarget hid
  exact (horg ▸ hother).exclusive h hcritical

end Write

/-- Rows are added to the table at most, and their organizations come with an owner. -/
theorem Safe.insert {s s' : Store} (h : Safe s) {mk : Nat → Membership} {hmk : ∀ n, key (mk n) = n}
    (hlocks : s'.locks = s.locks) (hrows : s'.memberships = s.memberships.insert mk hmk)
    (horgs : ∀ o ∈ s'.organizations, o ∈ s.organizations ∨ (mk s.memberships.next).orgId = o.id ∧
      (mk s.memberships.next).role = .owner) : Safe s' where
  owned := by
    intro o ho
    rw [hrows]
    rcases horgs o ho with hold | ⟨horg, hrole⟩
    · obtain ⟨m, hm, horg, hrole⟩ := h.owned o hold
      exact ⟨m, Table.mem_insert.mpr (.inl hm), horg, hrole⟩
    · exact ⟨_, Table.mem_insert.mpr (.inr rfl), horg, hrole⟩
  coherent := by
    rw [hlocks]
    refine h.coherent.insert h.below (fun orgId id hid => ?_) fun orgId hin => Nat.lt_irrefl _ hin.lt_next
    constructor
    · rintro ⟨m, hm, rfl, horg⟩
      rw [hrows] at hm
      rcases Table.mem_insert.mp hm with hm | rfl
      · exact ⟨m, hm, rfl, horg⟩
      · exact absurd (hmk _) hid
    · rintro ⟨m, hm, rfl, horg⟩
      exact ⟨m, hrows ▸ Table.mem_insert.mpr (.inl hm), rfl, horg⟩
  below := by
    rw [hlocks, hrows]
    exact h.below.mono (Nat.le_succ _)

theorem Leaves.insert {s s' : Store} {mk : Nat → Membership} {hmk : ∀ n, key (mk n) = n} (hlocks : s'.locks = s.locks)
    (haborted : s'.aborted = s.aborted) (hrows : s'.memberships = s.memberships.insert mk hmk) (j : Nat) :
    Leaves j s s' where
  aborted := haborted ▸ List.Subset.refl _
  next_le := by
    rw [hrows]
    exact Nat.le_succ _
  old := by
    intro m' hm' hlt
    rw [hrows] at hm'
    rcases Table.mem_insert.mp hm' with hm | rfl
    · exact ⟨m', hm, rfl, rfl⟩
    · exact absurd (hmk s.memberships.next) (Nat.ne_of_lt hlt)
  locks := fun _ => hlocks ▸ .refl j _
  rows := fun _ _ _ m hm _ => hrows ▸ Table.mem_insert.mpr (.inl hm)

/-- What one move of call `i` does. -/
structure Move (i : Nat) (w : Stmt) (s s' : Store) : Prop where
  safe : Safe s'
  leaves : ∀ j, j ≠ i → Leaves j s s'
  draws : ∀ m' ∈ s'.memberships, s.memberships.next ≤ m'.id → m'.id = s.memberships.next ∧ w.draws = true

/-- A move that adds no row. -/
theorem Move.of_next {i : Nat} {w : Stmt} {s s' : Store} (hsafe : Safe s') (hleaves : ∀ j, j ≠ i → Leaves j s s')
    (hnext : s'.memberships.next = s.memberships.next) : Move i w s s' where
  safe := hsafe
  leaves := hleaves
  draws := fun m' hm' hle => absurd (s'.memberships.lt_next m' hm') (Nat.not_lt.mpr (hnext ▸ hle))

theorem Move.refl {s : Store} (h : Safe s) (i : Nat) (w : Stmt) : Move i w s s :=
  .of_next h (fun j _ => .refl j s) rfl

theorem Move.insert {i : Nat} {w : Stmt} {s s' : Store} (h : Safe s) (hw : w.draws = true) (mk : Nat → Membership)
    (hmk : ∀ n, key (mk n) = n) (hlocks : s'.locks = s.locks) (haborted : s'.aborted = s.aborted)
    (hrows : s'.memberships = s.memberships.insert mk hmk)
    (horgs : ∀ o ∈ s'.organizations, o ∈ s.organizations ∨ (mk s.memberships.next).orgId = o.id ∧
      (mk s.memberships.next).role = .owner) : Move i w s s' where
  safe := h.insert hlocks hrows horgs
  leaves := fun j _ => .insert hlocks haborted hrows j
  draws := by
    intro m' hm' hle
    rw [hrows] at hm'
    rcases Table.mem_insert.mp hm' with hm | rfl
    · exact absurd (s.memberships.lt_next m' hm) (Nat.not_lt.mpr hle)
    · exact ⟨hmk _, hw⟩

theorem move_lockMemberships {i orgId : Nat} {s : Store} (h : Safe s) :
    Move i (.lockMemberships orgId) s { s with locks := s.locks.start i orgId (s.idsOf orgId) } :=
  .of_next (h.lockMemberships i orgId) (Leaves.of_locks fun _ hj => RowLocks.same_start hj _ _ _) rfl

theorem move_lockRow {i orgId id : Nat} {ids : List Nat} {s : Store} (h : Safe s)
    (hi : s.locks.pending i = some (orgId, id :: ids)) (hopen : s.locks.open? i id = true) :
    Move i (.lockRow id) s { s with locks := s.locks.take i id (s.memberships.get? id).isSome } :=
  .of_next (h.lockRow hi hopen) (Leaves.of_locks fun _ hj => RowLocks.same_take hj hopen _) rfl

theorem move_commit {i : Nat} {s : Store} (h : Safe s) : Move i .commit s (s.release i) :=
  .of_next (h.release i) (Leaves.of_locks fun _ hj => RowLocks.same_release hj _) rfl

theorem move_abort {i j : Nat} {s : Store} (h : Safe s) :
    Move i (.abort j) s { s.release j with aborted := j :: s.aborted } := by
  refine .of_next ⟨(h.release j).owned, (h.release j).coherent, (h.release j).below⟩ (fun k _ => ?_) rfl
  have hkj : ∀ {k}, k ∉ j :: s.aborted → k ≠ j := fun hk hkj => hk (hkj ▸ List.mem_cons_self)
  exact ⟨List.subset_cons_self _ _, Nat.le_refl _, fun m hm _ => ⟨m, hm, rfl, rfl⟩,
    fun hk => RowLocks.same_release (hkj hk) _, fun _ _ _ m hm _ => hm⟩

section Writes
variable {i : Nat} {s : Store} {target : Membership}

theorem move_changeRole (h : Safe s) (hcritical : Critical s i target.orgId) (htarget : target ∈ s.memberships)
    (hother : OtherOwner s target) (role : Role) :
    Move i (.changeRole target.id role) s (Store.release { s with
      memberships := s.memberships.updateMany (fun m => m.id == target.id) (fun m => { m with role := role })
        fun _ => rfl } i) := by
  have hkeep : ∀ m ∈ s.memberships, m.id ≠ target.id →
      m ∈ s.memberships.updateMany (fun m => m.id == target.id) (fun m => { m with role := role }) fun _ => rfl := by
    intro m hm hne
    refine Table.mem_updateMany.mpr ⟨m, hm, ?_⟩
    rw [if_neg (by simpa using hne)]
  have hold : ∀ m' ∈ s.memberships.updateMany (fun m => m.id == target.id) (fun m => { m with role := role }) fun _ => rfl,
      ∃ m ∈ s.memberships, m.id = m'.id ∧ m.orgId = m'.orgId := by
    intro m' hm'
    obtain ⟨m, hm, rfl⟩ := Table.mem_updateMany.mp hm'
    refine ⟨m, hm, ?_⟩
    split <;> exact ⟨rfl, rfl⟩
  exact .of_next (h.write htarget hother rfl hkeep hold) (Leaves.write h hcritical htarget rfl hkeep hold) rfl

theorem move_delete (h : Safe s) (hcritical : Critical s i target.orgId) (htarget : target ∈ s.memberships)
    (hother : OtherOwner s target) :
    Move i (.delete target.id) s
      (Store.release { s with memberships := s.memberships.deleteMany fun m => m.id == target.id } i) := by
  have hkeep : ∀ m ∈ s.memberships, m.id ≠ target.id → m ∈ s.memberships.deleteMany fun m => m.id == target.id :=
    fun m hm hne => Table.mem_deleteMany.mpr ⟨hm, by simpa using hne⟩
  have hold : ∀ m' ∈ s.memberships.deleteMany fun m => m.id == target.id,
      ∃ m ∈ s.memberships, m.id = m'.id ∧ m.orgId = m'.orgId :=
    fun m' hm' => ⟨m', (Table.mem_deleteMany.mp hm').1, rfl, rfl⟩
  exact .of_next (h.write htarget hother rfl hkeep hold) (Leaves.write h hcritical htarget rfl hkeep hold) rfl

end Writes

theorem move_createOrganization {i ownerUserId : Nat} {slug : String} {s : Store} (h : Safe s) :
    Move i (.createOrganization slug ownerUserId) s { s with
      organizations := s.organizations.insert (fun id => ⟨id, slug⟩) fun _ => rfl
      memberships := s.memberships.insert (fun id => ⟨id, ownerUserId, s.organizations.next, .owner⟩) fun _ => rfl } := by
  refine .insert h rfl (fun id => ⟨id, ownerUserId, s.organizations.next, .owner⟩) (fun _ => rfl) rfl rfl rfl
    fun o ho => ?_
  rcases List.mem_append.mp ho with hold | hnew
  · exact .inl hold
  · rw [List.mem_singleton] at hnew
    subst hnew
    exact .inr ⟨rfl, rfl⟩

theorem join_cases (s : Store) (userId orgId : Nat) (role : Role) : s.join userId orgId role = s ∨
    s.join userId orgId role =
      { s with memberships := s.memberships.insert (fun id => ⟨id, userId, orgId, role⟩) fun _ => rfl } := by
  unfold Store.join
  split
  · exact .inl rfl
  · exact .inr rfl

theorem move_join {i : Nat} {w : Stmt} {s s₁ : Store} (h : Safe s) (hw : w.draws = true)
    (hrows : s₁.memberships = s.memberships) (hlocks : s₁.locks = s.locks) (haborted : s₁.aborted = s.aborted)
    (horgs : s₁.organizations = s.organizations) (userId orgId : Nat) (role : Role) :
    Move i w s (s₁.join userId orgId role) := by
  rcases join_cases s₁ userId orgId role with heq | heq
  · rw [heq]
    refine .of_next ⟨?_, ?_, ?_⟩ (fun j _ => ?_) (hrows ▸ rfl)
    · rw [Owned, horgs, hrows]
      exact h.owned
    · rw [hlocks, show s₁.InOrg = s.InOrg by funext _ _; rw [Store.InOrg, hrows]; rfl]
      exact h.coherent
    · rw [hlocks, hrows]
      exact h.below
    · refine ⟨haborted ▸ List.Subset.refl _, Nat.le_of_eq (hrows ▸ rfl), fun m hm _ => ⟨m, hrows ▸ hm, rfl, rfl⟩,
        fun _ => hlocks ▸ .refl j _, fun _ _ _ m hm _ => hrows ▸ hm⟩
  · rw [heq]
    refine .insert h hw _ (fun _ => rfl) hlocks haborted (by rw [hrows]) fun o ho => .inl ?_
    exact horgs ▸ ho

theorem move_accept {i : Nat} {s : Store} (h : Safe s) (invitation : Invitation) (joiner : Joiner) (now : Int) :
    Move i (.accept invitation joiner now) s (s.accept invitation joiner now) := by
  unfold Store.accept
  split
  · split
    · apply move_join h <;> rfl
    · exact .refl h _ _
    · split
      · exact .refl h _ _
      · apply move_join h <;> rfl
  · exact .refl h _ _

/-! ## The calls -/

section Calls
variable (ops : Nat → Op)

/-- The others leave a call its locks, and the rows of its organization once it holds one; and no membership appears under
the id it was asked about. -/
def ownership : Spec Nat Stmt Store Outcome where
  inv := Safe
  rely j _ s s' := Leaves j s s' ∧ ((s.locks.pending j).isSome = true →
    ∀ m' ∈ s'.memberships, s.memberships.next ≤ m'.id → (ops j).membershipId? ≠ some m'.id)
  guar i s w s' _ := Move i w s s'
  post _ _ _ := True

/-- Of a call that was not broken off. -/
def Alive (i : Nat) (Q : Store → Prop) (s : Store) : Prop := i ∉ s.aborted → Q s

/-- The call has these rows of the organization yet to lock, and locks the one it was asked about if it is there. -/
def Locking (i orgId : Nat) (ids : List Nat) (s : Store) : Prop :=
  s.locks.pending i = some (orgId, ids) ∧
    ∀ m ∈ s.memberships, m.orgId = orgId → (ops i).membershipId? = some m.id → s.locks.holder m.id = some i ∨ m.id ∈ ids

/-- The call found its target under its locks. -/
def Found (i : Nat) (target : Membership) (s : Store) : Prop := Critical s i target.orgId ∧ target ∈ s.memberships

variable {ops} {i : Nat}

theorem Critical.leaves {s s' : Store} {orgId : Nat} (h : Critical s i orgId) (hl : Leaves i s s') (hi : i ∉ s'.aborted) :
    Critical s' i orgId := by
  obtain ⟨hpending, hheld⟩ := hl.locks hi
  obtain ⟨m, hm, horg, hholder⟩ := h.holds
  exact ⟨hpending.trans h.through, m, hl.rows hi orgId h m hm horg, horg, (hheld m.id).mpr hholder⟩

/-- An assertion the others keep while the call is not broken off. -/
theorem stable_alive {w : Option Stmt} {Q : Store → Prop}
    (hQ : ∀ s s', (ownership ops).rely i w s s' → i ∉ s'.aborted → Q s → Q s') :
    (ownership ops).Stable i w (Alive i Q) := by
  intro s s' _ _ hrely hs hi
  exact hQ s s' hrely hi (hs fun hin => hi (hrely.1.aborted hin))

theorem stable_locking (orgId : Nat) (ids : List Nat) (w : Option Stmt) :
    (ownership ops).Stable i w (Alive i (Locking ops i orgId ids)) := by
  apply stable_alive
  rintro s s' ⟨hleaves, hnew⟩ hi ⟨hpending, hnamed⟩
  obtain ⟨hsame, hheld⟩ := hleaves.locks hi
  refine ⟨hsame.trans hpending, fun m' hm' horg hname => ?_⟩
  by_cases hlt : m'.id < s.memberships.next
  · obtain ⟨m, hm, hid, horg'⟩ := hleaves.old m' hm' hlt
    rw [hheld, ← hid]
    exact hnamed m hm (horg'.trans horg) (hid ▸ hname)
  · exact absurd hname (hnew (by rw [hpending, Option.isSome_some]) m' hm' (Nat.not_lt.mp hlt))

theorem stable_found (target : Membership) (w : Option Stmt) : (ownership ops).Stable i w (Alive i (Found i target)) := by
  apply stable_alive
  rintro s s' ⟨hleaves, -⟩ hi ⟨hcritical, htarget⟩
  exact ⟨hcritical.leaves hleaves hi, hleaves.rows hi _ hcritical target htarget rfl⟩

theorem stable_other (target : Membership) (w : Option Stmt) :
    (ownership ops).Stable i w (Alive i fun s => Found i target s ∧ OtherOwner s target) := by
  apply stable_alive
  rintro s s' ⟨hleaves, -⟩ hi ⟨⟨hcritical, htarget⟩, hother⟩
  refine ⟨⟨hcritical.leaves hleaves hi, hleaves.rows hi _ hcritical target htarget rfl⟩, fun hrole => ?_⟩
  obtain ⟨other, hmem, hne, horg, howner⟩ := hother hrole
  exact ⟨other, hleaves.rows hi _ hcritical other hmem horg, hne, horg, howner⟩

theorem sem_alive {w : Stmt} {s s' : Store} (h : sem i w s = some s') : i ∉ s.aborted := by
  intro hi
  unfold sem at h
  rw [if_pos hi] at h
  cases h

theorem sat_ret (a : Outcome) (P : Store → Prop) : (ownership ops).Sat sem i (.ret a) P := fun _ _ _ => trivial

/-- A statement, from what it does to what the rest of the call starts from. -/
theorem sat_stmt {w : Stmt} {k : Store → Call} {Q : Store → Prop} (Q' : Store → Store → Prop)
    (hstable : ∀ s, (ownership ops).Stable i (k s).next? (Alive i (Q' s)))
    (hmove : ∀ s s', Safe s → Q s → sem i w s = some s' → Move i w s s' ∧ Q' s s')
    (hk : ∀ s, (ownership ops).Sat sem i (k s) (Alive i (Q' s))) :
    (ownership ops).Sat sem i (.stmt w k) (Alive i Q) := by
  intro s s' hinv hQ hsem
  obtain ⟨hdone, hnext⟩ := hmove s s' hinv (hQ (sem_alive hsem)) hsem
  exact ⟨hdone.safe, hdone, _, hstable s, fun _ => hnext, hk s⟩

/-- A statement after which the call knows nothing. -/
theorem sat_stmt_any {w : Stmt} {k : Store → Call} {Q : Store → Prop}
    (hmove : ∀ s s', Safe s → Q s → sem i w s = some s' → Move i w s s')
    (hk : ∀ s, (ownership ops).Sat sem i (k s) (Alive i fun _ => True)) :
    (ownership ops).Sat sem i (.stmt w k) (Alive i Q) :=
  sat_stmt (fun _ _ => True) (fun _ => stable_alive fun _ _ _ _ _ => trivial)
    (fun s s' hs hQ hsem => ⟨hmove s s' hs hQ hsem, trivial⟩) hk

theorem sat_commit (a : Outcome) (Q : Store → Prop) : (ownership ops).Sat sem i (commit a) (Alive i Q) := by
  refine sat_stmt_any (fun s s' hs _ hsem => ?_) fun _ => sat_ret a _
  have halive := sem_alive hsem
  simp only [sem, if_neg halive] at hsem
  cases hsem
  exact move_commit hs

theorem sat_lockRows {k : Call} {orgId : Nat} (hk : (ownership ops).Sat sem i k (Alive i (Locking ops i orgId [])))
    (ids : List Nat) : (ownership ops).Sat sem i (lockRows k ids) (Alive i (Locking ops i orgId ids)) := by
  induction ids with
  | nil => exact hk
  | cons id ids ih =>
      refine sat_stmt (fun _ => Locking ops i orgId ids) (fun _ => stable_locking orgId ids _) ?_ fun _ => ih
      rintro s s' hs ⟨hpending, hnamed⟩ hsem
      have halive := sem_alive hsem
      simp only [sem, if_neg halive] at hsem
      split at hsem
      · rename_i hopen
        cases hsem
        refine ⟨move_lockRow hs hpending hopen, ?_, fun m hm horg hname => ?_⟩
        · simp only [RowLocks.take, Function.update_self, hpending, Option.map_some, List.tail_cons]
        · -- the row whose turn it is, if it is the one asked about, is there and gets locked
          by_cases hid : m.id = id
          · have hthere : (s.memberships.get? id).isSome = true :=
              Option.isSome_iff_exists.mpr ⟨m, Table.get?_eq_some.mpr ⟨hm, hid⟩⟩
            left
            simp only [RowLocks.take, hthere, if_true, hid, Function.update_self]
          · refine (hnamed m hm horg hname).imp (fun hheld => ?_) fun hmem => ?_
            · simp only [RowLocks.take]
              split
              · rw [Function.update_of_ne hid]
                exact hheld
              · exact hheld
            · exact (List.mem_cons.mp hmem).resolve_left hid
      · cases hsem

theorem sat_lock {k : Call} {orgId : Nat} (hk : (ownership ops).Sat sem i k (Alive i (Locking ops i orgId []))) :
    (ownership ops).Sat sem i (lockOrganizationMemberships orgId k) (Alive i fun _ => True) := by
  refine sat_stmt (fun s => Locking ops i orgId (s.idsOf orgId)) (fun _ => stable_locking _ _ _) ?_
    fun s => sat_lockRows hk _
  intro s s' hs _ hsem
  have halive := sem_alive hsem
  simp only [sem, if_neg halive] at hsem
  cases hsem
  refine ⟨move_lockMemberships hs, Function.update_self _ _ _, fun m hm horg _ => .inr ?_⟩
  exact mem_idsOf.mpr ⟨m, hm, rfl, horg⟩

/-- The target is found under a lock: it was there when the rows were listed. -/
theorem sat_findTarget {membershipId orgId : Nat} {k : Store → Call} (hname : (ops i).membershipId? = some membershipId)
    (hnone : ∀ s, s.findTarget membershipId orgId = none → (ownership ops).Sat sem i (k s) (Alive i fun _ => True))
    (hsome : ∀ s target, s.findTarget membershipId orgId = some target → target.orgId = orgId →
      (ownership ops).Sat sem i (k s) (Alive i (Found i target))) :
    (ownership ops).Sat sem i (.stmt (.findTarget membershipId orgId) k) (Alive i (Locking ops i orgId [])) := by
  intro s s' hinv hQ hsem
  have halive := sem_alive hsem
  simp only [sem, if_neg halive] at hsem
  cases hsem
  obtain ⟨hpending, hnamed⟩ := hQ halive
  refine ⟨hinv, .refl hinv _ _, ?_⟩
  cases hfind : s.findTarget membershipId orgId with
  | none => exact ⟨_, stable_alive fun _ _ _ _ _ => trivial, fun _ => trivial, hnone s hfind⟩
  | some target =>
      obtain ⟨hmem, hmatch⟩ := Table.find?_mem hfind
      simp only [Bool.and_eq_true, beq_iff_eq] at hmatch
      obtain ⟨rfl, rfl⟩ := hmatch
      refine ⟨_, stable_found target _, fun _ => ⟨⟨hpending, target, hmem, rfl, ?_⟩, hmem⟩, hsome s target hfind rfl⟩
      exact (hnamed target hmem rfl hname).resolve_right List.not_mem_nil

/-- More than one owner: there is another. -/
theorem otherOwner_of_count {s : Store} {target : Membership} (h : ¬ s.owners target.orgId ≤ 1) :
    OtherOwner s target := by
  intro _
  by_contra hnone
  apply h
  calc s.owners target.orgId
      ≤ s.memberships.count fun m => key m == target.id := by
        refine List.countP_mono_left fun m hm howner => ?_
        simp only [Bool.and_eq_true, beq_iff_eq] at howner
        by_contra hne
        exact hnone ⟨m, hm, fun hid => hne (beq_iff_eq.mpr hid), howner.1, howner.2⟩
    _ ≤ 1 := s.memberships.count_key_le_one _

/-- Count the owners when the target is one, then write. -/
theorem sat_counted {target : Membership} {orgId : Nat} (horg : target.orgId = orgId) {refuse write : Call}
    (hrefuse : ∀ Q, (ownership ops).Sat sem i refuse (Alive i Q))
    (hwrite : (ownership ops).Sat sem i write (Alive i fun s => Found i target s ∧ OtherOwner s target)) :
    (ownership ops).Sat sem i
      (if target.role = .owner then
        .stmt (.countOwners orgId) fun s => if s.owners orgId ≤ 1 then refuse else write
      else write) (Alive i (Found i target)) := by
  subst horg
  split
  · refine sat_stmt (fun s s' => if s.owners target.orgId ≤ 1 then Found i target s' else
      Found i target s' ∧ OtherOwner s' target) (fun s => ?_) (fun s s' hs hfound hsem => ?_) fun s => ?_
    · split
      · exact stable_found target _
      · exact stable_other target _
    · have halive := sem_alive hsem
      simp only [sem, if_neg halive] at hsem
      cases hsem
      refine ⟨.refl hs _ _, ?_⟩
      split
      · exact hfound
      · exact ⟨hfound, otherOwner_of_count ‹_›⟩
    · split
      · exact hrefuse _
      · exact hwrite
  · have hstronger : ∀ {p : Call} {P P' : Store → Prop}, (∀ s, P s → P' s) → (ownership ops).Sat sem i p P' →
        (ownership ops).Sat sem i p P := by
      intro p P P' hP hsat
      cases p with
      | ret a => exact fun s hs h => hsat s hs (hP s h)
      | stmt w k => exact fun s s' hs h => hsat s s' hs (hP s h)
    exact hstronger (fun s hs hi => ⟨hs hi, fun hrole => absurd hrole ‹_›⟩) hwrite

theorem sat_changeMemberRole {actor : Actor} {membershipId : Nat} (hname : (ops i).membershipId? = some membershipId)
    (newRole : Role) :
    (ownership ops).Sat sem i (changeMemberRole actor membershipId newRole) (Alive i fun _ => True) := by
  unfold changeMemberRole
  split
  · exact sat_ret _ _
  refine sat_lock (sat_findTarget hname (fun s hnone => ?_) fun s target hfind horg => ?_)
  · simp only [hnone]
    exact sat_commit _ _
  · simp only [hfind]
    split
    · exact sat_commit _ _
    split
    · exact sat_commit _ _
    split
    · exact sat_commit _ _
    refine sat_counted horg (fun Q => sat_commit _ Q) (sat_stmt_any (fun s s' hs hfound hsem => ?_) fun _ => sat_ret _ _)
    have halive := sem_alive hsem
    simp only [sem, if_neg halive] at hsem
    split at hsem
    · cases hsem
      exact move_changeRole hs hfound.1.1 hfound.1.2 hfound.2 newRole
    · cases hsem

theorem sat_removeMember {actor : Actor} {membershipId : Nat} (hname : (ops i).membershipId? = some membershipId) :
    (ownership ops).Sat sem i (removeMember actor membershipId) (Alive i fun _ => True) := by
  unfold removeMember
  refine sat_lock (sat_findTarget hname (fun s hnone => ?_) fun s target hfind horg => ?_)
  · simp only [hnone]
    exact sat_commit _ _
  · simp only [hfind]
    split
    · exact sat_commit _ _
    refine sat_counted horg (fun Q => sat_commit _ Q) (sat_stmt_any (fun s s' hs hfound hsem => ?_) fun _ => sat_ret _ _)
    have halive := sem_alive hsem
    simp only [sem, if_neg halive] at hsem
    split at hsem
    · cases hsem
      exact move_delete hs hfound.1.1 hfound.1.2 hfound.2
    · cases hsem

/-- A statement that needs no lock. -/
def Stmt.lockFree : Stmt → Bool
  | .findSlug .. | .createOrganization .. | .findInvitation .. | .findUser .. | .accept .. | .abort .. => true
  | _ => false

theorem move_lockFree {w : Stmt} (hw : w.lockFree = true) {s s' : Store} (h : Safe s) (hsem : sem i w s = some s') :
    Move i w s s' := by
  have halive := sem_alive hsem
  cases w with
  | lockMemberships | lockRow | findTarget | countOwners | changeRole | delete | commit => cases hw
  | findSlug | findInvitation | findUser =>
      simp only [sem, if_neg halive] at hsem
      cases hsem
      exact .refl h _ _
  | createOrganization slug ownerUserId =>
      simp only [sem, if_neg halive] at hsem
      split at hsem
      · cases hsem
        exact .refl h _ _
      · cases hsem
        exact move_createOrganization h
  | accept invitation joiner now =>
      simp only [sem, if_neg halive] at hsem
      cases hsem
      exact move_accept h invitation joiner now
  | abort j =>
      simp only [sem, if_neg halive] at hsem
      cases hsem
      exact move_abort h

/-- Every statement of the call is one. -/
def LockFree (p : Call) : Prop := p.All (fun _ => True) (fun w => w.lockFree = true) fun _ => True

theorem lockFree_ret (a : Outcome) : LockFree (.ret a) := trivial

theorem lockFree_stmt {w : Stmt} (hw : w.lockFree = true) {k : Store → Call} (hk : ∀ s, LockFree (k s)) :
    LockFree (.stmt w k) :=
  ⟨hw, fun s _ => hk s⟩

theorem sat_lockFree {p : Call} (hp : LockFree p) : (ownership ops).Sat sem i p (Alive i fun _ => True) := by
  induction p with
  | ret a => exact sat_ret _ _
  | stmt w k ih =>
      exact sat_stmt_any (fun _ _ hs _ hsem => move_lockFree hp.1 hs hsem) fun s => ih s (hp.2 s trivial)

theorem lockFree_findSlug {k : String → Call} (hk : ∀ slug, LockFree (k slug)) (base slug : String)
    (suffixes : List String) : LockFree (findSlug base slug k suffixes) := by
  induction suffixes generalizing slug with
  | nil => exact hk slug
  | cons suffix suffixes ih =>
      refine lockFree_stmt rfl fun s => ?_
      split
      · exact ih _
      · exact hk slug

theorem lockFree_acceptInvitation (hashToken : String → String) (createUser : (email password : String) → Option String)
    (token : String) (now : Int) (signedInUserId : Option Nat) (newAccount : Option String) :
    LockFree (acceptInvitation hashToken createUser token now signedInUserId newAccount) := by
  have htransaction : ∀ invitation joiner, LockFree (acceptTransaction invitation now joiner) :=
    fun _ _ => lockFree_stmt rfl fun _ => lockFree_ret _
  unfold acceptInvitation
  split
  · exact lockFree_ret _
  refine lockFree_stmt rfl fun s => ?_
  split
  · exact lockFree_ret _
  split
  · exact lockFree_ret _
  refine lockFree_stmt rfl fun s => ?_
  split
  · split
    · exact lockFree_ret _
    split
    · exact lockFree_ret _
    split
    · exact lockFree_ret _
    · exact htransaction _ _
  · split
    · exact lockFree_ret _
    · exact htransaction _ _

theorem sat_call (hashToken : String → String) (createUser : (email password : String) → Option String) (i : Nat) :
    (ownership ops).Sat sem i ((ops i).call hashToken createUser) (Alive i fun _ => True) := by
  cases hop : ops i with
  | createOrganization base suffixes ownerUserId =>
      exact sat_lockFree (lockFree_findSlug (fun _ => lockFree_stmt rfl fun _ => lockFree_ret _) base base _)
  | acceptInvitation token now signedInUserId newAccount =>
      exact sat_lockFree (lockFree_acceptInvitation hashToken createUser token now signedInUserId newAccount)
  | changeMemberRole actor membershipId newRole => exact sat_changeMemberRole (by rw [hop]; rfl) newRole
  | removeMember actor membershipId => exact sat_removeMember (by rw [hop]; rfl)
  | abort j => exact sat_lockFree (lockFree_stmt rfl fun _ => lockFree_ret _)

theorem compatible_ownership : (ownership ops).Compatible sem (unguessed ops) := by
  intro c i w k s' _ hok hw _ hmove j hj
  refine ⟨hmove.leaves j hj, fun hpending m' hm' hle => ?_⟩
  obtain ⟨hid, hdraws⟩ := hmove.draws m' hm' hle
  rw [hid]
  exact hok w (by rw [hw, Prog.next?_stmt]) hdraws j hpending

end Calls

/-- **An organization keeps an owner**: from a database in which each has one and no transaction is in progress, in every
order of the statements of the calls, with any actors and whatever roles they had when they were asked. -/
theorem owned_of_reach (hashToken : String → String) (createUser : (email password : String) → Option String)
    (ops : Nat → Op) {s : Store} (hs : Owned s) (hlocks : s.locks = .free) {c : System}
    (h : Reach sem (unguessed ops) (start hashToken createUser ops s) c) : Owned c.store := by
  have hsafe : Safe s := ⟨hs, hlocks ▸ RowLocks.coherent_free, hlocks ▸ RowLocks.below_free _⟩
  have hgood : (ownership ops).Good sem (start hashToken createUser ops s) :=
    ⟨hsafe, fun i => ⟨_, stable_alive fun _ _ _ _ _ => trivial, fun _ => trivial, sat_call hashToken createUser i⟩⟩
  exact (hgood.reach compatible_ownership h).1.owned

/-- Two owners, and an invitation. -/
def twoOwners : Store where
  organizations := Table.empty.insert (fun id => ⟨id, "acme"⟩) fun _ => rfl
  memberships := (Table.empty.insert (fun id => ⟨id, 1, 0, .owner⟩) fun _ => rfl).insert (fun id => ⟨id, 2, 0, .owner⟩)
    fun _ => rfl
  users := Table.empty
  invitations := Table.empty.insert (fun id => ⟨id, 0, "c@acme.io", .viewer, "t", 1758600000000, none, none⟩) fun _ => rfl
  locks := .free
  aborted := []

/-- The owners turn against each other while a third joins. -/
def mutiny : Nat → Op
  | 0 => .removeMember ⟨1, 0, .owner⟩ 1
  | 1 => .changeMemberRole ⟨2, 0, .owner⟩ 0 .viewer
  | 2 => .acceptInvitation "t" 1758000000000 none (some "correct horse")
  | j => .abort j

theorem owned_of_mutiny : ∃ c, Reach sem (unguessed mutiny) (start id (fun email _ => some email) mutiny twoOwners) c ∧
    (c.store.memberships.rows.map fun m => (m.userId, m.role)) = [(1, .owner), (0, .viewer)] ∧ Owned c.store := by
  have hrun : ((start id (fun email _ => some email) mutiny twoOwners).run sem
      [0, 1, 0, 2, 2, 0, 0, 0, 2, 0, 1, 1, 1, 1, 1]).any (fun c =>
      (c.store.memberships.rows.map fun m => (m.userId, m.role)) = [(1, .owner), (0, .viewer)]) = true := by
    decide +kernel
  obtain ⟨c, hc, hrows⟩ := (Option.any_eq_true _ _).mp hrun
  have hreach : Reach sem (unguessed mutiny) (start id (fun email _ => some email) mutiny twoOwners) c := by
    refine Reach.of_allSteps
      (p := fun c i => (c.calls i).next?.all fun w => !w.draws || decide (c.store.memberships.next = 2)) ?_
      (by decide +kernel) hc
    intro c i h w hw hdraws j _
    rw [hw, Option.all_some, hdraws, Bool.not_true, Bool.false_or, decide_eq_true_eq] at h
    rw [h]
    match j with
    | 0 | 1 | 2 => decide
    | _ + 3 => exact nofun
  have howned : Owned twoOwners := by
    intro o ho
    refine ⟨⟨0, 1, 0, .owner⟩, Table.mem_def.mpr (by decide), ?_, rfl⟩
    rcases List.mem_append.mp ho with hold | hnew
    · exact absurd hold List.not_mem_nil
    · rw [List.mem_singleton.mp hnew]
      rfl
  exact ⟨c, hreach, of_decide_eq_true hrows, owned_of_reach id _ mutiny howned rfl hreach⟩

end IkelyaneMonitor.Auth.Members
