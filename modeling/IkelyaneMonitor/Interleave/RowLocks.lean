import Mathlib.Logic.Function.Basic
import Mathlib.Data.List.Basic

/-!
# Row locks taken by `SELECT ... FOR UPDATE`

Under READ COMMITTED such a statement fixes the list of its rows when it starts and then locks them one by one: it waits
for a row another transaction holds, and passes over one that is gone when its turn comes. Rows that appear after it
started are not locked. `member g id` says that row `id` is there and belongs to group `g`, the group of its `WHERE`.

* `RowLocks` : who holds which row, and the rows each statement still has to lock; `start`, `take`, `release`;
* `Claims` : the rows a transaction holds or is going to lock; `Coherent` : of two transactions on one group, one claims
  all the other does (`Coherent.start`, `Coherent.of_shrink`);
* `Coherent.exclusive` : so two transactions that both got through and both hold a row are the same one.
-/

namespace Interleave

structure RowLocks (ι γ : Type) where
  holder : Nat → Option ι
  /-- The group of a transaction and the rows it has yet to lock. -/
  pending : ι → Option (γ × List Nat)

namespace RowLocks

variable {ι γ : Type} [DecidableEq ι]

def free : RowLocks ι γ := ⟨fun _ => none, fun _ => none⟩

/-- The transaction may lock or write the row now. -/
def open? (l : RowLocks ι γ) (i : ι) (id : Nat) : Bool := (l.holder id).all fun j => j = i

def start (l : RowLocks ι γ) (i : ι) (g : γ) (ids : List Nat) : RowLocks ι γ :=
  { l with pending := Function.update l.pending i (some (g, ids)) }

/-- The turn of a row, which is locked if it is still there. -/
def take (l : RowLocks ι γ) (i : ι) (id : Nat) (there : Bool) : RowLocks ι γ where
  holder := if there then Function.update l.holder id (some i) else l.holder
  pending := Function.update l.pending i ((l.pending i).map fun p => (p.1, p.2.tail))

def release (l : RowLocks ι γ) (i : ι) : RowLocks ι γ where
  holder := fun id => if l.holder id = some i then none else l.holder id
  pending := Function.update l.pending i none

theorem open?_iff {l : RowLocks ι γ} {i : ι} {id : Nat} : l.open? i id = true ↔ ∀ j, l.holder id = some j → j = i := by
  rw [open?]
  cases l.holder id with
  | none => simp
  | some j => simp

/-! ## What a move leaves to the others -/

/-- Nothing that `j` holds or waits for changed. -/
def Same (j : ι) (l l' : RowLocks ι γ) : Prop :=
  l'.pending j = l.pending j ∧ ∀ id, l'.holder id = some j ↔ l.holder id = some j

omit [DecidableEq ι] in
theorem Same.refl (j : ι) (l : RowLocks ι γ) : Same j l l := ⟨rfl, fun _ => Iff.rfl⟩

variable {i j : ι}

theorem same_start (hij : j ≠ i) (l : RowLocks ι γ) (g : γ) (ids : List Nat) : Same j l (l.start i g ids) :=
  ⟨Function.update_of_ne hij _ _, fun _ => Iff.rfl⟩

theorem same_take (hij : j ≠ i) {l : RowLocks ι γ} {id : Nat} (hopen : l.open? i id = true) (there : Bool) :
    Same j l (l.take i id there) := by
  refine ⟨Function.update_of_ne hij _ _, fun id' => ?_⟩
  cases there with
  | false => exact Iff.rfl
  | true =>
      rw [take]
      by_cases hid : id' = id
      · subst hid
        simp only [if_true, Function.update_self, Option.some.injEq]
        exact ⟨fun h => absurd h.symm hij, fun h => absurd (open?_iff.mp hopen j h) hij⟩
      · simp only [if_true, Function.update_of_ne hid]

theorem same_release (hij : j ≠ i) (l : RowLocks ι γ) : Same j l (l.release i) := by
  refine ⟨Function.update_of_ne hij _ _, fun id => ?_⟩
  simp only [release]
  split
  · rename_i hi
    rw [hi, Option.some.injEq]
    exact ⟨nofun, fun h => absurd h.symm hij⟩
  · exact Iff.rfl

/-! ## Who claims what -/

section Claims
variable (member : γ → Nat → Prop)

/-- The transaction holds the row or is going to lock it. -/
def Claims (l : RowLocks ι γ) (i : ι) (id : Nat) : Prop :=
  ∃ g ids, l.pending i = some (g, ids) ∧ member g id ∧ (l.holder id = some i ∨ id ∈ ids)

/-- Of two transactions on one group, one claims all that the other does: the one that started later. -/
def Coherent (l : RowLocks ι γ) : Prop :=
  ∀ i j g ids ids', l.pending i = some (g, ids) → l.pending j = some (g, ids') →
    (∀ id, l.Claims member i id → l.Claims member j id) ∨ (∀ id, l.Claims member j id → l.Claims member i id)

/-- No row is held or waited for before it is issued. -/
def Below (l : RowLocks ι γ) (n : Nat) : Prop :=
  (∀ id i, l.holder id = some i → id < n) ∧ ∀ i g ids, l.pending i = some (g, ids) → ∀ id ∈ ids, id < n

variable {member} {l : RowLocks ι γ}

omit [DecidableEq ι] in
theorem coherent_free : (free : RowLocks ι γ).Coherent member := nofun

omit [DecidableEq ι] in
theorem below_free (n : Nat) : (free : RowLocks ι γ).Below n := ⟨nofun, nofun⟩

omit [DecidableEq ι] in
/-- Two transactions on one group that got through, each with a row of the group. -/
theorem Coherent.exclusive (h : l.Coherent member) {g : γ} {id id' : Nat} (hi : l.pending i = some (g, []))
    (hj : l.pending j = some (g, [])) (hid : member g id) (hheld : l.holder id = some i) (hid' : member g id')
    (hheld' : l.holder id' = some j) : i = j := by
  have hall : ∀ {a b : ι} {n : Nat}, l.pending a = some (g, []) → l.pending b = some (g, []) → member g n →
      l.holder n = some a → (∀ id, l.Claims member a id → l.Claims member b id) → a = b := by
    intro a b n ha hb hn hholder hsub
    obtain ⟨g', ids, hp, -, hclaim⟩ := hsub n ⟨g, [], ha, hn, .inl hholder⟩
    rw [hb] at hp
    cases hp
    rcases hclaim with hclaim | hnil
    · exact Option.some.inj (hholder.symm.trans hclaim)
    · exact absurd hnil List.not_mem_nil
  rcases h i j g [] [] hi hj with hsub | hsub
  · exact hall hi hj hid hheld hsub
  · exact (hall hj hi hid' hheld' hsub).symm

omit [DecidableEq ι] in
/-- A move after which every transaction that is left claims what it did, less the rows that are gone. -/
theorem Coherent.of_shrink {member' : γ → Nat → Prop} {l' : RowLocks ι γ} (h : l.Coherent member) (there : Nat → Prop)
    (hopen : ∀ i g ids', l'.pending i = some (g, ids') → ∃ ids, l.pending i = some (g, ids))
    (hclaims : ∀ i, (∃ p, l'.pending i = some p) → ∀ id, l'.Claims member' i id ↔ l.Claims member i id ∧ there id) :
    l'.Coherent member' := by
  intro i j g ids ids' hi hj
  obtain ⟨_, hi₀⟩ := hopen i g ids hi
  obtain ⟨_, hj₀⟩ := hopen j g ids' hj
  refine (h i j g _ _ hi₀ hj₀).imp (fun hsub id hid => ?_) fun hsub id hid => ?_
  · rw [hclaims i ⟨_, hi⟩] at hid
    exact (hclaims j ⟨_, hj⟩ id).mpr ⟨hsub id hid.1, hid.2⟩
  · rw [hclaims j ⟨_, hj⟩] at hid
    exact (hclaims i ⟨_, hi⟩ id).mpr ⟨hsub id hid.1, hid.2⟩

/-- A statement that starts lists every row of its group. -/
theorem Coherent.start (h : l.Coherent member) {g : γ} {ids : List Nat} (hids : ∀ id, member g id → id ∈ ids) (i : ι) :
    (l.start i g ids).Coherent member := by
  have hself : ∀ id, member g id → (l.start i g ids).Claims member i id :=
    fun id hid => ⟨g, ids, Function.update_self _ _ _, hid, .inr (hids id hid)⟩
  have hother : ∀ {j : ι}, j ≠ i → ∀ id, (l.start i g ids).Claims member j id ↔ l.Claims member j id := by
    intro j hj id
    simp only [Claims, RowLocks.start, Function.update_of_ne hj]
  -- what another transaction of the group claims is a row of the group
  have hlast : ∀ {j : ι} {ids' : List Nat}, (l.start i g ids).pending j = some (g, ids') →
      ∀ id, (l.start i g ids).Claims member j id → (l.start i g ids).Claims member i id := by
    intro j ids' hj id hclaim
    obtain ⟨g', _, hp, hmem, -⟩ := hclaim
    rw [hj] at hp
    cases hp
    exact hself id hmem
  intro a b g' ids₁ ids₂ ha hb
  by_cases hai : a = i
  · subst hai
    simp only [RowLocks.start, Function.update_self, Option.some.injEq, Prod.mk.injEq] at ha
    obtain ⟨rfl, rfl⟩ := ha
    exact .inr (hlast hb)
  · by_cases hbi : b = i
    · subst hbi
      simp only [RowLocks.start, Function.update_self, Option.some.injEq, Prod.mk.injEq] at hb
      obtain ⟨rfl, rfl⟩ := hb
      exact .inl (hlast ha)
    · have ha' : l.pending a = some (g', ids₁) := (same_start hai l g ids).1 ▸ ha
      have hb' : l.pending b = some (g', ids₂) := (same_start hbi l g ids).1 ▸ hb
      simp only [hother hai, hother hbi]
      exact h a b g' ids₁ ids₂ ha' hb'

/-- The turn of the first row of the list. -/
theorem Coherent.take (h : l.Coherent member) {g : γ} {id : Nat} {ids : List Nat} (hi : l.pending i = some (g, id :: ids))
    (hopen : l.open? i id = true) {there : Bool} (hthere : member g id → there = true) :
    (l.take i id there).Coherent member := by
  have hself : (l.take i id there).pending i = some (g, ids) := by
    simp only [RowLocks.take, Function.update_self, hi, Option.map_some, List.tail_cons]
  refine h.of_shrink (fun _ => True) (fun j g' ids' hj => ?_) fun j hj id' => ?_
  · by_cases hji : j = i
    · subst hji
      rw [hself] at hj
      cases hj
      exact ⟨_, hi⟩
    · rw [(same_take hji hopen there).1] at hj
      exact ⟨_, hj⟩
  · rw [and_true]
    by_cases hji : j = i
    · subst hji
      have hturn : member g id' → ((l.take j id there).holder id' = some j ∨ id' ∈ ids ↔
          l.holder id' = some j ∨ id' ∈ id :: ids) := by
        intro hmem
        by_cases hid : id' = id
        · subst hid
          simp [RowLocks.take, hthere hmem]
        · cases there <;> simp [RowLocks.take, hid]
      constructor
      · rintro ⟨g', ids', hp, hmem, hclaim⟩
        rw [hself] at hp
        cases hp
        exact ⟨g, _, hi, hmem, (hturn hmem).mp hclaim⟩
      · rintro ⟨g', ids', hp, hmem, hclaim⟩
        rw [hi] at hp
        cases hp
        exact ⟨g, _, hself, hmem, (hturn hmem).mpr hclaim⟩
    · obtain ⟨hp, hheld⟩ := same_take hji hopen there
      simp only [Claims, hp, hheld]

/-- A transaction that ends, and may take some rows with it. -/
theorem Coherent.release (h : l.Coherent member) (there : Nat → Prop) {member' : γ → Nat → Prop}
    (hmember : ∀ g id, member' g id ↔ member g id ∧ there id) (i : ι) : (l.release i).Coherent member' := by
  refine h.of_shrink there (fun j g ids hj => ?_) fun j ⟨p, hj⟩ id => ?_
  · by_cases hji : j = i
    · subst hji
      simp [RowLocks.release] at hj
    · rw [(same_release hji l).1] at hj
      exact ⟨_, hj⟩
  · have hji : j ≠ i := by
      rintro rfl
      simp [RowLocks.release] at hj
    obtain ⟨hp, hheld⟩ := same_release hji l
    simp only [Claims, hp, hheld, hmember]
    constructor
    · rintro ⟨g, ids, hpend, ⟨hmem, hid⟩, hclaim⟩
      exact ⟨⟨g, ids, hpend, hmem, hclaim⟩, hid⟩
    · rintro ⟨⟨g, ids, hpend, hmem, hclaim⟩, hid⟩
      exact ⟨g, ids, hpend, ⟨hmem, hid⟩, hclaim⟩

omit [DecidableEq ι] in
/-- A new row, which nobody claims. -/
theorem Coherent.insert (h : l.Coherent member) {n : Nat} (hbelow : l.Below n) {member' : γ → Nat → Prop}
    (hmember : ∀ g id, id ≠ n → (member' g id ↔ member g id)) (hnew : ∀ g, ¬ member g n) : l.Coherent member' := by
  refine h.of_shrink (fun _ => True) (fun j g ids hj => ⟨ids, hj⟩) fun j _ id => ?_
  rw [and_true]
  by_cases hid : id = n
  · subst hid
    constructor
    · rintro ⟨g, ids, hp, -, hheld | hmem⟩
      · exact absurd (hbelow.1 _ _ hheld) (Nat.lt_irrefl _)
      · exact absurd (hbelow.2 _ _ _ hp _ hmem) (Nat.lt_irrefl _)
    · rintro ⟨g, ids, -, hmem, -⟩
      exact absurd hmem (hnew g)
  · simp only [Claims, hmember _ id hid]

omit [DecidableEq ι] in
theorem Below.mono {n n' : Nat} (hle : n ≤ n') (h : l.Below n) : l.Below n' :=
  ⟨fun id i hid => Nat.lt_of_lt_of_le (h.1 id i hid) hle,
    fun i g ids hi id hid => Nat.lt_of_lt_of_le (h.2 i g ids hi id hid) hle⟩

theorem Below.start {n : Nat} (h : l.Below n) {ids : List Nat} (hids : ∀ id ∈ ids, id < n) (i : ι) (g : γ) :
    (l.start i g ids).Below n := by
  refine ⟨h.1, fun j g' ids' hj id hid => ?_⟩
  by_cases hji : j = i
  · subst hji
    simp only [RowLocks.start, Function.update_self, Option.some.injEq, Prod.mk.injEq] at hj
    exact hids id (hj.2 ▸ hid)
  · rw [(same_start hji l g ids).1] at hj
    exact h.2 j g' ids' hj id hid

theorem Below.take {n : Nat} (h : l.Below n) {g : γ} {id : Nat} {ids : List Nat} (hi : l.pending i = some (g, id :: ids))
    (there : Bool) : (l.take i id there).Below n := by
  have hid : id < n := h.2 i g _ hi id List.mem_cons_self
  constructor
  · intro id' j hheld
    cases there with
    | false => exact h.1 id' j hheld
    | true =>
        by_cases hsame : id' = id
        · exact hsame ▸ hid
        · simp only [RowLocks.take, if_true, Function.update_of_ne hsame] at hheld
          exact h.1 id' j hheld
  · intro j g' ids' hj id' hid'
    by_cases hji : j = i
    · subst hji
      simp only [RowLocks.take, Function.update_self, hi, Option.map_some, List.tail_cons, Option.some.injEq,
        Prod.mk.injEq] at hj
      exact h.2 j g _ hi id' (List.mem_cons_of_mem _ (hj.2 ▸ hid'))
    · simp only [RowLocks.take, Function.update_of_ne hji] at hj
      exact h.2 j g' ids' hj id' hid'

theorem Below.release {n : Nat} (h : l.Below n) (i : ι) : (l.release i).Below n := by
  constructor
  · intro id j hheld
    simp only [RowLocks.release] at hheld
    split at hheld
    · cases hheld
    · exact h.1 id j hheld
  · intro j g ids hj
    by_cases hji : j = i
    · subst hji
      simp [RowLocks.release] at hj
    · rw [(same_release hji l).1] at hj
      exact h.2 j g ids hj

end Claims

end RowLocks

end Interleave
