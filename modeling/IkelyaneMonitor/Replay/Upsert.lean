import Mathlib.Algebra.BigOperators.Group.List.Lemmas
import Mathlib.Algebra.GroupWithZero.Nat
import Mathlib.Data.List.Dedup

/-!
# Update or insert

* `lookup` : the row of a key; `upsert` : the row of the key is updated, or created when there is none;
* `lookup_upsert` : what is found afterwards; `lookup_replace` : when the new row takes the old one's place; `lookup_map` :
  after an update in place;
* `upsertAll` : updates of one row each, which is made when it is first named; `lookup_upsertAll` : each row has its own
  updates, in their order;
* `groupBy`, `members` : what belongs to each key, in order, and the keys in the order they are first named;
  `sum_length_groupBy` : every entry is in one group.
-/

namespace Replay

variable {ρ κ : Type} [DecidableEq κ] (key : ρ → κ)

def lookup (k : κ) (table : List ρ) : Option ρ := table.find? fun r => key r = k

def upsert (k : κ) (create : ρ) (update : ρ → ρ) (table : List ρ) : List ρ :=
  if table.any fun r => key r = k then table.map fun r => if key r = k then update r else r else table ++ [create]

variable {key} {k k' : κ} {table : List ρ}

theorem key_of_lookup {r : ρ} (h : lookup key k table = some r) : key r = k :=
  of_decide_eq_true (List.find?_some (p := fun r => decide (key r = k)) h)

theorem lookup_eq_none : lookup key k table = none ↔ (table.any fun r => key r = k) = false := by
  simp [lookup]

theorem isSome_lookup : (lookup key k table).isSome = table.any fun r => key r = k := by
  rw [Bool.eq_iff_iff, lookup, List.find?_isSome, List.any_eq_true]

/-- Rows that keep their keys are found where they were. -/
theorem lookup_map {f : ρ → ρ} (hf : ∀ r, key (f r) = key r) (k : κ) (table : List ρ) :
    lookup key k (table.map f) = (lookup key k table).map f := by
  rw [lookup, List.find?_map]
  congr 1
  rw [lookup]
  congr 1
  funext r
  simp [hf]

theorem lookup_append (k : κ) (table table' : List ρ) :
    lookup key k (table ++ table') = (lookup key k table).or (lookup key k table') := List.find?_append

theorem lookup_upsert {create : ρ} {update : ρ → ρ} (hcreate : key create = k) (hupdate : ∀ r, key (update r) = key r) :
    lookup key k' (upsert key k create update table) =
      if k' = k then some (((lookup key k table).map update).getD create) else lookup key k' table := by
  have hkeep : ∀ r, key (if key r = k then update r else r) = key r := by
    intro r
    split
    · exact hupdate r
    · rfl
  unfold upsert
  split
  · rename_i hany
    rw [lookup_map hkeep]
    by_cases hk : k' = k
    · subst hk
      rw [if_pos rfl]
      rw [← isSome_lookup] at hany
      obtain ⟨r, hr⟩ := Option.isSome_iff_exists.mp hany
      simp [hr, key_of_lookup hr]
    · rw [if_neg hk]
      cases hr : lookup key k' table with
      | none => rfl
      | some r =>
          rw [Option.map_some, if_neg]
          rw [key_of_lookup hr]
          exact hk
  · rename_i hany
    have hnone := lookup_eq_none.mpr (Bool.eq_false_iff.mpr hany)
    rw [lookup_append]
    by_cases hk : k' = k
    · subst hk
      have hself : lookup key k' [create] = some create := by
        rw [lookup, List.find?_cons_of_pos (by simpa using hcreate)]
      rw [hnone, Option.none_or, hself, if_pos rfl, Option.map_none, Option.getD_none]
    · rw [if_neg hk]
      have hother : lookup key k' [create] = none := by
        rw [lookup, List.find?_cons_of_neg (by rw [hcreate, decide_eq_true_eq]; exact fun h => hk h.symm)]
        rfl
      rw [hother, Option.or_none]

/-- A row that takes the place of the one with its key. -/
theorem lookup_replace (k : κ) (e : ρ) (table : List ρ) :
    lookup key k (upsert key (key e) e (fun _ => e) table) = if k = key e then some e else lookup key k table := by
  have hsame : upsert key (key e) e (fun _ => e) table =
      upsert key (key e) e (fun r => if key r = key e then e else r) table := by
    have hrow : ∀ r, (if key r = key e then e else r) = if key r = key e then if key r = key e then e else r else r := by
      intro r
      split <;> rfl
    unfold upsert
    rw [List.map_congr_left fun r _ => hrow r]
  have hkeep : ∀ r, key (if key r = key e then e else r) = key r := by
    intro r
    split
    · exact Eq.symm ‹_›
    · rfl
  rw [hsame, lookup_upsert rfl hkeep]
  cases hrow : lookup key (key e) table with
  | none => rfl
  | some r => simp [key_of_lookup hrow]

theorem mem_upsert {create : ρ} {update : ρ → ρ} {r : ρ} (h : r ∈ upsert key k create update table) :
    r ∈ table ∨ r = create ∨ ∃ r₀ ∈ table, r = update r₀ := by
  unfold upsert at h
  split at h
  · obtain ⟨r₀, hr₀, rfl⟩ := List.mem_map.mp h
    split
    · exact .inr (.inr ⟨r₀, hr₀, rfl⟩)
    · exact .inl hr₀
  · rcases List.mem_append.mp h with hold | hnew
    · exact .inl hold
    · exact .inr (.inl (List.mem_singleton.mp hnew))

/-! ## Many updates -/

section Keys

theorem mem_keys_upsert {create : ρ} {update : ρ → ρ} (hcreate : key create = k) (hupdate : ∀ r, key (update r) = key r) :
    k' ∈ (upsert key k create update table).map key ↔ k' = k ∨ k' ∈ table.map key := by
  have hfound : ∀ (k : κ) (table : List ρ), k ∈ table.map key ↔ (lookup key k table).isSome = true := by
    intro k table
    rw [isSome_lookup]
    simp [List.mem_map]
  rw [hfound, hfound, lookup_upsert hcreate hupdate]
  by_cases hk : k' = k
  · simp [hk]
  · simp [hk]

theorem nodup_upsert {create : ρ} {update : ρ → ρ} (hcreate : key create = k) (hupdate : ∀ r, key (update r) = key r)
    (h : (table.map key).Nodup) : ((upsert key k create update table).map key).Nodup := by
  unfold upsert
  split
  · have hsame : (table.map fun r => if key r = k then update r else r).map key = table.map key := by
      rw [List.map_map]
      refine List.map_congr_left fun r _ => ?_
      show key (if key r = k then update r else r) = key r
      split
      · exact hupdate r
      · rfl
    rwa [hsame]
  · rename_i hnew
    rw [List.map_append, List.map_cons, List.map_nil, hcreate]
    refine List.nodup_append.mpr ⟨h, List.pairwise_singleton _ k, ?_⟩
    intro a ha b hb hab
    obtain ⟨r, hr, rfl⟩ := List.mem_map.mp ha
    rw [List.mem_singleton.mp hb] at hab
    exact hnew (List.any_eq_true.mpr ⟨r, hr, decide_eq_true hab⟩)

theorem lookup_of_mem (h : (table.map key).Nodup) {r : ρ} (hr : r ∈ table) : lookup key (key r) table = some r := by
  induction table with
  | nil => cases hr
  | cons r' table ih =>
      rw [List.map_cons, List.nodup_cons] at h
      unfold lookup
      rcases List.mem_cons.mp hr with rfl | htail
      · exact List.find?_cons_of_pos (decide_eq_true rfl)
      · have hne : key r' ≠ key r := fun heq => h.1 (heq ▸ List.mem_map_of_mem htail)
        rw [List.find?_cons_of_neg (by simpa using hne)]
        exact ih h.2 htail

end Keys

section UpsertAll
variable {α β : Type} (key) (fresh : κ → ρ) (keyOf : α → κ) (update : α → ρ → ρ)

/-- Each entry updates the row of its key; a row that is not there begins as `fresh`. -/
def upsertAll (entries : List α) (table : List ρ) : List ρ :=
  entries.foldl (fun table e => upsert key (keyOf e) (update e (fresh (keyOf e))) (update e) table) table

/-- What the entries of a key make of its row. -/
def ownRow (k : κ) (entries : List α) (row : Option ρ) : Option ρ :=
  entries.foldl (fun row e => if keyOf e = k then some (update e (row.getD (fresh k))) else row) row

variable {key fresh keyOf update} {entries : List α}

theorem mem_keys_upsertAll (hfresh : ∀ k, key (fresh k) = k) (hupdate : ∀ e r, key (update e r) = key r) :
    k ∈ (upsertAll key fresh keyOf update entries table).map key ↔ k ∈ entries.map keyOf ∨ k ∈ table.map key := by
  unfold upsertAll
  induction entries generalizing table with
  | nil => simp
  | cons e entries ih =>
      rw [List.foldl_cons, ih, mem_keys_upsert ((hupdate e _).trans (hfresh _)) (hupdate e), List.map_cons, List.mem_cons,
        or_left_comm, or_assoc]

theorem nodup_upsertAll (hfresh : ∀ k, key (fresh k) = k) (hupdate : ∀ e r, key (update e r) = key r)
    (h : (table.map key).Nodup) : ((upsertAll key fresh keyOf update entries table).map key).Nodup := by
  unfold upsertAll
  induction entries generalizing table with
  | nil => exact h
  | cons e entries ih => exact ih (nodup_upsert ((hupdate e _).trans (hfresh _)) (hupdate e) h)

theorem lookup_upsertAll (hfresh : ∀ k, key (fresh k) = k) (hupdate : ∀ e r, key (update e r) = key r) :
    lookup key k (upsertAll key fresh keyOf update entries table) =
      ownRow fresh keyOf update k entries (lookup key k table) := by
  unfold upsertAll ownRow
  induction entries generalizing table with
  | nil => rfl
  | cons e entries ih =>
      rw [List.foldl_cons, List.foldl_cons, ih, lookup_upsert ((hupdate e _).trans (hfresh _)) (hupdate e)]
      congr 1
      by_cases hk : keyOf e = k
      · subst hk
        rw [if_pos rfl, if_pos rfl]
        cases lookup key (keyOf e) table <;> rfl
      · rw [if_neg hk, if_neg fun h => hk h.symm]

/-- What is read of a row is what the last entry of its key with a reading says. -/
theorem view_ownRow {view : ρ → β} {reads : α → Option β} (h : ∀ e r, view (update e r) = (reads e).getD (view r))
    (row : Option ρ) :
    view ((ownRow fresh keyOf update k entries row).getD (fresh k)) =
      ((entries.filter fun e => keyOf e = k).filterMap reads).getLast?.getD (view (row.getD (fresh k))) := by
  unfold ownRow
  induction entries generalizing row with
  | nil => rfl
  | cons e entries ih =>
      rw [List.foldl_cons, ih]
      by_cases hk : keyOf e = k
      · rw [if_pos hk, List.filter_cons_of_pos (by simpa using hk), Option.getD_some, h]
        cases hreads : reads e with
        | none => rw [List.filterMap_cons_none hreads, Option.getD_none]
        | some b => rw [List.filterMap_cons_some hreads, List.getLast?_cons, Option.getD_some, Option.getD_some]
      · rw [if_neg hk, List.filter_cons_of_neg (by simpa using hk)]

end UpsertAll

/-! ## Groups -/

section Groups
variable {α β : Type}

def addMember (valueOf : α → β) (e : α) (group : κ × List β) : κ × List β := (group.1, group.2 ++ [valueOf e])

def groupBy (keyOf : α → κ) (valueOf : α → β) (entries : List α) : List (κ × List β) :=
  upsertAll Prod.fst (fun k => (k, [])) keyOf (addMember valueOf) entries []

def members (groups : List (κ × List β)) (k : κ) : List β := ((lookup Prod.fst k groups).map Prod.snd).getD []

variable {keyOf : α → κ} {valueOf : α → β}

theorem members_groupBy (entries : List α) (k : κ) :
    members (groupBy keyOf valueOf entries) k = (entries.filter fun e => keyOf e = k).map valueOf := by
  have hrow : ∀ (row : Option (κ × List β)) (entries : List α),
      ((ownRow (fun k => (k, [])) keyOf (addMember valueOf) k entries row).map Prod.snd).getD [] =
        (row.map Prod.snd).getD [] ++ (entries.filter fun e => keyOf e = k).map valueOf := by
    intro row entries
    unfold ownRow
    induction entries generalizing row with
    | nil => simp
    | cons e entries ih =>
        rw [List.foldl_cons, ih]
        by_cases h : keyOf e = k
        · rw [if_pos h, List.filter_cons_of_pos (by simpa using h)]
          cases row <;> simp [addMember]
        · rw [if_neg h, List.filter_cons_of_neg (by simpa using h)]
  have hfresh : ∀ k : κ, Prod.fst (k, ([] : List β)) = k := fun _ => rfl
  have hadd : ∀ (e : α) (group : κ × List β), Prod.fst (addMember valueOf e group) = Prod.fst group := fun _ _ => rfl
  unfold members groupBy
  rw [lookup_upsertAll hfresh hadd, hrow]
  rfl

theorem mem_keys_groupBy {entries : List α} {k : κ} :
    k ∈ (groupBy keyOf valueOf entries).map Prod.fst ↔ ∃ e ∈ entries, keyOf e = k := by
  have hfresh : ∀ k : κ, Prod.fst (k, ([] : List β)) = k := fun _ => rfl
  have hadd : ∀ (e : α) (group : κ × List β), Prod.fst (addMember valueOf e group) = Prod.fst group := fun _ _ => rfl
  unfold groupBy
  rw [mem_keys_upsertAll hfresh hadd]
  simp [List.mem_map]

theorem nodup_keys_groupBy (entries : List α) : ((groupBy keyOf valueOf entries).map Prod.fst).Nodup := by
  have hfresh : ∀ k : κ, Prod.fst (k, ([] : List β)) = k := fun _ => rfl
  have hadd : ∀ (e : α) (group : κ × List β), Prod.fst (addMember valueOf e group) = Prod.fst group := fun _ _ => rfl
  exact nodup_upsertAll hfresh hadd List.nodup_nil

/-- The groups are those of the keys that there are. -/
theorem mem_groupBy {entries : List α} {group : κ × List β} : group ∈ groupBy keyOf valueOf entries ↔
    (∃ e ∈ entries, keyOf e = group.1) ∧ group.2 = (entries.filter fun e => keyOf e = group.1).map valueOf := by
  have hrow : ∀ group ∈ groupBy keyOf valueOf entries,
      group.2 = (entries.filter fun e => keyOf e = group.1).map valueOf := by
    intro group hgroup
    rw [← members_groupBy, members, lookup_of_mem (nodup_keys_groupBy entries) hgroup, Option.map_some, Option.getD_some]
  have hkeys : group.1 ∈ (groupBy keyOf valueOf entries).map Prod.fst ↔ ∃ e ∈ entries, keyOf e = group.1 := mem_keys_groupBy
  rw [← hkeys]
  constructor
  · exact fun h => ⟨List.mem_map_of_mem h, hrow group h⟩
  · rintro ⟨hkey, hmembers⟩
    obtain ⟨group', hgroup', hsame⟩ := List.mem_map.mp hkey
    have heq : group' = group := Prod.ext hsame (by rw [hrow group' hgroup', hsame, hmembers])
    exact heq ▸ hgroup'

/-- Every entry is in one group. -/
theorem sum_length_groupBy (entries : List α) :
    ((groupBy keyOf valueOf entries).map fun group => group.2.length).sum = entries.length := by
  have hcount : ∀ group ∈ groupBy keyOf valueOf entries, group.2.length = (entries.map keyOf).count group.1 := by
    intro group hgroup
    rw [(mem_groupBy.mp hgroup).2, List.length_map, List.count, List.countP_map, List.countP_eq_length_filter]
    rfl
  have hkeys : ((groupBy keyOf valueOf entries).map Prod.fst).Perm (entries.map keyOf).dedup := by
    refine (List.perm_ext_iff_of_nodup (nodup_keys_groupBy entries) (List.nodup_dedup _)).mpr fun k => ?_
    rw [mem_keys_groupBy, List.mem_dedup, List.mem_map]
  have hsum := (hkeys.map fun k => (entries.map keyOf).count k).sum_eq
  rw [List.sum_map_count_dedup_eq_length, List.length_map, List.map_map] at hsum
  rw [List.map_congr_left hcount]
  exact hsum

theorem members_subset (groups : List (κ × List β)) (k : κ) : members groups k ⊆ groups.flatMap Prod.snd := by
  intro b hb
  unfold members at hb
  cases hrow : lookup Prod.fst k groups with
  | none => simp [hrow] at hb
  | some row =>
      rw [hrow] at hb
      exact List.mem_flatMap.mpr ⟨row, List.mem_of_find?_eq_some hrow, hb⟩

end Groups

end Replay
