import Mathlib.Data.List.Basic
import Mathlib.Data.List.Nodup

/-!
# Insertion that skips duplicates

`INSERT ... ON CONFLICT DO NOTHING` into a table whose rows have pairwise distinct keys: a row is added unless its key is
taken, by a row of the table or by one before it in the batch.

* `insertNew`, `insertAll` : one row, and a batch; `insertAll_append` : batch after batch is one batch;
* `mem_insertAll` : the rows afterwards, by the first row of each key; `nodup_insertAll` : keys stay distinct;
* `first` : the first row of a key; `Agree` : batches that share a key have the same first row of it;
* `mem_insertAll_batches` : the rows after batches that agree do not depend on their order and number.
-/

namespace Replay

variable {ρ κ : Type} [DecidableEq κ] (key : ρ → κ)

def insertNew (table : List ρ) (row : ρ) : List ρ := if table.any fun r => key r = key row then table else table ++ [row]

def insertAll (table rows : List ρ) : List ρ := rows.foldl (insertNew key) table

variable {key}

@[simp] theorem insertAll_nil (table : List ρ) : insertAll key table [] = table := rfl

@[simp] theorem insertAll_cons (table : List ρ) (row : ρ) (rows : List ρ) :
    insertAll key table (row :: rows) = insertAll key (insertNew key table row) rows := rfl

theorem insertAll_append (table rows rows' : List ρ) :
    insertAll key table (rows ++ rows') = insertAll key (insertAll key table rows) rows' := by
  rw [insertAll, List.foldl_append]
  rfl

theorem subset_insertNew (table : List ρ) (row : ρ) : table ⊆ insertNew key table row := by
  unfold insertNew
  split
  · exact List.Subset.refl _
  · exact List.subset_append_left _ _

theorem subset_insertAll (table rows : List ρ) : table ⊆ insertAll key table rows := by
  induction rows generalizing table with
  | nil => exact List.Subset.refl _
  | cons row rows ih => exact List.Subset.trans (subset_insertNew table row) (ih _)

/-- The rows of a key afterwards: those it had, and else the first one of the batch. -/
theorem mem_insertAll {table rows : List ρ} {r : ρ} : r ∈ insertAll key table rows ↔
    r ∈ table ∨ (∀ r' ∈ table, key r' ≠ key r) ∧ (rows.find? fun r' => key r' = key r) = some r := by
  induction rows generalizing table with
  | nil => simp
  | cons row rows ih =>
      rw [insertAll_cons, ih, insertNew]
      by_cases htaken : (table.any fun r' => key r' = key row) = true
      · rw [if_pos htaken]
        obtain ⟨r', hr', hkey⟩ := List.any_eq_true.mp htaken
        refine or_congr_right (and_congr_right fun hnone => ?_)
        have hne : key row ≠ key r := fun h => hnone r' hr' ((of_decide_eq_true hkey).trans h)
        rw [List.find?_cons_of_neg (by simpa using hne)]
      · rw [if_neg htaken]
        have hfree : ∀ r' ∈ table, key r' ≠ key row := by simpa using htaken
        by_cases hkey : key row = key r
        · rw [List.find?_cons_of_pos (by simpa using hkey)]
          constructor
          · rintro (hmem | ⟨hnone, -⟩)
            · rcases List.mem_append.mp hmem with hold | hnew
              · exact .inl hold
              · rw [List.mem_singleton.mp hnew]
                exact .inr ⟨hfree, rfl⟩
            · exact absurd hkey (hnone row (List.mem_append_right _ (List.mem_singleton.mpr rfl)))
          · rintro (hold | ⟨-, hrow⟩)
            · exact .inl (List.mem_append_left _ hold)
            · exact .inl (List.mem_append_right _ (List.mem_singleton.mpr (Option.some.inj hrow).symm))
        · rw [List.find?_cons_of_neg (by simpa using hkey)]
          have hold : r ∈ table ++ [row] ↔ r ∈ table := by
            simp only [List.mem_append, List.mem_singleton, or_iff_left_iff_imp]
            rintro rfl
            exact absurd rfl hkey
          have hall : (∀ r' ∈ table ++ [row], key r' ≠ key r) ↔ ∀ r' ∈ table, key r' ≠ key r := by
            simp only [List.mem_append, List.mem_singleton]
            exact ⟨fun h r' hr' => h r' (.inl hr'), fun h r' hr' => hr'.elim (h r') fun heq => heq ▸ hkey⟩
          rw [hold, hall]

theorem nodup_insertNew {table : List ρ} (h : (table.map key).Nodup) (row : ρ) :
    ((insertNew key table row).map key).Nodup := by
  unfold insertNew
  split
  · exact h
  · rename_i hfree
    rw [List.map_append, List.map_singleton]
    refine h.append (List.nodup_singleton _) fun k hk hk' => ?_
    obtain ⟨r, hr, rfl⟩ := List.mem_map.mp hk
    exact hfree (List.any_eq_true.mpr ⟨r, hr, decide_eq_true (List.mem_singleton.mp hk')⟩)

theorem nodup_insertAll {table : List ρ} (h : (table.map key).Nodup) (rows : List ρ) :
    ((insertAll key table rows).map key).Nodup := by
  induction rows generalizing table with
  | nil => exact h
  | cons row rows ih => exact ih (nodup_insertNew h row)

/-- Nothing is added when every key of the batch is taken. -/
theorem insertAll_eq_self {table rows : List ρ} (h : ∀ row ∈ rows, ∃ r ∈ table, key r = key row) :
    insertAll key table rows = table := by
  induction rows with
  | nil => rfl
  | cons row rows ih =>
      have hrow : (table.any fun r => key r = key row) = true := by
        obtain ⟨r, hr, hkey⟩ := h row List.mem_cons_self
        exact List.any_eq_true.mpr ⟨r, hr, decide_eq_true hkey⟩
      rw [insertAll_cons, insertNew, if_pos hrow]
      exact ih fun r hr => h r (List.mem_cons_of_mem _ hr)

/-- Every key of the batch is taken afterwards. -/
theorem exists_mem_insertAll {table rows : List ρ} {row : ρ} (h : row ∈ rows) :
    ∃ r ∈ insertAll key table rows, key r = key row := by
  induction rows generalizing table with
  | nil => cases h
  | cons head rows ih =>
      rw [insertAll_cons]
      rcases List.mem_cons.mp h with rfl | htail
      · have hnew : ∃ r ∈ insertNew key table row, key r = key row := by
          unfold insertNew
          split
          · rename_i htaken
            obtain ⟨r, hr, hkey⟩ := List.any_eq_true.mp htaken
            exact ⟨r, hr, of_decide_eq_true hkey⟩
          · exact ⟨row, List.mem_append_right _ (List.mem_singleton.mpr rfl), rfl⟩
        obtain ⟨r, hr, hkey⟩ := hnew
        exact ⟨r, subset_insertAll _ _ hr, hkey⟩
      · exact ih htail

/-- The first row of a key. -/
def first (key : ρ → κ) (k : κ) (rows : List ρ) : Option ρ := rows.find? fun r => key r = k

theorem key_of_first {k : κ} {rows : List ρ} {r : ρ} (h : first key k rows = some r) : key r = k :=
  of_decide_eq_true (List.find?_some (p := fun r => decide (key r = k)) h)

theorem mem_of_first {k : κ} {rows : List ρ} {r : ρ} (h : first key k rows = some r) : r ∈ rows :=
  List.mem_of_find?_eq_some h

theorem exists_first {k : κ} {rows : List ρ} {row : ρ} (hrow : row ∈ rows) (hkey : key row = k) :
    ∃ r, first key k rows = some r := by
  cases h : first key k rows with
  | some r => exact ⟨r, rfl⟩
  | none => exact absurd (decide_eq_true hkey) (List.find?_eq_none.mp h row hrow)

theorem first_of_nodup {rows : List ρ} (h : (rows.map key).Nodup) {row : ρ} (hrow : row ∈ rows) :
    first key (key row) rows = some row := by
  obtain ⟨row', hrow'⟩ := exists_first hrow (rfl : key row = key row)
  rw [hrow', List.inj_on_of_nodup_map h (mem_of_first hrow') hrow (key_of_first hrow')]

theorem first_append (k : κ) (rows rows' : List ρ) :
    first key k (rows ++ rows') = (first key k rows).or (first key k rows') := List.find?_append

section Batches
variable {β : Type} {batch : β → List ρ} {bs : List β}

/-- The first row of a key among the batches is the first row of some batch. -/
theorem first_flatMap {k : κ} {r : ρ} (h : first key k (bs.flatMap batch) = some r) :
    ∃ b ∈ bs, first key k (batch b) = some r := by
  induction bs with
  | nil => cases h
  | cons head bs ih =>
      rw [first, List.flatMap_cons, List.find?_append] at h
      cases hhead : first key k (batch head) with
      | some r' =>
          rw [first] at hhead
          rw [hhead, Option.some_or] at h
          exact ⟨head, List.mem_cons_self, hhead.trans h⟩
      | none =>
          rw [first] at hhead
          rw [hhead, Option.none_or] at h
          obtain ⟨b, hb, hfirst⟩ := ih h
          exact ⟨b, List.mem_cons_of_mem _ hb, hfirst⟩

/-- Batches that have a key in common have the same first row of it. -/
def Agree (key : ρ → κ) (batch : β → List ρ) (bs : List β) : Prop :=
  ∀ b ∈ bs, ∀ b' ∈ bs, ∀ k r r', first key k (batch b) = some r → first key k (batch b') = some r' → r = r'

/-- The rows after a sequence of batches that agree, in terms of which batches there are. -/
theorem mem_insertAll_batches (hagree : Agree key batch bs) {table : List ρ} {r : ρ} :
    r ∈ insertAll key table (bs.flatMap batch) ↔
      r ∈ table ∨ (∀ r' ∈ table, key r' ≠ key r) ∧ ∃ b ∈ bs, first key (key r) (batch b) = some r := by
  rw [mem_insertAll]
  refine or_congr_right (and_congr_right fun _ => ⟨first_flatMap, ?_⟩)
  rintro ⟨b, hb, hfirst⟩
  obtain ⟨r', hr'⟩ := exists_first (List.mem_flatMap.mpr ⟨b, hb, mem_of_first hfirst⟩) (key_of_first hfirst)
  obtain ⟨b', hb', hfirst'⟩ := first_flatMap hr'
  rwa [hagree b' hb' b hb _ _ _ hfirst' hfirst] at hr'

end Batches

end Replay
