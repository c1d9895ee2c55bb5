import IkelyaneMonitor.Replay.SkipDuplicates
import IkelyaneMonitor.Replay.Upsert

/-!
# The last write, and the newest

A column that every write overwrites holds the last one. It is the newest one when the writes come in the order of their
times.

* `Newest` : an entry of a list that no other is later than; `newest_of_getLast` : the last of entries in order;
* `chronological_filterMap` : what is read of entries in order is in order;
* `foldl_getLast` : what is read of a state after steps that each overwrite it by their last reading, or leave it;
  `getLast?_filterMap_append` : the last reading after one more step;
* `lookup_insertAll` : what is found after an insertion that skips duplicates.
-/

namespace Replay

section Newest
variable {α : Type} (time : α → Int)

def Newest (entries : List α) (e : α) : Prop := e ∈ entries ∧ ∀ e' ∈ entries, time e' ≤ time e

/-- Entries that come in the order of their times. -/
def Chronological (entries : List α) : Prop := entries.Pairwise fun e e' => time e ≤ time e'

variable {time}

theorem newest_of_getLast {entries : List α} (h : Chronological time entries) {e : α} (he : entries.getLast? = some e) :
    Newest time entries e := by
  obtain ⟨front, rfl⟩ := List.getLast?_eq_some_iff.mp he
  refine ⟨List.mem_append_right _ (List.mem_singleton.mpr rfl), fun e' he' => ?_⟩
  rcases List.mem_append.mp he' with hfront | hlast
  · exact (List.pairwise_append.mp h).2.2 e' hfront e (List.mem_singleton.mpr rfl)
  · exact Int.le_of_eq (congrArg time (List.mem_singleton.mp hlast))

theorem exists_newest {entries : List α} (h : Chronological time entries) (hne : entries ≠ []) :
    ∃ e, entries.getLast? = some e ∧ Newest time entries e := by
  obtain ⟨e, he⟩ := Option.isSome_iff_exists.mp (List.getLast?_isSome.mpr hne)
  exact ⟨e, he, newest_of_getLast h he⟩

/-- What is read of some of the entries, with their times, comes in the order they do. -/
theorem chronological_filterMap {β : Type} {time' : β → Int} {p : α → Bool} {read : α → Option β} {entries : List α}
    (h : Chronological time (entries.filter p)) (hread : ∀ a b, read a = some b → p a = true ∧ time' b = time a) :
    Chronological time' (entries.filterMap read) := by
  rw [Chronological, List.pairwise_filter] at h
  rw [Chronological, List.pairwise_filterMap]
  refine h.imp fun {a a'} hle b hb b' hb' => ?_
  obtain ⟨hp, ht⟩ := hread a b hb
  obtain ⟨hp', ht'⟩ := hread a' b' hb'
  rw [ht, ht']
  exact hle hp hp'

end Newest

section Fold
variable {σ α β : Type}

/-- A step overwrites what is read by its last reading, or leaves it: so does a sequence of steps. -/
theorem foldl_getLast {step : σ → α → σ} {view : σ → Option β} {reads : α → List β}
    (h : ∀ s a, view (step s a) = (reads a).getLast?.or (view s)) (s : σ) (as : List α) :
    view (as.foldl step s) = (as.flatMap reads).getLast?.or (view s) := by
  induction as generalizing s with
  | nil => rfl
  | cons a as ih => rw [List.foldl_cons, ih, h, List.flatMap_cons, List.getLast?_append, Option.or_assoc]

/-- The same of steps that have at most one reading. -/
theorem foldl_filterMap {step : σ → α → σ} {view : σ → Option β} {reads : α → Option β}
    (h : ∀ s a, view (step s a) = (reads a).or (view s)) (s : σ) (as : List α) :
    view (as.foldl step s) = (as.filterMap reads).getLast?.or (view s) := by
  rw [List.filterMap_eq_flatMap_toList]
  refine foldl_getLast (fun s a => ?_) s as
  rw [h]
  cases reads a <;> rfl

/-- The last reading, when there is one more step. -/
theorem getLast?_filterMap_append (reads : α → Option β) (as : List α) (a : α) :
    ((as ++ [a]).filterMap reads).getLast? = (reads a).or (as.filterMap reads).getLast? := by
  rw [List.filterMap_append, List.getLast?_append]
  cases hread : reads a with
  | none => rw [List.filterMap_cons_none hread, List.filterMap_nil, List.getLast?_nil]
  | some b => rw [List.filterMap_cons_some hread, List.filterMap_nil, List.getLast?_singleton]

/-- A step that does not touch what is read. -/
theorem foldl_kept {step : σ → α → σ} {view : σ → β} (h : ∀ s a, view (step s a) = view s) (s : σ) (as : List α) :
    view (as.foldl step s) = view s := by
  induction as generalizing s with
  | nil => rfl
  | cons a as ih => rw [List.foldl_cons, ih, h]

end Fold

section Insert
variable {ρ κ : Type} [DecidableEq κ] {key : ρ → κ}

theorem lookup_insertNew (k : κ) (table : List ρ) (row : ρ) :
    lookup key k (insertNew key table row) = (lookup key k table).or (lookup key k [row]) := by
  unfold insertNew
  split
  · rename_i htaken
    by_cases hk : key row = k
    · subst hk
      rw [← isSome_lookup] at htaken
      obtain ⟨r, hr⟩ := Option.isSome_iff_exists.mp htaken
      rw [hr, Option.some_or]
    · have hnone : lookup key k [row] = none := lookup_eq_none.mpr (by simpa using hk)
      rw [hnone, Option.or_none]
  · exact lookup_append k table [row]

theorem lookup_insertAll (k : κ) (table rows : List ρ) :
    lookup key k (insertAll key table rows) = (lookup key k table).or (lookup key k rows) := by
  induction rows generalizing table with
  | nil =>
      have hnil : lookup key k [] = none := rfl
      rw [insertAll_nil, hnil, Option.or_none]
  | cons row rows ih =>
      have hcons : lookup key k (row :: rows) = (lookup key k [row]).or (lookup key k rows) := lookup_append k [row] rows
      rw [insertAll_cons, ih, lookup_insertNew, Option.or_assoc, ← hcons]

end Insert

end Replay
