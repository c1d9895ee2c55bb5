import Mathlib.Data.List.Nodup
import Mathlib.Data.List.Count
import Mathlib.Data.List.Perm.Subperm
import Mathlib.Data.List.MinMax

/-!
# Keyed tables

A table is a list of rows with pairwise distinct keys below the next key to be issued; both facts are fields, so every
operation below keeps them.

* `Table.insert`, `Table.updateMany`, `Table.deleteMany` : the writes; `Table.get?` : a row by its key;
* `Table.Evolves R N t t'` : every row of `t'` whose key was already issued in `t` comes from the row of `t` with that key
  along `R`, and the others satisfy `N` (`Evolves.refl`, `Evolves.trans`, one lemma for each write);
* `Evolves.countP_le` : a count over the old keys does not grow when `R` reflects what is counted.
-/

namespace Interleave

class Keyed (ρ : Type) where
  key : ρ → Nat

export Keyed (key)

structure Table (ρ : Type) [Keyed ρ] where
  rows : List ρ
  /-- The next key to be issued. -/
  next : Nat
  lt_next : ∀ r ∈ rows, key r < next
  nodup : (rows.map key).Nodup

namespace Table

variable {ρ : Type} [Keyed ρ]

instance : Membership ρ (Table ρ) := ⟨fun t r => r ∈ t.rows⟩

theorem mem_def {t : Table ρ} {r : ρ} : r ∈ t ↔ r ∈ t.rows := Iff.rfl

theorem eq_of_key {t : Table ρ} {r r' : ρ} (h : r ∈ t) (h' : r' ∈ t) (hk : key r = key r') : r = r' :=
  List.inj_on_of_nodup_map t.nodup h h' hk

def empty : Table ρ := ⟨[], 0, by simp, by simp⟩

theorem not_mem_empty (r : ρ) : r ∉ (empty : Table ρ) := List.not_mem_nil

def get? (t : Table ρ) (n : Nat) : Option ρ := t.rows.find? fun r => key r == n

def find? (t : Table ρ) (p : ρ → Bool) : Option ρ := t.rows.find? p

def count (t : Table ρ) (p : ρ → Bool) : Nat := t.rows.countP p

theorem get?_eq_some {t : Table ρ} {n : Nat} {r : ρ} : t.get? n = some r ↔ r ∈ t ∧ key r = n := by
  constructor
  · intro h
    exact ⟨List.mem_of_find?_eq_some h, by simpa using List.find?_some h⟩
  · rintro ⟨h, rfl⟩
    cases hf : t.get? (key r) with
    | none => simpa using List.find?_eq_none.mp hf r h
    | some r' =>
        have hk : key r' = key r := by simpa using List.find?_some hf
        rw [eq_of_key (List.mem_of_find?_eq_some hf) h hk]

theorem find?_mem {t : Table ρ} {p : ρ → Bool} {r : ρ} (h : t.find? p = some r) : r ∈ t ∧ p r = true :=
  ⟨List.mem_of_find?_eq_some h, List.find?_some h⟩

theorem count_key_le_one (t : Table ρ) (n : Nat) : t.count (fun r => key r == n) ≤ 1 := by
  have h := List.nodup_iff_count_le_one.mp t.nodup n
  rwa [List.count, List.countP_map] at h

/-- When each row that counts has fewer than `n` such rows of smaller key, no more than `n` count. -/
theorem count_le_of_lt {t : Table ρ} {p : ρ → Bool} {n : Nat}
    (h : ∀ r ∈ t, p r = true → t.count (fun r' => decide (key r' < key r) && p r') < n) : t.count p ≤ n := by
  rw [count, List.countP_eq_length_filter]
  cases hlast : (t.rows.filter p).argmax key with
  | none =>
      rw [List.argmax_eq_none.mp hlast]
      exact Nat.zero_le n
  | some r =>
      obtain ⟨hr, hp⟩ := List.mem_filter.mp (List.argmax_mem hlast)
      -- the other rows that count are before the last one
      have hsplit : (t.rows.filter p).length ≤ t.count (fun r' => key r' == key r) +
          t.count (fun r' => decide (key r' < key r) && p r') := by
        rw [List.length_eq_countP_add_countP (fun r' => key r' == key r), count, count, List.countP_filter,
          List.countP_filter]
        refine Nat.add_le_add (List.countP_mono_left fun r' _ h' => ?_) (List.countP_mono_left fun r' hr' h' => ?_)
        · exact (Bool.and_eq_true_iff.mp h').1
        · simp only [Bool.and_eq_true, decide_eq_true_eq, beq_iff_eq] at h' ⊢
          have hle := List.le_of_mem_argmax (List.mem_filter.mpr ⟨hr', h'.2⟩) hlast
          exact ⟨Nat.lt_of_le_of_ne hle h'.1, h'.2⟩
      have := t.count_key_le_one (key r)
      have := h r hr hp
      omega

/-! ## Writes -/

/-- Append the row `mk` builds for the next key. -/
def insert (t : Table ρ) (mk : Nat → ρ) (hmk : ∀ n, key (mk n) = n) : Table ρ where
  rows := t.rows ++ [mk t.next]
  next := t.next + 1
  lt_next := by
    intro r hr
    rcases List.mem_append.mp hr with h | h
    · exact Nat.lt_succ_of_lt (t.lt_next r h)
    · rw [List.mem_singleton.mp h, hmk]
      exact Nat.lt_succ_self _
  nodup := by
    rw [List.map_append, List.map_singleton, hmk]
    refine List.Nodup.append t.nodup (List.nodup_singleton _) ?_
    intro n hn hn'
    obtain ⟨r, hr, rfl⟩ := List.mem_map.mp hn
    exact (Nat.ne_of_lt (t.lt_next r hr)) (List.mem_singleton.mp hn')

def updateMany (t : Table ρ) (p : ρ → Bool) (f : ρ → ρ) (hf : ∀ r, key (f r) = key r) : Table ρ where
  rows := t.rows.map fun r => if p r then f r else r
  next := t.next
  lt_next := by
    intro r' hr'
    obtain ⟨r, hr, rfl⟩ := List.mem_map.mp hr'
    split
    · rw [hf]
      exact t.lt_next r hr
    · exact t.lt_next r hr
  nodup := by
    have h : (t.rows.map fun r => if p r then f r else r).map key = t.rows.map key := by
      rw [List.map_map]
      refine List.map_congr_left fun r _ => ?_
      simp only [Function.comp]
      split
      · exact hf r
      · rfl
    rw [h]
    exact t.nodup

def deleteMany (t : Table ρ) (p : ρ → Bool) : Table ρ where
  rows := t.rows.filter fun r => !p r
  next := t.next
  lt_next := fun r hr => t.lt_next r (List.mem_filter.mp hr).1
  nodup := t.nodup.sublist (List.filter_sublist.map _)

theorem mem_insert {t : Table ρ} {mk : Nat → ρ} {hmk : ∀ n, key (mk n) = n} {r : ρ} :
    r ∈ t.insert mk hmk ↔ r ∈ t ∨ r = mk t.next := by
  simp [mem_def, insert]

theorem mem_updateMany {t : Table ρ} {p : ρ → Bool} {f : ρ → ρ} {hf : ∀ r, key (f r) = key r} {r : ρ} :
    r ∈ t.updateMany p f hf ↔ ∃ r₀ ∈ t, r = if p r₀ then f r₀ else r₀ := by
  simp only [mem_def, updateMany, List.mem_map, eq_comm]

theorem mem_deleteMany {t : Table ρ} {p : ρ → Bool} {r : ρ} : r ∈ t.deleteMany p ↔ r ∈ t ∧ p r = false := by
  simp [mem_def, deleteMany]

theorem get?_updateMany (t : Table ρ) (p : ρ → Bool) (f : ρ → ρ) (hf : ∀ r, key (f r) = key r) (n : Nat) :
    (t.updateMany p f hf).get? n = (t.get? n).map fun r => if p r then f r else r := by
  have hkey : ((fun r => key r == n) ∘ fun r => if p r then f r else r) = fun r => key r == n := by
    funext r
    simp only [Function.comp]
    split
    · rw [hf r]
    · rfl
  rw [get?, updateMany, List.find?_map, hkey]
  rfl

/-! ## Evolution -/

/-- Rows of old keys moved along `R` or were removed; rows of new keys satisfy `N`. -/
structure Evolves (R : ρ → ρ → Prop) (N : ρ → Prop) (t t' : Table ρ) : Prop where
  next_le : t.next ≤ t'.next
  old : ∀ r' ∈ t', key r' < t.next → ∃ r ∈ t, key r = key r' ∧ R r r'
  new : ∀ r' ∈ t', t.next ≤ key r' → N r'

namespace Evolves

variable {R : ρ → ρ → Prop} {N : ρ → Prop} {t t' t'' : Table ρ}

theorem refl (hR : ∀ r, R r r) (N : ρ → Prop) (t : Table ρ) : Evolves R N t t :=
  ⟨Nat.le_refl _, fun r hr _ => ⟨r, hr, rfl, hR r⟩, fun r hr hlt => absurd (t.lt_next r hr) (Nat.not_lt.mpr hlt)⟩

theorem mono {R' : ρ → ρ → Prop} {N' : ρ → Prop} (h : Evolves R N t t') (hR : ∀ r r', R r r' → R' r r')
    (hN : ∀ r, N r → N' r) : Evolves R' N' t t' where
  next_le := h.next_le
  old := fun r' hr' hlt => by
    obtain ⟨r, hr, hk, hrr⟩ := h.old r' hr' hlt
    exact ⟨r, hr, hk, hR r r' hrr⟩
  new := fun r' hr' hle => hN r' (h.new r' hr' hle)

/-- A run of evolutions: `N` must survive `R`, since a row born on the way goes on moving. -/
theorem trans (hR : ∀ a b c, R a b → R b c → R a c) (hN : ∀ a b, N a → R a b → N b) (h : Evolves R N t t')
    (h' : Evolves R N t' t'') : Evolves R N t t'' where
  next_le := Nat.le_trans h.next_le h'.next_le
  old := by
    intro r'' hr'' hlt
    obtain ⟨r', hr', hk', hrr'⟩ := h'.old r'' hr'' (Nat.lt_of_lt_of_le hlt h.next_le)
    obtain ⟨r, hr, hk, hrr⟩ := h.old r' hr' (hk' ▸ hlt)
    exact ⟨r, hr, hk.trans hk', hR _ _ _ hrr hrr'⟩
  new := by
    intro r'' hr'' hle
    by_cases hlt : key r'' < t'.next
    · obtain ⟨r', hr', hk', hrr'⟩ := h'.old r'' hr'' hlt
      exact hN _ _ (h.new r' hr' (hk' ▸ hle)) hrr'
    · exact h'.new r'' hr'' (Nat.not_lt.mp hlt)

/-- Two rows of one key, before and after. -/
theorem rel (h : Evolves R N t t') {r r' : ρ} (hr : r ∈ t) (hr' : r' ∈ t') (hk : key r' = key r) : R r r' := by
  obtain ⟨r₀, hr₀, hk₀, hrr⟩ := h.old r' hr' (hk ▸ t.lt_next r hr)
  rwa [eq_of_key hr₀ hr (hk₀.trans hk)] at hrr

/-- An invariant of the rows: kept along `R` and true of new rows. -/
theorem forall_mem (h : Evolves R N t t') {P : ρ → Prop} (hR : ∀ r r', P r → R r r' → P r') (hN : ∀ r, N r → P r)
    (hP : ∀ r ∈ t, P r) : ∀ r' ∈ t', P r' := by
  intro r' hr'
  by_cases hlt : key r' < t.next
  · obtain ⟨r, hr, -, hrr⟩ := h.old r' hr' hlt
    exact hR r r' (hP r hr) hrr
  · exact hN r' (h.new r' hr' (Nat.not_lt.mp hlt))

/-- What is counted after was counted before, when no counted row is new and `R` reflects the count. -/
theorem countP_le (h : Evolves R N t t') {p p' : ρ → Bool} (hR : ∀ r r', R r r' → p' r' = true → p r = true)
    (hN : ∀ r ∈ t', t.next ≤ key r → p' r = false) : t'.count p' ≤ t.count p := by
  rw [count, count, List.countP_eq_length_filter, List.countP_eq_length_filter, ← List.length_map key,
    ← @List.length_map _ _ (t.rows.filter p) key]
  refine (List.subperm_of_subset (t'.nodup.sublist (List.filter_sublist.map _)) ?_).length_le
  intro n hn
  obtain ⟨r', hr', rfl⟩ := List.mem_map.mp hn
  obtain ⟨hmem, hp⟩ := List.mem_filter.mp hr'
  have hlt : key r' < t.next := by
    by_contra hge
    rw [hN r' hmem (Nat.not_lt.mp hge)] at hp
    cases hp
  obtain ⟨r, hr, hk, hrr⟩ := h.old r' hmem hlt
  exact List.mem_map.mpr ⟨r, List.mem_filter.mpr ⟨hr, hR r r' hrr hp⟩, hk⟩

theorem insert (hR : ∀ r, R r r) (t : Table ρ) {mk : Nat → ρ} (hmk : ∀ n, key (mk n) = n) (hN : N (mk t.next)) :
    Evolves R N t (t.insert mk hmk) where
  next_le := Nat.le_succ _
  old := by
    intro r' hr' hlt
    rcases mem_insert.mp hr' with h | rfl
    · exact ⟨r', h, rfl, hR r'⟩
    · rw [hmk] at hlt
      exact absurd hlt (Nat.lt_irrefl _)
  new := by
    intro r' hr' hle
    rcases mem_insert.mp hr' with h | rfl
    · exact absurd (t.lt_next r' h) (Nat.not_lt.mpr hle)
    · exact hN

theorem updateMany (hR : ∀ r, R r r) (t : Table ρ) {p : ρ → Bool} {f : ρ → ρ} (hf : ∀ r, key (f r) = key r)
    (hp : ∀ r ∈ t, p r = true → R r (f r)) : Evolves R N t (t.updateMany p f hf) where
  next_le := Nat.le_refl _
  old := by
    intro r' hr' _
    obtain ⟨r, hr, rfl⟩ := mem_updateMany.mp hr'
    refine ⟨r, hr, ?_⟩
    by_cases h : p r = true
    · rw [if_pos h]
      exact ⟨(hf r).symm, hp r hr h⟩
    · rw [if_neg h]
      exact ⟨rfl, hR r⟩
  new := by
    intro r' hr' hle
    exact absurd ((t.updateMany p f hf).lt_next r' hr') (Nat.not_lt.mpr hle)

theorem deleteMany (hR : ∀ r, R r r) (t : Table ρ) (p : ρ → Bool) : Evolves R N t (t.deleteMany p) where
  next_le := Nat.le_refl _
  old := fun r' hr' _ => ⟨r', (mem_deleteMany.mp hr').1, rfl, hR r'⟩
  new := fun r' hr' hle => absurd (t.lt_next r' (mem_deleteMany.mp hr').1) (Nat.not_lt.mpr hle)

end Evolves

end Table

end Interleave
