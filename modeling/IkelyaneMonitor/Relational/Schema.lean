import Mathlib.Data.List.Find
import Mathlib.Data.List.Nodup

/-!
# Tables with constraints, shared by several owners

* `Schema` : what the rows of a database carry: their key, which names the table as well, their owner, the foreign keys that
  are set, the columns that name a row without a constraint, and the CHECK and UNIQUE constraints;
* `Write`, `Schema.perform` : a write on the rows, with the number of rows it hit; `none` when a constraint forbids it;
* `Sound` : the constraints hold, and no row refers to a row of another owner;
* `Within d rows w` : the write touches rows of `d` only, and makes them refer to rows of `d` only;
* `perform_sound` : such a write keeps `Sound`; `perform_view` : it does to the rows of `d` what it would do if they were
  alone; `perform_others` : it leaves the rows of the others.

A deletion reaches the rows that refer to the deleted one (`Schema.release`); a row that goes with it is referred to by none,
so one pass is enough.
-/

namespace Relational

variable {ρ κ δ ε : Type}

structure Schema (ρ κ δ : Type) where
  key : ρ → κ
  owner : ρ → δ
  /-- The foreign keys that are set. -/
  refs : ρ → List κ
  /-- The columns that name a row and have no constraint. -/
  names : ρ → List κ
  /-- What is left of a row when one it refers to is deleted: nothing (`CASCADE`), or the row without it (`SET NULL`). -/
  release : κ → ρ → Option ρ
  /-- A unique constraint keeps the two rows apart. -/
  clash : ρ → ρ → Bool
  check : ρ → Bool
  clash_symm : ∀ r q, clash r q = clash q r
  clash_owner : ∀ r q, clash r q = true → owner r = owner q ∨ ∃ k ∈ refs r, k ∈ refs q
  release_key : ∀ {k r r'}, release k r = some r' → key r' = key r
  release_owner : ∀ {k r r'}, release k r = some r' → owner r' = owner r
  release_refs : ∀ {k r r' k'}, k ∈ refs r → release k r = some r' → k' ∈ refs r' → k' ∈ refs r ∧ k' ≠ k
  release_names : ∀ {k r r' k'}, release k r = some r' → k' ∈ names r' → k' ∈ names r
  release_check : ∀ {k r r'}, release k r = some r' → check r' = check r
  release_clash : ∀ {k r r'}, release k r = some r' → ∀ q, clash r' q = true → clash r q = true
  /-- Nothing refers to a row that is deleted along. -/
  release_leaf : ∀ {k r}, release k r = none → ∀ q, key r ∉ refs q

inductive Write (ρ κ : Type) where
  | insert (r : ρ)
  | update (k : κ) (p : ρ → Bool) (f : ρ → ρ)
  | delete (k : κ) (p : ρ → Bool)

/-- The key the write puts into the tables. -/
def Write.draws (key : ρ → κ) : Write ρ κ → Option κ
  | .insert r => some (key r)
  | _ => none

namespace Schema

variable [DecidableEq κ] (S : Schema ρ κ δ)

/-- The constraints on a row beside the others. -/
def fits (r : ρ) (rows : List ρ) : Bool :=
  S.check r && ((S.refs r).all fun k => rows.any fun q => S.key q == k) &&
    rows.all fun q => S.key q == S.key r || !S.clash r q

/-- What is left of a row when the one of key `k` is deleted. -/
def without (k : κ) (r : ρ) : Option ρ :=
  if S.key r = k then none else if k ∈ S.refs r then S.release k r else some r

def hit (k : κ) (p : ρ → Bool) (rows : List ρ) : Option ρ := rows.find? fun r => S.key r == k && p r

/-- What an update makes of a row. -/
def patch (k : κ) (p : ρ → Bool) (f : ρ → ρ) (r : ρ) : ρ := if S.key r = k ∧ p r then f r else r

def perform (w : Write ρ κ) (rows : List ρ) : Option (List ρ × Nat) :=
  match w with
  | .insert r => if S.fits r rows then some (rows ++ [r], 1) else none
  | .update k p f =>
    match S.hit k p rows with
    | none => some (rows, 0)
    | some r => if S.fits (f r) rows then some (rows.map (S.patch k p f), 1) else none
  | .delete k p =>
    match S.hit k p rows with
    | none => some (rows, 0)
    | some _ => some (rows.filterMap (S.without k), 1)

/-- The rows of one owner. -/
def view [DecidableEq δ] (d : δ) (rows : List ρ) : List ρ := rows.filter fun r => S.owner r = d

/-- All rows of this key are of `d`. -/
def Mine (d : δ) (k : κ) (rows : List ρ) : Prop := ∀ r ∈ rows, S.key r = k → S.owner r = d

/-- The constraints hold, and rows refer to rows of their owner only. -/
structure Sound (rows : List ρ) (drawn : List κ) : Prop where
  nodup : (rows.map S.key).Nodup
  isDrawn : ∀ r ∈ rows, S.key r ∈ drawn
  check : ∀ r ∈ rows, S.check r = true
  apart : ∀ r ∈ rows, ∀ q ∈ rows, S.key q ≠ S.key r → S.clash r q = false
  refs : ∀ r ∈ rows, ∀ k ∈ S.refs r, ∃ q ∈ rows, S.key q = k ∧ S.owner q = S.owner r
  names : ∀ r ∈ rows, ∀ k ∈ S.names r, k ∈ drawn ∧ S.Mine (S.owner r) k rows

/-- The write stays with the rows of `d`. -/
def Within (d : δ) (rows : List ρ) (drawn : List κ) : Write ρ κ → Prop
  | .insert r => S.owner r = d ∧ (∀ k ∈ S.refs r, S.Mine d k rows) ∧ ∀ k ∈ S.names r, k ∈ drawn ∧ S.Mine d k rows
  | .update k p f => ∀ r ∈ rows, S.key r = k → p r = true → S.owner r = d ∧ S.key (f r) = k ∧ S.owner (f r) = d ∧
      (∀ k' ∈ S.refs (f r), k' ∈ S.refs r ∨ S.Mine d k' rows) ∧
      ∀ k' ∈ S.names (f r), k' ∈ S.names r ∨ k' ∈ drawn ∧ S.Mine d k' rows
  | .delete k p => ∀ r ∈ rows, S.key r = k → p r = true → S.owner r = d

variable {S} {rows : List ρ} {drawn : List κ} {d : δ}

theorem fits_iff {r : ρ} : S.fits r rows = true ↔ S.check r = true ∧ (∀ k ∈ S.refs r, ∃ q ∈ rows, S.key q = k) ∧
    ∀ q ∈ rows, S.key q ≠ S.key r → S.clash r q = false := by
  simp [fits, and_assoc, or_iff_not_imp_left]

theorem hit_eq_some {k : κ} {p : ρ → Bool} {r : ρ} (h : S.hit k p rows = some r) :
    r ∈ rows ∧ S.key r = k ∧ p r = true := by
  have hp := List.find?_some h
  simp only [Bool.and_eq_true, beq_iff_eq] at hp
  exact ⟨List.mem_of_find?_eq_some h, hp⟩

omit [DecidableEq κ] in
theorem mem_view [DecidableEq δ] {r : ρ} : r ∈ S.view d rows ↔ r ∈ rows ∧ S.owner r = d := by
  simp [view]

omit [DecidableEq κ] in
theorem Sound.empty : S.Sound [] [] := ⟨List.nodup_nil, nofun, nofun, nofun, nofun, nofun⟩

omit [DecidableEq κ] in
theorem Sound.eq_of_key (h : S.Sound rows drawn) {r q : ρ} (hr : r ∈ rows) (hq : q ∈ rows) (hk : S.key r = S.key q) : r = q :=
  List.inj_on_of_nodup_map h.nodup hr hq hk

omit [DecidableEq κ] in
/-- A foreign key leads to rows of the owner only. -/
theorem Sound.mine_of_ref (h : S.Sound rows drawn) {r : ρ} {k : κ} (hr : r ∈ rows) (hk : k ∈ S.refs r) :
    S.Mine (S.owner r) k rows := by
  obtain ⟨q, hq, hqk, hqo⟩ := h.refs r hr k hk
  rintro q' hq' rfl
  rw [h.eq_of_key hq' hq hqk.symm]
  exact hqo

omit [DecidableEq κ] in
theorem Within.updated_refs {k : κ} {p : ρ → Bool} {f : ρ → ρ} (h : S.Sound rows drawn)
    (hw : S.Within d rows drawn (.update k p f)) {r : ρ} (hr : r ∈ rows) (hk : S.key r = k) (hp : p r = true) :
    ∀ k' ∈ S.refs (f r), S.Mine d k' rows := by
  obtain ⟨ho, -, -, hrefs, -⟩ := hw r hr hk hp
  intro k' hk'
  rcases hrefs k' hk' with hold | hmine
  · exact ho ▸ h.mine_of_ref hr hold
  · exact hmine

/-! ## The invariant -/

theorem Sound.insert (h : S.Sound rows drawn) {r : ρ} (hnew : S.key r ∉ drawn) (hw : S.Within d rows drawn (.insert r))
    (hfits : S.fits r rows = true) : S.Sound (rows ++ [r]) (S.key r :: drawn) := by
  obtain ⟨ho, hrefs, hnames⟩ := hw
  obtain ⟨hcheck, hexist, hclash⟩ := fits_iff.mp hfits
  have hfresh : ∀ q ∈ rows, S.key q ≠ S.key r := fun q hq hk => hnew (hk ▸ h.isDrawn q hq)
  have hmine : ∀ {e : δ} {k : κ}, k ∈ drawn → S.Mine e k rows → S.Mine e k (rows ++ [r]) := by
    intro e k hk hm q hq hqk
    rcases List.mem_append.mp hq with hq | hq
    · exact hm q hq hqk
    · rw [List.mem_singleton.mp hq] at hqk
      exact absurd (hqk ▸ hk) hnew
  constructor
  · rw [List.map_append, List.map_singleton]
    refine List.Nodup.append h.nodup (List.nodup_singleton _) ?_
    intro k hk hk'
    obtain ⟨q, hq, rfl⟩ := List.mem_map.mp hk
    exact hfresh q hq (List.mem_singleton.mp hk')
  · intro q hq
    rcases List.mem_append.mp hq with hq | hq
    · exact List.mem_cons_of_mem _ (h.isDrawn q hq)
    · rw [List.mem_singleton.mp hq]
      exact List.mem_cons_self
  · intro q hq
    rcases List.mem_append.mp hq with hq | hq
    · exact h.check q hq
    · rwa [List.mem_singleton.mp hq]
  · intro a ha b hb hne
    rcases List.mem_append.mp ha with ha | ha <;> rcases List.mem_append.mp hb with hb | hb
    · exact h.apart a ha b hb hne
    · rw [List.mem_singleton.mp hb, S.clash_symm]
      exact hclash a ha (hfresh a ha)
    · rw [List.mem_singleton.mp ha]
      exact hclash b hb (hfresh b hb)
    · rw [List.mem_singleton.mp ha, List.mem_singleton.mp hb] at hne
      exact absurd rfl hne
  · intro q hq k hk
    rcases List.mem_append.mp hq with hq | hq
    · obtain ⟨q', hq', h'⟩ := h.refs q hq k hk
      exact ⟨q', List.mem_append_left _ hq', h'⟩
    · rw [List.mem_singleton.mp hq] at hk ⊢
      obtain ⟨q', hq', hk'⟩ := hexist k hk
      exact ⟨q', List.mem_append_left _ hq', hk', (hrefs k hk q' hq' hk').trans ho.symm⟩
  · intro q hq k hk
    rcases List.mem_append.mp hq with hq | hq
    · obtain ⟨hd, hm⟩ := h.names q hq k hk
      exact ⟨List.mem_cons_of_mem _ hd, hmine hd hm⟩
    · rw [List.mem_singleton.mp hq] at hk ⊢
      obtain ⟨hd, hm⟩ := hnames k hk
      exact ⟨List.mem_cons_of_mem _ hd, ho ▸ hmine hd hm⟩

/-- Each row is the old one, or it is the new one in place of the row that was hit. -/
theorem patch_cases (h : S.Sound rows drawn) {k : κ} {p : ρ → Bool} {f : ρ → ρ} {r : ρ}
    (hhit : S.hit k p rows = some r) {q : ρ}
    (hq : q ∈ rows) : S.patch k p f q = q ∧ S.key q ≠ k ∨ S.patch k p f q = f r ∧ q = r := by
  obtain ⟨hr, hrk, hrp⟩ := hit_eq_some hhit
  by_cases hqk : S.key q = k
  · obtain rfl := h.eq_of_key hq hr (hqk.trans hrk.symm)
    exact .inr ⟨if_pos ⟨hqk, hrp⟩, rfl⟩
  · exact .inl ⟨if_neg fun hc => hqk hc.1, hqk⟩

theorem Within.patch {k : κ} {p : ρ → Bool} {f : ρ → ρ} (hw : S.Within d rows drawn (.update k p f)) {q : ρ} (hq : q ∈ rows) :
    S.key (S.patch k p f q) = S.key q ∧ S.owner (S.patch k p f q) = S.owner q := by
  unfold Schema.patch
  split
  · rename_i hc
    obtain ⟨ho, hk, ho', -⟩ := hw q hq hc.1 hc.2
    exact ⟨hk.trans hc.1.symm, ho'.trans ho.symm⟩
  · exact ⟨rfl, rfl⟩

theorem Sound.update (h : S.Sound rows drawn) {k : κ} {p : ρ → Bool} {f : ρ → ρ}
    (hw : S.Within d rows drawn (.update k p f)) {r : ρ} (hhit : S.hit k p rows = some r)
    (hfits : S.fits (f r) rows = true) : S.Sound (rows.map (S.patch k p f)) drawn := by
  obtain ⟨hr, hrk, hrp⟩ := hit_eq_some hhit
  obtain ⟨ho, hfk, hfo, -, hnames⟩ := hw r hr hrk hrp
  obtain ⟨hcheck, hexist, hclash⟩ := fits_iff.mp hfits
  have hmine : ∀ {e : δ} {k' : κ}, S.Mine e k' rows → S.Mine e k' (rows.map (S.patch k p f)) := by
    intro e k' hm q' hq' hqk
    obtain ⟨q, hq, rfl⟩ := List.mem_map.mp hq'
    rw [(hw.patch hq).2]
    exact hm q hq ((hw.patch hq).1.symm.trans hqk)
  constructor
  · have hkeys : (rows.map (S.patch k p f)).map S.key = rows.map S.key := by
      rw [List.map_map]
      exact List.map_congr_left fun q hq => (hw.patch hq).1
    rw [hkeys]
    exact h.nodup
  · intro q' hq'
    obtain ⟨q, hq, rfl⟩ := List.mem_map.mp hq'
    rw [(hw.patch hq).1]
    exact h.isDrawn q hq
  · intro q' hq'
    obtain ⟨q, hq, rfl⟩ := List.mem_map.mp hq'
    rcases patch_cases (f := f) h hhit hq with ⟨e, -⟩ | ⟨e, -⟩
    · rw [e]
      exact h.check q hq
    · rw [e]
      exact hcheck
  · intro a' ha' b' hb' hne
    obtain ⟨a, ha, rfl⟩ := List.mem_map.mp ha'
    obtain ⟨b, hb, rfl⟩ := List.mem_map.mp hb'
    rw [(hw.patch ha).1, (hw.patch hb).1] at hne
    rcases patch_cases (f := f) h hhit ha with ⟨ea, hak⟩ | ⟨ea, rfl⟩ <;>
      rcases patch_cases (f := f) h hhit hb with ⟨eb, hbk⟩ | ⟨eb, rfl⟩
    · rw [ea, eb]
      exact h.apart a ha b hb hne
    · rw [ea, eb, S.clash_symm]
      exact hclash a ha (by rwa [hfk])
    · rw [ea, eb]
      exact hclash b hb (by rwa [hfk])
    · exact absurd rfl hne
  · intro q' hq' k' hk'
    obtain ⟨q, hq, rfl⟩ := List.mem_map.mp hq'
    have hold : ∃ x ∈ rows, S.key x = k' ∧ S.owner x = S.owner q := by
      rcases patch_cases (f := f) h hhit hq with ⟨e, -⟩ | ⟨e, rfl⟩
      · rw [e] at hk'
        exact h.refs q hq k' hk'
      · rw [e] at hk'
        obtain ⟨x, hx, hxk⟩ := hexist k' hk'
        exact ⟨x, hx, hxk, (hw.updated_refs h hr hrk hrp k' hk' x hx hxk).trans ho.symm⟩
    obtain ⟨x, hx, hxk, hxo⟩ := hold
    exact ⟨_, List.mem_map_of_mem hx, (hw.patch hx).1.trans hxk, by rw [(hw.patch hx).2, (hw.patch hq).2, hxo]⟩
  · intro q' hq' k' hk'
    obtain ⟨q, hq, rfl⟩ := List.mem_map.mp hq'
    rw [(hw.patch hq).2]
    rcases patch_cases (f := f) h hhit hq with ⟨e, -⟩ | ⟨e, rfl⟩
    · rw [e] at hk'
      exact (h.names q hq k' hk').imp id hmine
    · rw [e] at hk'
      rcases hnames k' hk' with hk' | ⟨hd, hm⟩
      · exact (h.names q hq k' hk').imp id hmine
      · exact ⟨hd, ho ▸ hmine hm⟩

theorem without_eq_some {k : κ} {r r' : ρ} (h : S.without k r = some r') :
    S.key r ≠ k ∧ (r' = r ∧ k ∉ S.refs r ∨ k ∈ S.refs r ∧ S.release k r = some r') := by
  unfold without at h
  split at h
  · cases h
  · rename_i hk
    split at h
    · exact ⟨hk, .inr ⟨‹_›, h⟩⟩
    · exact ⟨hk, .inl ⟨(Option.some.inj h).symm, ‹_›⟩⟩

theorem without_key {k : κ} {r r' : ρ} (h : S.without k r = some r') : S.key r' = S.key r := by
  obtain ⟨-, ⟨rfl, -⟩ | ⟨-, h⟩⟩ := without_eq_some h
  · rfl
  · exact S.release_key h

theorem without_owner {k : κ} {r r' : ρ} (h : S.without k r = some r') : S.owner r' = S.owner r := by
  obtain ⟨-, ⟨rfl, -⟩ | ⟨-, h⟩⟩ := without_eq_some h
  · rfl
  · exact S.release_owner h

theorem without_refs {k k' : κ} {r r' : ρ} (h : S.without k r = some r') (hk' : k' ∈ S.refs r') : k' ∈ S.refs r ∧ k' ≠ k := by
  obtain ⟨-, ⟨rfl, hk⟩ | ⟨hk, h⟩⟩ := without_eq_some h
  · exact ⟨hk', fun e => hk (e ▸ hk')⟩
  · exact S.release_refs hk h hk'

theorem without_names {k k' : κ} {r r' : ρ} (h : S.without k r = some r') (hk' : k' ∈ S.names r') : k' ∈ S.names r := by
  obtain ⟨-, ⟨rfl, -⟩ | ⟨-, h⟩⟩ := without_eq_some h
  · exact hk'
  · exact S.release_names h hk'

theorem without_clash {k : κ} {r r' q : ρ} (h : S.without k r = some r') (hc : S.clash r' q = true) : S.clash r q = true := by
  obtain ⟨-, ⟨rfl, -⟩ | ⟨-, h⟩⟩ := without_eq_some h
  · exact hc
  · exact S.release_clash h q hc

/-- A row that other rows refer to stays when another one is deleted. -/
theorem without_of_ref {k : κ} {r q : ρ} (hk : S.key r ≠ k) (hq : S.key r ∈ S.refs q) : ∃ r', S.without k r = some r' := by
  unfold without
  rw [if_neg hk]
  split
  · cases hr : S.release k r with
    | none => exact absurd hq (S.release_leaf hr q)
    | some r' => exact ⟨r', rfl⟩
  · exact ⟨r, rfl⟩

theorem without_sublist (k : κ) : ((rows.filterMap (S.without k)).map S.key).Sublist (rows.map S.key) := by
  induction rows with
  | nil => exact List.Sublist.slnil
  | cons r rows ih =>
      cases hr : S.without k r with
      | none =>
          rw [List.filterMap_cons_none hr, List.map_cons]
          exact ih.cons _
      | some r' =>
          rw [List.filterMap_cons_some hr, List.map_cons, List.map_cons, without_key hr]
          exact ih.cons_cons _

theorem Sound.delete (h : S.Sound rows drawn) (k : κ) : S.Sound (rows.filterMap (S.without k)) drawn := by
  have hmine : ∀ {e : δ} {k' : κ}, S.Mine e k' rows → S.Mine e k' (rows.filterMap (S.without k)) := by
    intro e k' hm q' hq' hqk
    obtain ⟨q, hq, hqq'⟩ := List.mem_filterMap.mp hq'
    rw [without_owner hqq']
    exact hm q hq ((without_key hqq').symm.trans hqk)
  constructor
  · exact h.nodup.sublist (without_sublist k)
  · intro q' hq'
    obtain ⟨q, hq, hqq'⟩ := List.mem_filterMap.mp hq'
    rw [without_key hqq']
    exact h.isDrawn q hq
  · intro q' hq'
    obtain ⟨q, hq, hqq'⟩ := List.mem_filterMap.mp hq'
    obtain ⟨-, ⟨rfl, -⟩ | ⟨-, hrel⟩⟩ := without_eq_some hqq'
    · exact h.check q' hq
    · rw [S.release_check hrel]
      exact h.check q hq
  · intro a' ha' b' hb' hne
    obtain ⟨a, ha, haa⟩ := List.mem_filterMap.mp ha'
    obtain ⟨b, hb, hbb⟩ := List.mem_filterMap.mp hb'
    by_contra hclash
    rw [Bool.not_eq_false] at hclash
    have hab : S.clash b a = true := without_clash hbb (S.clash_symm _ _ ▸ without_clash haa hclash)
    rw [S.clash_symm, h.apart a ha b hb (by rwa [← without_key haa, ← without_key hbb])] at hab
    cases hab
  · intro q' hq' k' hk'
    obtain ⟨q, hq, hqq'⟩ := List.mem_filterMap.mp hq'
    obtain ⟨href, hne⟩ := without_refs hqq' hk'
    obtain ⟨x, hx, hxk, hxo⟩ := h.refs q hq k' href
    obtain ⟨x', hx'⟩ := without_of_ref (S := S) (r := x) (q := q) (hxk ▸ hne) (hxk ▸ href)
    exact ⟨x', List.mem_filterMap.mpr ⟨x, hx, hx'⟩, (without_key hx').trans hxk,
      by rw [without_owner hx', without_owner hqq', hxo]⟩
  · intro q' hq' k' hk'
    obtain ⟨q, hq, hqq'⟩ := List.mem_filterMap.mp hq'
    obtain ⟨hd, hm⟩ := h.names q hq k' (without_names hqq' hk')
    rw [without_owner hqq']
    exact ⟨hd, hmine hm⟩

/-- The keys drawn after a write. -/
def draw (w : Write ρ κ) (drawn : List κ) : List κ := (w.draws S.key).elim drawn (· :: drawn)

theorem perform_sound {w : Write ρ κ} {rows' : List ρ} {n : Nat} (h : S.Sound rows drawn)
    (hnew : ∀ k, w.draws S.key = some k → k ∉ drawn) (hw : S.Within d rows drawn w)
    (hp : S.perform w rows = some (rows', n)) : S.Sound rows' (draw (S := S) w drawn) := by
  cases w with
  | insert r =>
      simp only [perform, Option.ite_none_right_eq_some, Option.some.injEq, Prod.mk.injEq] at hp
      obtain ⟨hfits, rfl, -⟩ := hp
      exact h.insert (hnew _ rfl) hw hfits
  | update k p f =>
      simp only [perform] at hp
      split at hp
      · cases hp
        exact h
      · rename_i r hhit
        simp only [Option.ite_none_right_eq_some, Option.some.injEq, Prod.mk.injEq] at hp
        obtain ⟨hfits, rfl, -⟩ := hp
        exact h.update hw hhit hfits
  | delete k p =>
      simp only [perform] at hp
      split at hp
      · cases hp
        exact h
      · cases hp
        exact h.delete k

/-! ## The rows of one owner -/

theorem hit_view [DecidableEq δ] {k : κ} {p : ρ → Bool} (h : ∀ r ∈ rows, S.key r = k → p r = true → S.owner r = d) :
    S.hit k p (S.view d rows) = S.hit k p rows := by
  unfold hit view
  rw [List.find?_filter]
  refine List.find?_congr fun r hr => ?_
  by_cases hk : S.key r = k <;> by_cases hp : p r = true <;> simp_all

theorem fits_view [DecidableEq δ] (h : S.Sound rows drawn) {r : ρ} (ho : S.owner r = d)
    (hrefs : ∀ k ∈ S.refs r, S.Mine d k rows) : S.fits r (S.view d rows) = S.fits r rows := by
  rw [Bool.eq_iff_iff, fits_iff, fits_iff]
  refine and_congr_right fun _ => and_congr ?_ ?_
  · refine forall₂_congr fun k hk => ?_
    constructor
    · rintro ⟨q, hq, hqk⟩
      exact ⟨q, (mem_view.mp hq).1, hqk⟩
    · rintro ⟨q, hq, hqk⟩
      exact ⟨q, mem_view.mpr ⟨hq, hrefs k hk q hq hqk⟩, hqk⟩
  · constructor
    · intro hall q hq hne
      by_contra hclash
      rw [Bool.not_eq_false] at hclash
      -- rows that clash have one owner, be it through the row both refer to
      have hqo : S.owner q = d := by
        rcases S.clash_owner r q hclash with hown | ⟨k, hkr, hkq⟩
        · exact hown.symm.trans ho
        · obtain ⟨x, hx, hxk, hxo⟩ := h.refs q hq k hkq
          exact hxo.symm.trans (hrefs k hkr x hx hxk)
      rw [hall q (mem_view.mpr ⟨hq, hqo⟩) hne] at hclash
      cases hclash
    · intro hall q hq hne
      exact hall q (mem_view.mp hq).1 hne

theorem view_patch [DecidableEq δ] {k : κ} {p : ρ → Bool} {f : ρ → ρ} (hw : S.Within d rows drawn (.update k p f)) (e : δ) :
    S.view e (rows.map (S.patch k p f)) = (S.view e rows).map (S.patch k p f) := by
  unfold view
  rw [List.filter_map]
  refine congrArg _ (List.filter_congr fun r hr => ?_)
  simp only [Function.comp, (hw.patch hr).2]

theorem view_without [DecidableEq δ] (k : κ) (e : δ) :
    S.view e (rows.filterMap (S.without k)) = (S.view e rows).filterMap (S.without k) := by
  unfold view
  rw [List.filter_filterMap, List.filterMap_filter]
  refine List.filterMap_congr fun r _ => ?_
  cases hr : S.without k r with
  | none => simp
  | some r' => simp [Option.filter, without_owner hr]

/-- The rows of an owner alone: what a write of the owner does to them. -/
theorem perform_view [DecidableEq δ] {w : Write ρ κ} (h : S.Sound rows drawn) (hw : S.Within d rows drawn w) :
    S.perform w (S.view d rows) = (S.perform w rows).map fun r => (S.view d r.1, r.2) := by
  cases w with
  | insert r =>
      obtain ⟨ho, hrefs, -⟩ := hw
      simp only [perform, fits_view h ho hrefs]
      split
      · simp [view, ho]
      · rfl
  | update k p f =>
      have hmine : ∀ r ∈ rows, S.key r = k → p r = true → S.owner r = d := fun r hr hk hp => (hw r hr hk hp).1
      simp only [perform, hit_view hmine]
      split
      · rfl
      · rename_i r hhit
        obtain ⟨hr, hrk, hrp⟩ := hit_eq_some hhit
        obtain ⟨-, -, ho, -⟩ := hw r hr hrk hrp
        rw [fits_view h ho (hw.updated_refs h hr hrk hrp)]
        split
        · rw [Option.map_some, view_patch hw]
        · rfl
  | delete k p =>
      simp only [perform, hit_view hw]
      split
      · rfl
      · rw [Option.map_some, view_without]

/-- The rows of the others stay. -/
theorem perform_others [DecidableEq δ] {w : Write ρ κ} {rows' : List ρ} {n : Nat} (h : S.Sound rows drawn)
    (hw : S.Within d rows drawn w) (hp : S.perform w rows = some (rows', n)) {e : δ} (he : e ≠ d) :
    S.view e rows' = S.view e rows := by
  cases w with
  | insert r =>
      simp only [perform, Option.ite_none_right_eq_some, Option.some.injEq, Prod.mk.injEq] at hp
      obtain ⟨-, rfl, -⟩ := hp
      have hne : S.owner r ≠ e := fun h' => he (h'.symm.trans hw.1)
      simp [view, hne]
  | update k p f =>
      simp only [perform] at hp
      split at hp
      · cases hp
        rfl
      · simp only [Option.ite_none_right_eq_some, Option.some.injEq, Prod.mk.injEq] at hp
        obtain ⟨-, rfl, -⟩ := hp
        rw [view_patch hw]
        conv_rhs => rw [← List.map_id (S.view e rows)]
        refine List.map_congr_left fun r hr => if_neg fun hc => ?_
        obtain ⟨hr, hro⟩ := mem_view.mp hr
        exact he (hro.symm.trans (hw r hr hc.1 hc.2).1)
  | delete k p =>
      simp only [perform] at hp
      split at hp
      · cases hp
        rfl
      · rename_i x hhit
        cases hp
        obtain ⟨hx, hxk, hxp⟩ := hit_eq_some hhit
        have hxo : S.owner x = d := hw x hx hxk hxp
        rw [view_without]
        conv_rhs => rw [← List.filterMap_some (l := S.view e rows)]
        refine List.filterMap_congr fun r hr => ?_
        obtain ⟨hr, hro⟩ := mem_view.mp hr
        have hk : S.key r ≠ k := by
          intro hrk
          rw [h.eq_of_key hr hx (hrk.trans hxk.symm)] at hro
          exact he (hro.symm.trans hxo)
        have href : k ∉ S.refs r := by
          intro hkr
          exact he (hro.symm.trans ((h.mine_of_ref hr hkr x hx hxk).symm.trans hxo))
        unfold without
        rw [if_neg hk, if_neg href]

omit [DecidableEq κ] in
/-- The rows an owner would have with the tables to itself. -/
theorem Sound.view [DecidableEq δ] (h : S.Sound rows drawn) (d : δ) : S.Sound (S.view d rows) drawn := by
  constructor
  · exact h.nodup.sublist (List.filter_sublist.map _)
  · exact fun r hr => h.isDrawn r (mem_view.mp hr).1
  · exact fun r hr => h.check r (mem_view.mp hr).1
  · exact fun r hr q hq => h.apart r (mem_view.mp hr).1 q (mem_view.mp hq).1
  · intro r hr k hk
    obtain ⟨hr, hro⟩ := mem_view.mp hr
    obtain ⟨q, hq, hqk, hqo⟩ := h.refs r hr k hk
    exact ⟨q, mem_view.mpr ⟨hq, hqo.trans hro⟩, hqk, hqo⟩
  · intro r hr k hk
    obtain ⟨hd, hm⟩ := h.names r (mem_view.mp hr).1 k hk
    exact ⟨hd, fun q hq => hm q (mem_view.mp hq).1⟩

end Schema

end Relational
