import Mathlib.Data.List.Forall2
import IkelyaneMonitor.Relational.Owners

/-!
# Requests that take effect one at a time

* `rowAt`, `settings` : the row of a key; what is kept of it, once the columns that no request answers for are blanked;
* `Change`, `Change.apply` : what a request asks for, on the settings as a whole; `Does w c` : write `w` is change `c` if it
  hits a row; `Unrecorded w` : a write that leaves the settings;
* `Settles` : a call that commits its change once, with its entry, and tells in its value that it did;
* `Linearizes s c order` : the requests of `order` have succeeded, no others have; the log of `c` has their entries in this
  order, and its settings are those of `s` after their changes;
* `linearizable` : there is such an order in any run of such calls, and it only grows.
-/

namespace Relational
open Interleave

variable {ι ρ κ δ ε α β : Type} [DecidableEq κ]

inductive Change (ρ κ : Type) where
  | put (r : ρ)
  | edit (k : κ) (f : ρ → ρ)
  | drop (k : κ)

namespace Schema

variable (S : Schema ρ κ δ) (blank : ρ → ρ)

def rowAt (k : κ) (rows : List ρ) : Option ρ := rows.find? fun r => S.key r == k

def settings (rows : List ρ) (k : κ) : Option ρ := (S.rowAt k rows).map blank

/-- A row that is dropped takes along those that cannot do without it. -/
def apply : Change ρ κ → (κ → Option ρ) → κ → Option ρ
  | .put r, m => Function.update m (S.key r) (some r)
  | .edit k f, m => Function.update m k ((m k).map f)
  | .drop k, m => fun k' => (m k').bind (S.without k)

def Does : Write ρ κ → Change ρ κ → Prop
  | .insert r, .put r' => r' = blank r
  | .update k p f, .edit k' g => k' = k ∧ ∀ r, S.key r = k → p r = true → S.key (f r) = k ∧ blank (f r) = g (blank r)
  | .delete k _, .drop k' => k' = k
  | _, _ => False

def Unrecorded : Write ρ κ → Prop
  | .update k p f => ∀ r, S.key r = k → p r = true → S.key (f r) = k ∧ blank (f r) = blank r
  | _ => False

/-- Blanking a row leaves its key and its references. -/
structure Blanks : Prop where
  key : ∀ r, S.key (blank r) = S.key r
  without : ∀ k r, S.without k (blank r) = (S.without k r).map blank

/-- One row a key, and no key that was not drawn. -/
structure Keyed (rows : List ρ) (drawn : List κ) : Prop where
  nodup : (rows.map S.key).Nodup
  isDrawn : ∀ r ∈ rows, S.key r ∈ drawn

variable {S blank} {rows rows' : List ρ} {drawn : List κ} {k : κ} {n : Nat}

theorem rowAt_eq_some (h : (rows.map S.key).Nodup) {r : ρ} : S.rowAt k rows = some r ↔ r ∈ rows ∧ S.key r = k := by
  constructor
  · intro hr
    exact ⟨List.mem_of_find?_eq_some hr, by simpa using List.find?_some hr⟩
  · rintro ⟨hr, rfl⟩
    cases hf : S.rowAt (S.key r) rows with
    | none => simpa using List.find?_eq_none.mp hf r hr
    | some q =>
        have hk : S.key q = S.key r := by simpa using List.find?_some hf
        rw [List.inj_on_of_nodup_map h (List.mem_of_find?_eq_some hf) hr hk]

theorem rowAt_key {r : ρ} (h : S.rowAt k rows = some r) : S.key r = k := by simpa using List.find?_some h

theorem rowAt_map {f : ρ → ρ} (hf : ∀ r ∈ rows, S.key (f r) = S.key r) : S.rowAt k (rows.map f) = (S.rowAt k rows).map f := by
  have hkey : rows.find? ((fun r => S.key r == k) ∘ f) = rows.find? fun r => S.key r == k :=
    List.find?_congr fun r hr => by simp [hf r hr]
  rw [rowAt, List.find?_map, hkey]
  rfl

theorem rowAt_without (h : (rows.map S.key).Nodup) (k' : κ) :
    S.rowAt k (rows.filterMap (S.without k')) = (S.rowAt k rows).bind (S.without k') := by
  induction rows with
  | nil => rfl
  | cons r rows ih =>
      rw [List.map_cons, List.nodup_cons] at h
      by_cases hk : S.key r = k
      · have hnone : S.rowAt k rows = none := by
          refine List.find?_eq_none.mpr fun q hq hqk => h.1 ?_
          rw [hk, ← eq_of_beq hqk]
          exact List.mem_map_of_mem hq
        have hhead : S.rowAt k (r :: rows) = some r := List.find?_cons_of_pos (by simpa using hk)
        rw [hhead, Option.bind_some]
        cases hw : S.without k' r with
        | none =>
            rw [List.filterMap_cons_none hw, ih h.2, hnone]
            rfl
        | some r' =>
            rw [List.filterMap_cons_some hw]
            exact List.find?_cons_of_pos (by simpa [without_key hw] using hk)
      · have hhead : S.rowAt k (r :: rows) = S.rowAt k rows := List.find?_cons_of_neg (by simpa using hk)
        rw [hhead, ← ih h.2]
        cases hw : S.without k' r with
        | none => rw [List.filterMap_cons_none hw]
        | some r' =>
            rw [List.filterMap_cons_some hw]
            exact List.find?_cons_of_neg (by simpa [without_key hw] using hk)

theorem settings_of_mem (h : (rows.map S.key).Nodup) {r : ρ} (hr : r ∈ rows) :
    S.settings blank rows (S.key r) = some (blank r) := by
  rw [settings, (rowAt_eq_some h).mpr ⟨hr, rfl⟩, Option.map_some]

/-- Where a row comes from. -/
theorem apply_eq_some {c : Change ρ κ} {m : κ → Option ρ} {r : ρ} (h : S.apply c m k = some r) :
    m k = some r ∨ (c = .put r ∧ k = S.key r) ∨ (∃ f q, c = .edit k f ∧ m k = some q ∧ r = f q) ∨
      ∃ k' q, c = .drop k' ∧ m k = some q ∧ S.without k' q = some r := by
  cases c with
  | put q =>
      by_cases hk : k = S.key q
      · subst hk
        rw [apply, Function.update_self, Option.some.injEq] at h
        exact .inr (.inl ⟨by rw [h], by rw [h]⟩)
      · rw [apply, Function.update_of_ne hk] at h
        exact .inl h
  | edit k' f =>
      by_cases hk : k = k'
      · subst hk
        rw [apply, Function.update_self, Option.map_eq_some_iff] at h
        obtain ⟨q, hq, rfl⟩ := h
        exact .inr (.inr (.inl ⟨f, q, rfl, hq, rfl⟩))
      · rw [apply, Function.update_of_ne hk] at h
        exact .inl h
  | drop k' =>
      obtain ⟨q, hq, hqr⟩ := Option.bind_eq_some_iff.mp h
      exact .inr (.inr (.inr ⟨k', q, rfl, hq, hqr⟩))

theorem without_of_unrelated {r : ρ} (hk : S.key r ≠ k) (href : k ∉ S.refs r) : S.without k r = some r := by
  rw [without, if_neg hk, if_neg href]

/-- The rows of one owner, by key. -/
theorem rowAt_view [DecidableEq δ] (h : (rows.map S.key).Nodup) (d : δ) :
    S.rowAt k (S.view d rows) = (S.rowAt k rows).filter fun r => S.owner r = d := by
  have hview : ((S.view d rows).map S.key).Nodup := h.sublist (List.filter_sublist.map _)
  refine Option.ext fun r => ?_
  simp only [rowAt_eq_some hview, Option.filter_eq_some_iff, rowAt_eq_some h, mem_view, decide_eq_true_eq]
  tauto

theorem settings_view [DecidableEq δ] (hb : ∀ r, S.owner (blank r) = S.owner r) (h : (rows.map S.key).Nodup) (d : δ) :
    S.settings blank (S.view d rows) k = (S.settings blank rows k).filter fun r => S.owner r = d := by
  rw [settings, settings, rowAt_view h]
  cases S.rowAt k rows with
  | none => rfl
  | some r =>
      by_cases hd : S.owner r = d <;> simp [Option.filter, hb, hd]

/-- An update that keeps the key of the row it hits. -/
def KeepsKey (S : Schema ρ κ δ) : Write ρ κ → Prop
  | .update k p f => ∀ r, S.key r = k → p r = true → S.key (f r) = k
  | _ => True

theorem patch_key {p : ρ → Bool} {f : ρ → ρ} (h : ∀ r, S.key r = k → p r = true → S.key (f r) = k) (r : ρ) :
    S.key (S.patch k p f r) = S.key r := by
  unfold patch
  split
  · rename_i hc
    exact (h r hc.1 hc.2).trans hc.1.symm
  · rfl

theorem Keyed.perform {w : Write ρ κ} (h : S.Keyed rows drawn) (hw : S.KeepsKey w)
    (hnew : ∀ k, w.draws S.key = some k → k ∉ drawn) (hp : S.perform w rows = some (rows', n)) :
    S.Keyed rows' (S.draw w drawn) := by
  cases w with
  | insert r =>
      simp only [Schema.perform, Option.ite_none_right_eq_some, Option.some.injEq, Prod.mk.injEq] at hp
      obtain ⟨-, rfl, -⟩ := hp
      refine ⟨?_, fun q hq => ?_⟩
      · rw [List.map_append, List.map_singleton]
        refine List.Nodup.append h.nodup (List.nodup_singleton _) fun k hk hk' => ?_
        obtain ⟨q, hq, rfl⟩ := List.mem_map.mp hk
        exact hnew _ rfl (List.mem_singleton.mp hk' ▸ h.isDrawn q hq)
      · rcases List.mem_append.mp hq with hq | hq
        · exact List.mem_cons_of_mem _ (h.isDrawn q hq)
        · rw [List.mem_singleton.mp hq]
          exact List.mem_cons_self
  | update k p f =>
      simp only [Schema.perform] at hp
      split at hp
      · cases hp
        exact h
      · simp only [Option.ite_none_right_eq_some, Option.some.injEq, Prod.mk.injEq] at hp
        obtain ⟨-, rfl, -⟩ := hp
        have hkeys : (rows.map (S.patch k p f)).map S.key = rows.map S.key := by
          rw [List.map_map]
          exact List.map_congr_left fun r _ => patch_key hw r
        refine ⟨hkeys ▸ h.nodup, fun q hq => ?_⟩
        obtain ⟨r, hr, rfl⟩ := List.mem_map.mp hq
        rw [patch_key hw]
        exact h.isDrawn r hr
  | delete k p =>
      simp only [Schema.perform] at hp
      split at hp
      · cases hp
        exact h
      · cases hp
        refine ⟨?_, fun q hq => ?_⟩
        · exact h.nodup.sublist (without_sublist k)
        · obtain ⟨r, hr, hrq⟩ := List.mem_filterMap.mp hq
          rw [without_key hrq]
          exact h.isDrawn r hr

omit [DecidableEq κ] in
theorem Does.keepsKey {w : Write ρ κ} {c : Change ρ κ} (h : S.Does blank w c) : S.KeepsKey w := by
  cases w with
  | insert r => trivial
  | update k p f =>
      cases c with
      | put r => exact h.elim
      | edit k' g => exact fun r hr hp => (h.2 r hr hp).1
      | drop k' => exact h.elim
  | delete k p => trivial

omit [DecidableEq κ] in
theorem Unrecorded.keepsKey {w : Write ρ κ} (h : S.Unrecorded blank w) : S.KeepsKey w := by
  cases w with
  | insert r => exact h.elim
  | update k p f => exact fun r hr hp => (h r hr hp).1
  | delete k p => exact h.elim

/-! ## What a write does to the settings -/

theorem settings_insert (h : S.Keyed rows drawn) {r : ρ} (hnew : S.key r ∉ drawn) (hb : S.Blanks blank) :
    S.settings blank (rows ++ [r]) = S.apply (.put (blank r)) (S.settings blank rows) := by
  funext k
  simp only [apply, hb.key, settings, rowAt, List.find?_append]
  by_cases hk : k = S.key r
  · subst hk
    have hnone : rows.find? (fun q => S.key q == S.key r) = none := by
      refine List.find?_eq_none.mpr fun q hq hqk => hnew ?_
      rw [← eq_of_beq hqk]
      exact h.isDrawn q hq
    simp [hnone]
  · have hne : ¬ S.key r = k := fun e => hk e.symm
    rw [Function.update_of_ne hk]
    simp [hne, settings, rowAt]

theorem settings_update (h : S.Keyed rows drawn) {k' : κ} {p : ρ → Bool} {f g : ρ → ρ} {r : ρ}
    (hhit : S.hit k' p rows = some r)
    (hf : ∀ r, S.key r = k' → p r = true → S.key (f r) = k' ∧ blank (f r) = g (blank r)) :
    S.settings blank (rows.map (S.patch k' p f)) = S.apply (.edit k' g) (S.settings blank rows) := by
  obtain ⟨hr, hrk, hrp⟩ := hit_eq_some hhit
  funext k
  rw [settings, rowAt_map fun q _ => patch_key (fun r hr hp => (hf r hr hp).1) q]
  simp only [apply, settings]
  by_cases hk : k = k'
  · subst hk
    have hrow : S.rowAt k rows = some r := (rowAt_eq_some h.nodup).mpr ⟨hr, hrk⟩
    simp [hrow, patch, hrk, hrp, (hf r hrk hrp).2]
  · rw [Function.update_of_ne hk, Option.map_map]
    refine Option.map_congr fun q hq => ?_
    have hqk : S.key q ≠ k' := fun e => hk ((rowAt_key hq).symm.trans e)
    simp [patch, hqk]

theorem settings_delete (h : S.Keyed rows drawn) (k' : κ) (hb : S.Blanks blank) :
    S.settings blank (rows.filterMap (S.without k')) = S.apply (.drop k') (S.settings blank rows) := by
  funext k
  simp only [apply, settings, rowAt_without h.nodup]
  cases S.rowAt k rows with
  | none => rfl
  | some q => exact (hb.without k' q).symm

/-- A write that hit a row. -/
theorem settings_perform (hb : S.Blanks blank) {w : Write ρ κ} (h : S.Keyed rows drawn)
    (hnew : ∀ k, w.draws S.key = some k → k ∉ drawn) (hp : S.perform w rows = some (rows', 1)) {c : Change ρ κ}
    (hw : S.Does blank w c) : S.settings blank rows' = S.apply c (S.settings blank rows) := by
  cases w with
  | insert r =>
      simp only [perform, Option.ite_none_right_eq_some, Option.some.injEq, Prod.mk.injEq] at hp
      obtain ⟨-, rfl, -⟩ := hp
      cases c with
      | put r' =>
          obtain rfl := hw
          exact settings_insert h (hnew _ rfl) hb
      | edit k f => exact hw.elim
      | drop k => exact hw.elim
  | update k' p f =>
      simp only [perform] at hp
      split at hp
      · simp at hp
      rename_i r hhit
      simp only [Option.ite_none_right_eq_some, Option.some.injEq, Prod.mk.injEq] at hp
      obtain ⟨-, rfl, -⟩ := hp
      cases c with
      | put r' => exact hw.elim
      | edit k g =>
          obtain ⟨rfl, hf⟩ := hw
          exact settings_update h hhit hf
      | drop k => exact hw.elim
  | delete k' p =>
      simp only [perform] at hp
      split at hp
      · simp at hp
      cases hp
      cases c with
      | put r' => exact hw.elim
      | edit k g => exact hw.elim
      | drop k =>
          obtain rfl := hw
          exact settings_delete h _ hb

/-- A write that hit no row. -/
theorem perform_zero {w : Write ρ κ} (hp : S.perform w rows = some (rows', 0)) : rows' = rows := by
  cases w with
  | insert r => simp [perform] at hp
  | update k p f =>
      simp only [perform] at hp
      split at hp
      · cases hp
        rfl
      · simp at hp
  | delete k p =>
      simp only [perform] at hp
      split at hp
      · cases hp
        rfl
      · simp at hp

theorem perform_le_one {w : Write ρ κ} (hp : S.perform w rows = some (rows', n)) : n = 0 ∨ n = 1 := by
  cases w <;> simp only [perform] at hp <;> split at hp <;> simp_all

theorem settings_unrecorded {w : Write ρ κ} (hp : S.perform w rows = some (rows', n)) (hw : S.Unrecorded blank w) :
    S.settings blank rows' = S.settings blank rows := by
  cases w with
  | insert r => exact hw.elim
  | delete k' p => exact hw.elim
  | update k' p f =>
      simp only [perform] at hp
      split at hp
      · cases hp
        rfl
      simp only [Option.ite_none_right_eq_some, Option.some.injEq, Prod.mk.injEq] at hp
      obtain ⟨-, rfl, -⟩ := hp
      funext k
      rw [settings, rowAt_map fun q _ => patch_key hw.keepsKey q, Option.map_map, settings]
      refine Option.map_congr fun q _ => ?_
      simp only [Function.comp, patch]
      split
      · exact (hw q (And.left ‹_›) (And.right ‹_›)).2
      · rfl

/-- Writes that no entry tells of, one after another. -/
theorem settings_performAll {ws : List (Write ρ κ)} (h : S.Keyed rows drawn) (hfresh : S.fresh ws drawn = true)
    (hp : S.performAll ws rows = some (rows', n)) (hws : ∀ w ∈ ws, S.Unrecorded blank w) :
    S.Keyed rows' (S.drawAll ws drawn) ∧ S.settings blank rows' = S.settings blank rows := by
  induction ws generalizing rows drawn n with
  | nil =>
      cases hp
      exact ⟨h, rfl⟩
  | cons w ws ih =>
      obtain ⟨rows₁, n₁, n₂, h₁, h₂, rfl⟩ := performAll_cons hp
      obtain ⟨hnew, hfresh⟩ := fresh_cons hfresh
      have hw := hws w List.mem_cons_self
      obtain ⟨h', hst⟩ := ih (h.perform hw.keepsKey hnew h₁) hfresh h₂ fun v hv => hws v (List.mem_cons_of_mem _ hv)
      exact ⟨h', hst.trans (settings_unrecorded h₁ hw)⟩

end Schema

/-! ## Calls that commit once -/

/-- What a request does if it succeeds: its change, the entries it may leave, and the values that tell so. -/
structure Effect (ρ κ ε α : Type) where
  change : Option (Change ρ κ)
  entry : ε → Prop
  done : α → Prop

/-- The same effect, told by the values that `f` maps. -/
def Effect.comap (f : α → β) (E : Effect ρ κ ε β) : Effect ρ κ ε α := ⟨E.change, E.entry, fun a => E.done (f a)⟩

section Calls
variable (S : Schema ρ κ δ) (blank : ρ → ρ)

def Settles (E : Effect ρ κ ε α) : Call ρ κ ε α → Prop
  | .ret a => ¬ E.done a
  | .stmt .select k => ∀ s, Settles E (k s)
  | .stmt (.commit ws none) k => (∀ w ∈ ws, S.Unrecorded blank w) ∧ ∀ s, Settles E (k s)
  | .stmt (.commit ws (some e)) k => E.entry e ∧ (∃ w c, ws = [w] ∧ E.change = some c ∧ S.Does blank w c) ∧
      ∀ s, ∃ a, k s = .ret a ∧ (E.done a ↔ (S.performAll ws s.rows).map Prod.snd = some ws.length)

/-- The request's change, if it has one. -/
def Effect.apply (E : Effect ρ κ ε α) (m : κ → Option ρ) : κ → Option ρ := E.change.elim m fun c => S.apply c m

structure Linearizes (E : ι → Effect ρ κ ε α) (s : Store ρ κ ε) (c : Conf ι (Stmt ρ κ ε) (Store ρ κ ε) α) (order : List ι) :
    Prop where
  nodup : order.Nodup
  succeeded : ∀ i, i ∈ order ↔ ∃ a, c.calls i = .ret a ∧ (E i).done a
  log : ∃ entries, c.store.log = s.log ++ entries ∧ List.Forall₂ (fun i e => (E i).entry e) order entries
  settings : S.settings blank c.store.rows = order.foldl (fun m i => (E i).apply S m) (S.settings blank s.rows)

variable {S blank} {E : Effect ρ κ ε α}

theorem Settles.map {f : β → α} {p : Call ρ κ ε β} (h : Settles S blank (E.comap f) p) : Settles S blank E (p.map f) := by
  induction p with
  | ret b => exact h
  | stmt w k ih =>
      cases w with
      | select => exact fun s => ih s (h s)
      | commit ws entry =>
          cases entry with
          | none => exact ⟨h.1, fun s => ih s (h.2 s)⟩
          | some e =>
              refine ⟨h.1, h.2.1, fun s => ?_⟩
              obtain ⟨b, hb, hdone⟩ := h.2.2 s
              refine ⟨f b, ?_, hdone⟩
              dsimp only
              rw [hb, Prog.map]

/-- A call that fails half-way succeeds only if it is already done. -/
theorem Settles.failAt {lost : α} (hlost : ¬ E.done lost) {p : Call ρ κ ε α} (h : Settles S blank E p) (n : Nat) :
    Settles S blank E (p.failAt .select lost n) := by
  induction p generalizing n with
  | ret a =>
      rw [Prog.failAt_ret]
      exact h
  | stmt w k ih =>
      cases n with
      | zero => exact fun _ => hlost
      | succ n =>
          cases w with
          | select => exact fun s => ih s (h s) n
          | commit ws entry =>
              cases entry with
              | none => exact ⟨h.1, fun s => ih s (h.2 s) n⟩
              | some e =>
                  refine ⟨h.1, h.2.1, fun s => ?_⟩
                  obtain ⟨a, ha, hdone⟩ := h.2.2 s
                  refine ⟨a, ?_, hdone⟩
                  dsimp only
                  rw [ha, Prog.failAt_ret]

/-! ## The order -/

variable [DecidableEq ι] {F : ι → Effect ρ κ ε α} {s : Store ρ κ ε} {c c' : Conf ι (Stmt ρ κ ε) (Store ρ κ ε) α}
  {order : List ι}

/-- What carries the order from one statement to the next. -/
structure Ordered (S : Schema ρ κ δ) (blank : ρ → ρ) (E : ι → Effect ρ κ ε α) (s : Store ρ κ ε)
    (c : Conf ι (Stmt ρ κ ε) (Store ρ κ ε) α) (order : List ι) : Prop where
  linearizes : Linearizes S blank E s c order
  keyed : S.Keyed c.store.rows c.store.drawn
  calls : ∀ i, i ∉ order → Settles S blank (E i) (c.calls i)

omit [DecidableEq ι] in
theorem Ordered.init {calls : ι → Call ρ κ ε α} (hcalls : ∀ i, Settles S blank (F i) (calls i))
    (hs : S.Keyed s.rows s.drawn) : Ordered S blank F s ⟨s, calls⟩ [] := by
  refine ⟨⟨List.nodup_nil, fun i => ⟨fun h => absurd h List.not_mem_nil, ?_⟩, ⟨[], (List.append_nil _).symm, .nil⟩, rfl⟩, hs,
    fun i _ => hcalls i⟩
  rintro ⟨a, ha, hdone⟩
  have hi := hcalls i
  dsimp only at ha
  rw [ha] at hi
  exact absurd hdone hi

/-- A statement of a call that has not succeeded, and does not with it. -/
theorem Ordered.pass (h : Ordered S blank F s c order) {i : ι} (hi : i ∉ order) {s' : Store ρ κ ε} {p : Call ρ κ ε α}
    (hp : Settles S blank (F i) p) (hkeyed : S.Keyed s'.rows s'.drawn) (hlog : s'.log = c.store.log)
    (hsettings : S.settings blank s'.rows = S.settings blank c.store.rows) :
    Ordered S blank F s ⟨s', Function.update c.calls i p⟩ order := by
  obtain ⟨⟨hnodup, hsucc, hent, hset⟩, -, hcalls⟩ := h
  refine ⟨⟨hnodup, fun j => ?_, by rw [hlog]; exact hent, hsettings.trans hset⟩, hkeyed, fun j hj => ?_⟩
  · by_cases hji : j = i
    · subst hji
      simp only [Function.update_self]
      refine ⟨fun hj => absurd hj hi, ?_⟩
      rintro ⟨a, rfl, hdone⟩
      exact absurd hdone hp
    · simp only [Function.update_of_ne hji]
      exact hsucc j
  · by_cases hji : j = i
    · subst hji
      simpa only [Function.update_self] using hp
    · simp only [Function.update_of_ne hji]
      exact hcalls j hj

/-- The commit that makes a call succeed. -/
theorem Ordered.succeed (h : Ordered S blank F s c order) {i : ι} (hi : i ∉ order) {s' : Store ρ κ ε} {a : α}
    (hdone : (F i).done a) (hkeyed : S.Keyed s'.rows s'.drawn) {e : ε} (he : (F i).entry e)
    (hlog : s'.log = c.store.log ++ [e])
    (hsettings : S.settings blank s'.rows = (F i).apply S (S.settings blank c.store.rows)) :
    Ordered S blank F s ⟨s', Function.update c.calls i (.ret a)⟩ (order ++ [i]) := by
  obtain ⟨⟨hnodup, hsucc, ⟨entries, hentries, hforall⟩, hset⟩, -, hcalls⟩ := h
  refine ⟨⟨?_, fun j => ?_, ⟨entries ++ [e], ?_, List.rel_append hforall (.cons he .nil)⟩, ?_⟩, hkeyed, fun j hj => ?_⟩
  · exact List.nodup_append.mpr ⟨hnodup, List.nodup_singleton i, fun j hj k hk hjk =>
      hi (List.mem_singleton.mp hk ▸ hjk ▸ hj)⟩
  · rw [List.mem_append, List.mem_singleton]
    by_cases hji : j = i
    · subst hji
      simp [hdone]
    · simp only [Function.update_of_ne hji, hji, or_false]
      exact hsucc j
  · rw [hlog, hentries, List.append_assoc]
  · rw [hsettings, hset, List.foldl_append]
    rfl
  · rw [List.mem_append, List.mem_singleton, not_or] at hj
    simp only [Function.update_of_ne hj.2]
    exact hcalls j hj.1

omit [DecidableEq ι] in
/-- A statement of a call that settles: it leaves the settings and the log, or it makes the call succeed. -/
theorem Settles.step {E : Effect ρ κ ε α} (hb : S.Blanks blank) {i : ι} {w : Stmt ρ κ ε} {k : Store ρ κ ε → Call ρ κ ε α}
    {s s' : Store ρ κ ε} (h : Settles S blank E (.stmt w k)) (hs : S.Keyed s.rows s.drawn) (hsem : S.sem i w s = some s') :
    S.Keyed s'.rows s'.drawn ∧
      ((Settles S blank E (k s) ∧ s'.log = s.log ∧ S.settings blank s'.rows = S.settings blank s.rows) ∨
        ∃ v e a c, w = .commit [v] (some e) ∧ S.fresh [v] s.drawn = true ∧ S.perform v s.rows = some (s'.rows, 1) ∧
          k s = .ret a ∧ E.done a ∧ E.entry e ∧ s'.log = s.log ++ [e] ∧ E.change = some c ∧ S.Does blank v c ∧
          S.settings blank s'.rows = S.apply c (S.settings blank s.rows)) := by
  cases w with
  | select =>
      cases hsem
      exact ⟨hs, .inl ⟨h _, rfl, rfl⟩⟩
  | commit ws entry =>
      simp only [Schema.sem, Option.ite_none_right_eq_some] at hsem
      obtain ⟨hfresh, hsem⟩ := hsem
      cases entry with
      | none =>
          split at hsem
          · cases hsem
            exact ⟨hs, .inl ⟨h.2 _, rfl, rfl⟩⟩
          · rename_i rows n hp
            cases hsem
            obtain ⟨hkeyed, hsettings⟩ := Schema.settings_performAll hs hfresh hp h.1
            exact ⟨hkeyed, .inl ⟨h.2 _, by split <;> simp, hsettings⟩⟩
      | some e =>
          obtain ⟨he, ⟨v, ch, rfl, hch, hdoes⟩, hk⟩ := h
          obtain ⟨a, ha, hdone⟩ := hk s
          have hret : ¬ E.done a → Settles S blank E (k s) := by
            intro hd
            rw [ha]
            exact hd
          split at hsem
          · rename_i hp
            cases hsem
            exact ⟨hs, .inl ⟨hret (by simp [hdone, hp]), rfl, rfl⟩⟩
          · rename_i rows n hp
            cases hsem
            obtain ⟨rows₁, n₁, n₂, h₁, h₂, rfl⟩ := Schema.performAll_cons hp
            cases h₂
            obtain ⟨hnew, -⟩ := Schema.fresh_cons hfresh
            refine ⟨hs.perform hdoes.keepsKey hnew h₁, ?_⟩
            rcases Schema.perform_le_one h₁ with rfl | rfl
            · exact .inl ⟨hret (by simp [hdone, hp]), by simp, by rw [Schema.perform_zero h₁]⟩
            · exact .inr ⟨v, e, a, ch, rfl, hfresh, h₁, ha, hdone.mpr (by rw [hp]; rfl), he, by simp, hch, hdoes,
                Schema.settings_perform hb hs hnew h₁ hdoes⟩

/-- A statement that leaves the order, with the settings and the log, or adds the call that it makes succeed. -/
theorem Ordered.step (hb : S.Blanks blank) (h : Ordered S blank F s c order) {i : ι} (hs : c.step S.sem i = some c') :
    (Ordered S blank F s c' order ∧ c'.store.log = c.store.log ∧
        S.settings blank c'.store.rows = S.settings blank c.store.rows) ∨
      (Ordered S blank F s c' (order ++ [i]) ∧ ∃ v e k, c.calls i = .stmt (.commit [v] (some e)) k ∧
        S.fresh [v] c.store.drawn = true ∧ S.perform v c.store.rows = some (c'.store.rows, 1) ∧ (F i).entry e ∧
        c'.store.log = c.store.log ++ [e] ∧
        S.settings blank c'.store.rows = (F i).apply S (S.settings blank c.store.rows)) := by
  obtain ⟨w, k, s', hw, hsem, rfl⟩ := (Conf.step_eq_some _).mp hs
  have hi : i ∉ order := by
    intro hi
    obtain ⟨a, ha, -⟩ := (h.linearizes.succeeded i).mp hi
    rw [hw] at ha
    cases ha
  have hcall := h.calls i hi
  rw [hw] at hcall
  obtain ⟨hkeyed, ⟨hk, hlog, hsettings⟩ | ⟨v, e, a, ch, rfl, hfresh, hp, ha, hdone, he, hlog, hch, -, hsettings⟩⟩ :=
    hcall.step hb h.keyed hsem
  · exact .inl ⟨h.pass hi hk hkeyed hlog hsettings, hlog, hsettings⟩
  · have happly : S.settings blank s'.rows = (F i).apply S (S.settings blank c.store.rows) := by
      rw [hsettings, Effect.apply, hch, Option.elim_some]
    refine .inr ⟨?_, v, e, k, hw, hfresh, hp, he, hlog, happly⟩
    rw [ha]
    exact h.succeed hi hdone hkeyed he hlog happly

theorem Ordered.reach (hb : S.Blanks blank) (h : Ordered S blank F s c order)
    {ok : Conf ι (Stmt ρ κ ε) (Store ρ κ ε) α → ι → Prop} (hr : Reach S.sem ok c c') :
    ∃ more, Ordered S blank F s c' (order ++ more) := by
  induction hr with
  | refl => exact ⟨[], by rwa [List.append_nil]⟩
  | @step _ _ i _ _ hs ih =>
      obtain ⟨more, hm⟩ := ih
      rcases hm.step hb hs with ⟨h', -⟩ | ⟨h', -⟩
      · exact ⟨more, h'⟩
      · exact ⟨more ++ [i], by rwa [← List.append_assoc]⟩

/-- One order for the whole run: what has succeeded by `c` comes before what succeeds later. -/
theorem linearizable (hb : S.Blanks blank) {calls : ι → Call ρ κ ε α} (hcalls : ∀ i, Settles S blank (F i) (calls i))
    (hs : S.Keyed s.rows s.drawn) {ok : Conf ι (Stmt ρ κ ε) (Store ρ κ ε) α → ι → Prop} (h : Reach S.sem ok ⟨s, calls⟩ c)
    (h' : Reach S.sem ok c c') :
    ∃ order more, Linearizes S blank F s c order ∧ Linearizes S blank F s c' (order ++ more) := by
  obtain ⟨order, horder⟩ := (Ordered.init hcalls hs).reach hb h
  obtain ⟨more, hmore⟩ := horder.reach hb h'
  exact ⟨order, more, horder.linearizes, hmore.linearizes⟩

end Calls

end Relational
