import IkelyaneMonitor.Interleave.Noninterference
import IkelyaneMonitor.Relational.Schema

/-!
# Transactions of several owners over shared tables

* `Store`, `Stmt`, `sem` : the tables with a log of entries; a statement reads, or commits writes with an entry, which is kept
  when each of them hit one row. A commit that a constraint forbids changes nothing; a key is drawn once;
* `read`, `commit` : calls that go on with what they read, and with the number of rows they hit;
* `secure` : what the owners may see of each other: nothing (`Alike`). `Known d k` : what a call of `d` may go on counting on
  once it has seen the row of key `k`;
* `Sat.read`, `Sat.commit` : calls that read what is the same to their owner, and write within its rows;
* `isolated` : what the calls of one owner return, and what its rows and entries become, depends on these calls, their order
  and these rows alone; `sound_of_reach` : the invariant of the tables holds all along.
-/

namespace Relational
open Interleave

variable {ι ρ κ δ ε α β : Type}

structure Store (ρ κ ε : Type) where
  rows : List ρ
  /-- The keys drawn so far, those of deleted rows included. -/
  drawn : List κ
  /-- Oldest first. -/
  log : List ε

inductive Stmt (ρ κ ε : Type) where
  | select
  | commit (ws : List (Write ρ κ)) (entry : Option ε)

abbrev Call (ρ κ ε α : Type) := Prog (Stmt ρ κ ε) (Store ρ κ ε) α

def read (f : Store ρ κ ε → β) (k : β → Call ρ κ ε α) : Call ρ κ ε α := .stmt .select fun s => k (f s)

namespace Schema

variable [DecidableEq κ] (S : Schema ρ κ δ)

/-- The writes one after another, with the number of rows hit in all. -/
def performAll : List (Write ρ κ) → List ρ → Option (List ρ × Nat)
  | [], rows => some (rows, 0)
  | w :: ws, rows => (S.perform w rows).bind fun r => (performAll ws r.1).map fun r' => (r'.1, r.2 + r'.2)

/-- No write takes a key that was drawn before. -/
def fresh : List (Write ρ κ) → List κ → Bool
  | [], _ => true
  | w :: ws, drawn => (w.draws S.key).all (fun k => decide (k ∉ drawn)) && fresh ws (S.draw w drawn)

def drawAll : List (Write ρ κ) → List κ → List κ
  | [], drawn => drawn
  | w :: ws, drawn => drawAll ws (S.draw w drawn)

def commit (ws : List (Write ρ κ)) (entry : Option ε) (k : Option Nat → Call ρ κ ε α) : Call ρ κ ε α :=
  .stmt (.commit ws entry) fun s => k ((S.performAll ws s.rows).map Prod.snd)

def sem (_ : ι) : Stmt ρ κ ε → Store ρ κ ε → Option (Store ρ κ ε)
  | .select, s => some s
  | .commit ws entry, s =>
    if S.fresh ws s.drawn then
      match S.performAll ws s.rows with
      | none => some s
      | some (rows, n) => some ⟨rows, S.drawAll ws s.drawn, if n = ws.length then s.log ++ entry.toList else s.log⟩
    else none

/-- Each write stays with the rows of `d` as the ones before it leave them. -/
def WithinAll (d : δ) : List ρ → List κ → List (Write ρ κ) → Prop
  | _, _, [] => True
  | rows, drawn, w :: ws => S.Within d rows drawn w ∧
      ∀ rows' n, S.perform w rows = some (rows', n) → WithinAll d rows' (S.draw w drawn) ws

variable {S} {rows rows' : List ρ} {drawn drawn' : List κ} {ws : List (Write ρ κ)} {d : δ} {n : Nat}

theorem WithinAll.single {w : Write ρ κ} (h : S.Within d rows drawn w) : S.WithinAll d rows drawn [w] :=
  ⟨h, fun _ _ _ => trivial⟩

theorem WithinAll.of_forall (h : ∀ w ∈ ws, ∀ rows drawn, S.Within d rows drawn w) : S.WithinAll d rows drawn ws := by
  induction ws generalizing rows drawn with
  | nil => trivial
  | cons w ws ih =>
      exact ⟨h w List.mem_cons_self rows drawn, fun _ _ _ => ih fun v hv => h v (List.mem_cons_of_mem _ hv)⟩

omit [DecidableEq κ] in
theorem draw_mono {w : Write ρ κ} (h : drawn' ⊆ drawn) : S.draw w drawn' ⊆ S.draw w drawn := by
  unfold draw
  cases w.draws S.key with
  | none => exact h
  | some k => exact List.cons_subset_cons k h

omit [DecidableEq κ] in
theorem subset_draw {w : Write ρ κ} : drawn ⊆ S.draw w drawn := by
  unfold draw
  cases w.draws S.key with
  | none => exact List.Subset.refl _
  | some k => exact List.subset_cons_self k drawn

theorem fresh_mono (h : drawn' ⊆ drawn) (hfresh : S.fresh ws drawn = true) : S.fresh ws drawn' = true := by
  induction ws generalizing drawn drawn' with
  | nil => rfl
  | cons w ws ih =>
      rw [fresh, Bool.and_eq_true] at hfresh ⊢
      refine ⟨?_, ih (draw_mono h) hfresh.2⟩
      cases hw : w.draws S.key with
      | none => rfl
      | some k =>
          have hk := hfresh.1
          simp only [hw, Option.all_some, decide_eq_true_eq] at hk ⊢
          exact fun hk' => hk (h hk')

omit [DecidableEq κ] in
theorem drawAll_mono (h : drawn' ⊆ drawn) : S.drawAll ws drawn' ⊆ S.drawAll ws drawn := by
  induction ws generalizing drawn drawn' with
  | nil => exact h
  | cons w ws ih => exact ih (draw_mono h)

omit [DecidableEq κ] in
theorem subset_drawAll : drawn ⊆ S.drawAll ws drawn := by
  induction ws generalizing drawn with
  | nil => exact List.Subset.refl _
  | cons w ws ih => exact List.Subset.trans subset_draw ih

/-- What the writes of a commit have in common with one of them. -/
theorem performAll_cons {w : Write ρ κ} (h : S.performAll (w :: ws) rows = some (rows', n)) :
    ∃ rows₁ n₁ n₂, S.perform w rows = some (rows₁, n₁) ∧ S.performAll ws rows₁ = some (rows', n₂) ∧ n = n₁ + n₂ := by
  simp only [performAll, Option.bind_eq_some_iff, Option.map_eq_some_iff, Prod.mk.injEq] at h
  obtain ⟨⟨rows₁, n₁⟩, h₁, ⟨rows₂, n₂⟩, h₂, rfl, rfl⟩ := h
  exact ⟨rows₁, n₁, n₂, h₁, h₂, rfl⟩

theorem fresh_cons {w : Write ρ κ} (h : S.fresh (w :: ws) drawn = true) :
    (∀ k, w.draws S.key = some k → k ∉ drawn) ∧ S.fresh ws (S.draw w drawn) = true := by
  rw [fresh, Bool.and_eq_true] at h
  refine ⟨fun k hk => ?_, h.2⟩
  have hall := h.1
  rw [hk] at hall
  simpa using hall

theorem performAll_sound (h : S.Sound rows drawn) (hfresh : S.fresh ws drawn = true) (hw : S.WithinAll d rows drawn ws)
    (hp : S.performAll ws rows = some (rows', n)) : S.Sound rows' (S.drawAll ws drawn) := by
  induction ws generalizing rows drawn n with
  | nil =>
      cases hp
      exact h
  | cons w ws ih =>
      obtain ⟨rows₁, n₁, n₂, h₁, h₂, rfl⟩ := performAll_cons hp
      obtain ⟨hnew, hfresh⟩ := fresh_cons hfresh
      exact ih (perform_sound h hnew hw.1 h₁) hfresh (hw.2 _ _ h₁) h₂

theorem performAll_view [DecidableEq δ] (h : S.Sound rows drawn) (hfresh : S.fresh ws drawn = true)
    (hw : S.WithinAll d rows drawn ws) :
    S.performAll ws (S.view d rows) = (S.performAll ws rows).map fun r => (S.view d r.1, r.2) := by
  induction ws generalizing rows drawn with
  | nil => rfl
  | cons w ws ih =>
      rw [performAll, performAll, perform_view h hw.1]
      cases hp : S.perform w rows with
      | none => rfl
      | some r =>
          obtain ⟨hnew, hfresh⟩ := fresh_cons hfresh
          simp only [Option.map_some, Option.bind_some, Option.map_map, Function.comp_def,
            ih (perform_sound h hnew hw.1 hp) hfresh (hw.2 _ _ hp)]

theorem performAll_others [DecidableEq δ] (h : S.Sound rows drawn) (hfresh : S.fresh ws drawn = true)
    (hw : S.WithinAll d rows drawn ws) (hp : S.performAll ws rows = some (rows', n)) {e : δ} (he : e ≠ d) :
    S.view e rows' = S.view e rows := by
  induction ws generalizing rows drawn n with
  | nil =>
      cases hp
      rfl
  | cons w ws ih =>
      obtain ⟨rows₁, n₁, n₂, h₁, h₂, rfl⟩ := performAll_cons hp
      obtain ⟨hnew, hfresh⟩ := fresh_cons hfresh
      rw [ih (perform_sound h hnew hw.1 h₁) hfresh (hw.2 _ _ h₁) h₂]
      exact perform_others h hw.1 h₁ he

/-- A row comes from the row of its key, or its key is a new one. -/
theorem perform_rows {w : Write ρ κ} (hw : S.Within d rows drawn w) (hp : S.perform w rows = some (rows', n)) :
    ∀ r' ∈ rows', w.draws S.key = some (S.key r') ∨ ∃ r ∈ rows, S.key r = S.key r' ∧ S.owner r = S.owner r' := by
  intro r' hr'
  cases w with
  | insert r =>
      simp only [perform, Option.ite_none_right_eq_some, Option.some.injEq, Prod.mk.injEq] at hp
      obtain ⟨-, rfl, -⟩ := hp
      rcases List.mem_append.mp hr' with hr' | hr'
      · exact .inr ⟨r', hr', rfl, rfl⟩
      · rw [List.mem_singleton.mp hr']
        exact .inl rfl
  | update k p f =>
      simp only [perform] at hp
      split at hp
      · cases hp
        exact .inr ⟨r', hr', rfl, rfl⟩
      · simp only [Option.ite_none_right_eq_some, Option.some.injEq, Prod.mk.injEq] at hp
        obtain ⟨-, rfl, -⟩ := hp
        obtain ⟨r, hr, rfl⟩ := List.mem_map.mp hr'
        exact .inr ⟨r, hr, (hw.patch hr).1.symm, (hw.patch hr).2.symm⟩
  | delete k p =>
      simp only [perform] at hp
      split at hp
      · cases hp
        exact .inr ⟨r', hr', rfl, rfl⟩
      · cases hp
        obtain ⟨r, hr, hrr'⟩ := List.mem_filterMap.mp hr'
        exact .inr ⟨r, hr, (without_key hrr').symm, (without_owner hrr').symm⟩

theorem performAll_rows (h : S.Sound rows drawn) (hfresh : S.fresh ws drawn = true) (hw : S.WithinAll d rows drawn ws)
    (hp : S.performAll ws rows = some (rows', n)) :
    ∀ r' ∈ rows', S.key r' ∈ drawn → ∃ r ∈ rows, S.key r = S.key r' ∧ S.owner r = S.owner r' := by
  induction ws generalizing rows drawn n with
  | nil =>
      cases hp
      exact fun r' hr' _ => ⟨r', hr', rfl, rfl⟩
  | cons w ws ih =>
      obtain ⟨rows₁, n₁, n₂, h₁, h₂, rfl⟩ := performAll_cons hp
      obtain ⟨hnew, hfresh⟩ := fresh_cons hfresh
      intro r' hr' hd
      obtain ⟨r₁, hr₁, hk₁, ho₁⟩ := ih (perform_sound h hnew hw.1 h₁) hfresh (hw.2 _ _ h₁) h₂ r' hr' (subset_draw hd)
      rcases perform_rows hw.1 h₁ r₁ hr₁ with hdraw | ⟨r, hr, hk, ho⟩
      · exact absurd (hk₁ ▸ hd) (hnew _ hdraw)
      · exact ⟨r, hr, hk.trans hk₁, ho.trans ho₁⟩

end Schema

/-! ## What the owners see of each other -/

section Secure
variable [DecidableEq κ] [DecidableEq δ] (S : Schema ρ κ δ) (entryOwner : ε → δ) (owner : ι → δ)

/-- The second store has the same rows and entries of `d`, and no key that the first has not. -/
structure Alike (d : δ) (s t : Store ρ κ ε) : Prop where
  rows : S.view d t.rows = S.view d s.rows
  log : t.log.filter (fun e => entryOwner e = d) = s.log.filter fun e => entryOwner e = d
  drawn : t.drawn ⊆ s.drawn

def secure : Secure ι (Stmt ρ κ ε) (Store ρ κ ε) δ where
  owner := owner
  inv := fun s => S.Sound s.rows s.drawn
  alike := Alike S entryOwner
  rely := fun s s' => s.drawn ⊆ s'.drawn ∧
    ∀ r' ∈ s'.rows, S.key r' ∈ s.drawn → ∃ r ∈ s.rows, S.key r = S.key r' ∧ S.owner r = S.owner r'
  alike_refl := fun _ _ => ⟨rfl, rfl, List.Subset.refl _⟩
  rely_refl := fun _ => ⟨List.Subset.refl _, fun r hr _ => ⟨r, hr, rfl, rfl⟩⟩

/-- The row of this key is of `d`, or was. -/
def Known (d : δ) (k : κ) (s : Store ρ κ ε) : Prop := k ∈ s.drawn ∧ S.Mine d k s.rows

variable {S entryOwner owner} {i : ι} {P : Store ρ κ ε → Prop}

omit [DecidableEq κ] in
theorem Known.stable (d : δ) (k : κ) : (secure S entryOwner owner).Stable (Known S d k) := by
  intro s s' _ hrely hk
  refine ⟨hrely.1 hk.1, fun r' hr' hrk => ?_⟩
  obtain ⟨r, hr, hkey, howner⟩ := hrely.2 r' hr' (hrk ▸ hk.1)
  exact howner ▸ hk.2 r hr (hkey.trans hrk)

omit [DecidableEq κ] [DecidableEq δ] in
/-- A row of `d` that was found. -/
theorem Known.of_mem {s : Store ρ κ ε} {r : ρ} (hs : S.Sound s.rows s.drawn) (hr : r ∈ s.rows) :
    Known S (S.owner r) (S.key r) s :=
  ⟨hs.isDrawn r hr, fun q hq hk => by rw [hs.eq_of_key hq hr hk]⟩

theorem Sat.read {f : Store ρ κ ε → β} {k : β → Call ρ κ ε α} {Q : β → Store ρ κ ε → Prop}
    (hf : ∀ s t, P s → P t → S.Sound s.rows s.drawn → S.Sound t.rows t.drawn → Alike S entryOwner (owner i) s t → f t = f s)
    (hQ : ∀ s, S.Sound s.rows s.drawn → P s → Q (f s) s) (hstable : ∀ b, (secure S entryOwner owner).Stable (Q b))
    (hk : ∀ b, (secure S entryOwner owner).Sat S.sem i (k b) (Q b)) :
    (secure S entryOwner owner).Sat S.sem i (read f k) P := by
  intro s hs hP
  refine ⟨⟨?_, ?_, ?_⟩, Q (f s), hstable _, hk _, ?_⟩
  · intro s' h
    cases h
    exact hs
  · intro s' h
    cases h
    exact (secure S entryOwner owner).rely_refl s
  · intro s' h d hd t ht halike
    cases h
    exact halike
  · intro s' t ht hPt halike h
    cases h
    have hft := hf s t hP hPt hs ht halike
    exact ⟨t, rfl, halike, congrArg k hft, hQ s hs hP, hft ▸ hQ t ht hPt⟩

theorem Sat.commit {ws : List (Write ρ κ)} {entry : Option ε} {k : Option Nat → Call ρ κ ε α}
    (hw : ∀ s, S.Sound s.rows s.drawn → P s → S.WithinAll (owner i) s.rows s.drawn ws)
    (hentry : ∀ e ∈ entry, entryOwner e = owner i)
    (hk : ∀ n, (secure S entryOwner owner).Sat S.sem i (k n) fun _ => True) :
    (secure S entryOwner owner).Sat S.sem i (S.commit ws entry k) P := by
  have hlog : ∀ (l : List ε) {d : δ}, d ≠ owner i →
      (l ++ entry.toList).filter (fun e => entryOwner e = d) = l.filter fun e => entryOwner e = d := by
    intro l d hd
    cases entry with
    | none => rw [Option.toList_none, List.append_nil]
    | some e =>
        have he : entryOwner e ≠ d := fun h => hd (h.symm.trans (hentry e rfl))
        simp [he]
  intro s hs hP
  have hin := hw s hs hP
  refine ⟨⟨?_, ?_, ?_⟩, fun _ => True, Secure.Stable.true, hk _, ?_⟩
  · intro s' h
    simp only [Schema.sem, Option.ite_none_right_eq_some] at h
    obtain ⟨hfresh, h⟩ := h
    split at h
    · cases h
      exact hs
    · rename_i rows n hp
      cases h
      exact Schema.performAll_sound hs hfresh hin hp
  · intro s' h
    simp only [Schema.sem, Option.ite_none_right_eq_some] at h
    obtain ⟨hfresh, h⟩ := h
    split at h
    · cases h
      exact (secure S entryOwner owner).rely_refl s
    · rename_i rows n hp
      cases h
      exact ⟨Schema.subset_drawAll, Schema.performAll_rows hs hfresh hin hp⟩
  · intro s' h d hd t ht halike
    simp only [Schema.sem, Option.ite_none_right_eq_some] at h
    obtain ⟨hfresh, h⟩ := h
    split at h
    · cases h
      exact halike
    · rename_i rows n hp
      cases h
      refine ⟨?_, ?_, List.Subset.trans halike.drawn Schema.subset_drawAll⟩
      · rw [halike.rows]
        exact (Schema.performAll_others hs hfresh hin hp hd).symm
      · rw [halike.log]
        dsimp only
        split
        · exact (hlog s.log hd).symm
        · rfl
  · intro s' t ht hPt halike h
    simp only [Schema.sem, Option.ite_none_right_eq_some] at h
    obtain ⟨hfresh, h⟩ := h
    have hfresht := Schema.fresh_mono halike.drawn hfresh
    -- the writes do the same to the rows of the owner in both stores
    have hrows : S.view (owner i) t.rows = S.view (owner i) s.rows := halike.rows
    have hsame : ((S.performAll ws t.rows).map fun r => (S.view (owner i) r.1, r.2)) =
        (S.performAll ws s.rows).map fun r => (S.view (owner i) r.1, r.2) := by
      rw [← Schema.performAll_view hs hfresh hin, ← Schema.performAll_view ht hfresht (hw t ht hPt), hrows]
    have hcount : (S.performAll ws t.rows).map Prod.snd = (S.performAll ws s.rows).map Prod.snd := by
      have := congrArg (Option.map Prod.snd) hsame
      simpa only [Option.map_map, Function.comp_def] using this
    simp only [Schema.sem, hfresht, if_true, hcount]
    cases hps : S.performAll ws s.rows with
    | none =>
        rw [hps] at h hsame
        rw [Option.map_eq_none_iff.mp hsame]
        cases h
        exact ⟨t, rfl, halike, trivial, trivial, trivial⟩
    | some r =>
        obtain ⟨rows, n⟩ := r
        rw [hps] at h hsame
        obtain ⟨⟨rowst, nt⟩, hpt, hrt⟩ := Option.map_eq_some_iff.mp hsame
        obtain ⟨hrows', rfl⟩ := Prod.mk.inj hrt
        cases h
        rw [hpt]
        refine ⟨_, rfl, ⟨hrows', ?_, Schema.drawAll_mono halike.drawn⟩, trivial, trivial, trivial⟩
        dsimp only
        split
        · rw [List.filter_append, List.filter_append, halike.log]
        · exact halike.log

/-! ## Runs -/

variable [DecidableEq ι] {p q : ι → Call ρ κ ε α}

theorem sound_of_reach (hp : ∀ i, (secure S entryOwner owner).Sat S.sem i (p i) fun _ => True) {s : Store ρ κ ε}
    (hs : S.Sound s.rows s.drawn) {ok : Conf ι (Stmt ρ κ ε) (Store ρ κ ε) α → ι → Prop}
    {c : Conf ι (Stmt ρ κ ε) (Store ρ κ ε) α} (h : Reach S.sem ok ⟨s, p⟩ c) : S.Sound c.store.rows c.store.drawn :=
  ((Secure.Safe.init (S := secure S entryOwner owner) (c := ⟨s, p⟩) hs hp).reach h).1

/-- The rows and entries of `d` in both stores, which are the same. -/
theorem Schema.Sound.meet {s t : Store ρ κ ε} {d : δ} (hs : S.Sound s.rows s.drawn) (ht : S.Sound t.rows t.drawn)
    (hrows : S.view d t.rows = S.view d s.rows) :
    S.Sound (S.view d s.rows) (s.drawn.filter fun k => decide (k ∈ t.drawn)) := by
  have hs' := hs.view d
  have ht' := ht.view d
  rw [hrows] at ht'
  exact ⟨hs'.nodup, fun r hr => List.mem_filter.mpr ⟨hs'.isDrawn r hr, by simpa using ht'.isDrawn r hr⟩, hs'.check,
    hs'.apart, hs'.refs, fun r hr k hk => ⟨List.mem_filter.mpr ⟨(hs'.names r hr k hk).1,
      by simpa using (ht'.names r hr k hk).1⟩, (hs'.names r hr k hk).2⟩⟩

/-- Two runs that agree on `d`: its rows and entries to begin with, its calls, and the order in which these take steps. -/
theorem isolated (hp : ∀ i, (secure S entryOwner owner).Sat S.sem i (p i) fun _ => True)
    (hq : ∀ i, (secure S entryOwner owner).Sat S.sem i (q i) fun _ => True) {s t : Store ρ κ ε}
    (hs : S.Sound s.rows s.drawn) (ht : S.Sound t.rows t.drawn) {d : δ} (hrows : S.view d t.rows = S.view d s.rows)
    (hlog : t.log.filter (fun e => entryOwner e = d) = s.log.filter fun e => entryOwner e = d)
    (hcalls : ∀ i, owner i = d → q i = p i) {is js : List ι}
    (hproj : is.filter (fun i => owner i = d) = js.filter fun i => owner i = d)
    {c c' : Conf ι (Stmt ρ κ ε) (Store ρ κ ε) α} (hc : Conf.run S.sem ⟨s, p⟩ is = some c)
    (hc' : Conf.run S.sem ⟨t, q⟩ js = some c') :
    S.view d c'.store.rows = S.view d c.store.rows ∧
      (c'.store.log.filter (fun e => entryOwner e = d) = c.store.log.filter fun e => entryOwner e = d) ∧
      ∀ i, owner i = d → c'.calls i = c.calls i := by
  -- the run of these calls alone, on what both stores have of `d`
  let m : Store ρ κ ε := ⟨S.view d s.rows, s.drawn.filter fun k => decide (k ∈ t.drawn),
    s.log.filter fun e => entryOwner e = d⟩
  have hself : S.view d (S.view d s.rows) = S.view d s.rows := by
    simp [Schema.view]
  have hm : S.Sound m.rows m.drawn := hs.meet ht hrows
  have h₁ : (secure S entryOwner owner).Twins S.sem d ⟨s, p⟩ ⟨m, p⟩ :=
    ⟨.init hs hp, hm, ⟨hself, by simp [m], List.filter_subset_self _⟩,
      fun i _ => ⟨rfl, fun _ => True, Secure.Stable.true, trivial, trivial, hp i⟩⟩
  have h₂ : (secure S entryOwner owner).Twins S.sem d ⟨t, q⟩ ⟨m, p⟩ := by
    refine ⟨.init ht hq, hm, ⟨hself.trans hrows.symm, ?_, fun k hk => ?_⟩, fun i hi => ⟨(hcalls i hi).symm, fun _ => True,
      Secure.Stable.true, trivial, trivial, hq i⟩⟩
    · simp [m, hlog]
    · simpa using (List.mem_filter.mp hk).2
  obtain ⟨mid, hmid, hmid'⟩ := h₁.two_runs h₂ hc hc' hproj
  exact ⟨hmid'.alike.rows.symm.trans hmid.alike.rows, hmid'.alike.log.symm.trans hmid.alike.log,
    fun i hi => ((hmid'.calls i hi).1.symm.trans (hmid.calls i hi).1)⟩

end Secure

end Relational
