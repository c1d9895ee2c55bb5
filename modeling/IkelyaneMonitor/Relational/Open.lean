import IkelyaneMonitor.Relational.Serial

/-!
# Requests beside writers that are none

* `Move`, `Conf.moves` : a run in which others write the store between the statements of the calls;
* `Evolves s ms t` : `s` becomes `t` by the moves `ms`: each call among them makes its change and leaves its entry, and
  nothing else does, but for the writes of the others;
* `TookEffect` : the moves of a run that count: the writes, and the statements with which calls succeed;
* `evolves` : any run of calls that settle evolves by these moves.
-/

namespace Interleave

variable {ι ω σ α τ δ : Type} [DecidableEq ι]

inductive Move (ι τ : Type) where
  | call (i : ι)
  | write (w : τ)

def Move.call? : Move ι τ → Option ι
  | .call i => some i
  | .write _ => none

def Move.write? : Move ι τ → Option τ
  | .call _ => none
  | .write w => some w

/-- The calls among the moves. -/
def callsOf (ms : List (Move ι τ)) : List ι := ms.filterMap Move.call?

/-- The writes of the others. -/
def writesOf (ms : List (Move ι τ)) : List τ := ms.filterMap Move.write?

section Lists
variable {ms ms' : List (Move ι τ)} {i : ι} {w : τ}

omit [DecidableEq ι]

@[simp] theorem callsOf_append : callsOf (ms ++ ms') = callsOf ms ++ callsOf ms' := List.filterMap_append

@[simp] theorem writesOf_append : writesOf (ms ++ ms') = writesOf ms ++ writesOf ms' := List.filterMap_append

@[simp] theorem callsOf_nil : callsOf ([] : List (Move ι τ)) = [] := rfl

@[simp] theorem callsOf_call : callsOf (.call i :: ms) = i :: callsOf ms := rfl

@[simp] theorem callsOf_write : callsOf (.write w :: ms) = callsOf ms := rfl

@[simp] theorem writesOf_call : writesOf (.call i :: ms) = writesOf ms := rfl

@[simp] theorem writesOf_write : writesOf (.write w :: ms) = w :: writesOf ms := rfl

end Lists

section Moves
variable (sem : ι → ω → σ → Option σ) (writes : τ → σ → Option σ)

def Conf.move (c : Conf ι ω σ α) : Move ι τ → Option (Conf ι ω σ α)
  | .call i => c.step sem i
  | .write w => (writes w c.store).map fun s => ⟨s, c.calls⟩

def Conf.moves : Conf ι ω σ α → List (Move ι τ) → Option (Conf ι ω σ α)
  | c, [] => some c
  | c, m :: ms => (c.move sem writes m).bind fun c' => c'.moves ms

end Moves

omit [DecidableEq ι] in
theorem Secure.Safe.write {S : Secure ι ω σ δ} {sem : ι → ω → σ → Option σ} {c : Conf ι ω σ α} (h : S.Safe sem c) {s : σ}
    (hinv : S.inv s) (hrely : S.rely c.store s) : S.Safe sem ⟨s, c.calls⟩ := by
  refine ⟨hinv, fun i => ?_⟩
  obtain ⟨P, hP, hPs, hsat⟩ := h.2 i
  exact ⟨P, hP, hP _ _ h.1 hrely hPs, hsat⟩

end Interleave

namespace Relational
open Interleave

variable {ι ρ κ δ ε α τ : Type} [DecidableEq κ]

/-- The row that a change is about. -/
def Schema.subject (S : Schema ρ κ δ) : Change ρ κ → κ
  | .put r => S.key r
  | .edit k _ => k
  | .drop k => k

/-- The row of a change that was made has its key. -/
theorem Schema.Does.subject {S : Schema ρ κ δ} {blank : ρ → ρ} (hb : S.Blanks blank) {w : Write ρ κ} {c : Change ρ κ}
    (h : S.Does blank w c) {rows rows' : List ρ} {drawn drawn' : List κ} (hs : S.Keyed rows drawn)
    (hs' : S.Keyed rows' drawn')
    (hdrawn : drawn ⊆ drawn') (hp : S.perform w rows = some (rows', 1)) : S.subject c ∈ drawn' := by
  cases w with
  | insert r =>
      simp only [perform, Option.ite_none_right_eq_some, Option.some.injEq, Prod.mk.injEq] at hp
      obtain ⟨-, rfl, -⟩ := hp
      cases c with
      | put r' =>
          obtain rfl := h
          rw [Schema.subject, hb.key]
          exact hs'.isDrawn r (List.mem_append_right _ List.mem_cons_self)
      | edit k f => exact h.elim
      | drop k => exact h.elim
  | update k p f =>
      simp only [perform] at hp
      split at hp
      · simp at hp
      rename_i r hhit
      obtain ⟨hr, hk, -⟩ := hit_eq_some hhit
      cases c with
      | put r' => exact h.elim
      | edit k' g =>
          obtain ⟨rfl, -⟩ := h
          exact hdrawn (hk ▸ hs.isDrawn r hr)
      | drop k' => exact h.elim
  | delete k p =>
      simp only [perform] at hp
      split at hp
      · simp at hp
      rename_i r hhit
      obtain ⟨hr, hk, -⟩ := hit_eq_some hhit
      cases c with
      | put r' => exact h.elim
      | edit k' g => exact h.elim
      | drop k' =>
          obtain rfl := h
          exact hdrawn (hk ▸ hs.isDrawn r hr)

/-- The row of a creation has a new key. -/
theorem Schema.Does.new {S : Schema ρ κ δ} {blank : ρ → ρ} (hb : S.Blanks blank) {w : Write ρ κ} {c : Change ρ κ}
    (h : S.Does blank w c) {drawn : List κ} (hnew : ∀ k, w.draws S.key = some k → k ∉ drawn) :
    ∀ r, c = .put r → S.key r ∉ drawn := by
  rintro r rfl
  cases w with
  | insert r' =>
      obtain rfl := h
      rw [hb.key]
      exact hnew _ rfl
  | update k p f => exact h.elim
  | delete k p => exact h.elim

/-- What another writer makes of the store: it keeps the invariant and what the calls count on, and leaves no entry. -/
structure Minded (S : Schema ρ κ δ) (s t : Store ρ κ ε) : Prop where
  sound : S.Sound t.rows t.drawn
  drawn : s.drawn ⊆ t.drawn
  log : t.log = s.log
  rows : ∀ r' ∈ t.rows, S.key r' ∈ s.drawn → ∃ r ∈ s.rows, S.key r = S.key r' ∧ S.owner r = S.owner r'

omit [DecidableEq κ] in
theorem Minded.refl {S : Schema ρ κ δ} {s : Store ρ κ ε} (hs : S.Sound s.rows s.drawn) : Minded S s s :=
  ⟨hs, List.Subset.refl _, rfl, fun r hr _ => ⟨r, hr, rfl, rfl⟩⟩

omit [DecidableEq κ] in
theorem Minded.trans {S : Schema ρ κ δ} {s t u : Store ρ κ ε} (h : Minded S s t) (h' : Minded S t u) : Minded S s u := by
  refine ⟨h'.sound, List.Subset.trans h.drawn h'.drawn, h'.log.trans h.log, fun r'' hr'' hk => ?_⟩
  obtain ⟨r', hr', hk', ho'⟩ := h'.rows r'' hr'' (h.drawn hk)
  obtain ⟨r, hr, hkr, hor⟩ := h.rows r' hr' (hk' ▸ hk)
  exact ⟨r, hr, hkr.trans hk', hor.trans ho'⟩

omit [DecidableEq κ] in
theorem Minded.known {S : Schema ρ κ δ} {s t : Store ρ κ ε} {d : δ} {k : κ} (h : Minded S s t) (hk : Known S d k s) :
    Known S d k t := by
  refine ⟨h.drawn hk.1, fun r' hr' hrk => ?_⟩
  obtain ⟨r, hr, hkey, howner⟩ := h.rows r' hr' (hrk ▸ hk.1)
  exact howner ▸ hk.2 r hr (hkey.trans hrk)

section Evolves
variable (S : Schema ρ κ δ) (blank : ρ → ρ) (E : ι → Effect ρ κ ε α)
  (writes : τ → Store ρ κ ε → Option (Store ρ κ ε))

inductive Evolves (s : Store ρ κ ε) : List (Move ι τ) → Store ρ κ ε → Prop
  | refl : Evolves s [] s
  | idle {ms : List (Move ι τ)} {t t' : Store ρ κ ε} : Evolves s ms t → S.Sound t'.rows t'.drawn → t.drawn ⊆ t'.drawn →
      S.settings blank t'.rows = S.settings blank t.rows → t'.log = t.log → Evolves s ms t'
  | call {ms : List (Move ι τ)} {t t' : Store ρ κ ε} {i : ι} {c : Change ρ κ} {e : ε} : Evolves s ms t →
      S.Sound t'.rows t'.drawn → t.drawn ⊆ t'.drawn → (E i).change = some c → (∀ r, c = .put r → S.key r ∉ t.drawn) →
      S.subject c ∈ t'.drawn → S.settings blank t'.rows = S.apply c (S.settings blank t.rows) →
      (E i).entry e → t'.log = t.log ++ [e] → Evolves s (ms ++ [.call i]) t'
  | write {ms : List (Move ι τ)} {t t' : Store ρ κ ε} {w : τ} : Evolves s ms t → Minded S t t' → writes w t = some t' →
      Evolves s (ms ++ [.write w]) t'

variable {S blank E writes} {s t : Store ρ κ ε} {ms : List (Move ι τ)}

theorem Evolves.sound (hs : S.Sound s.rows s.drawn) (h : Evolves S blank E writes s ms t) : S.Sound t.rows t.drawn := by
  cases h with
  | refl => exact hs
  | idle _ h => exact h
  | call _ h => exact h
  | write _ h => exact h.sound

/-- The log has the entries of the calls, in their order. -/
theorem Evolves.log (h : Evolves S blank E writes s ms t) :
    ∃ entries, t.log = s.log ++ entries ∧ List.Forall₂ (fun i e => (E i).entry e) (callsOf ms) entries := by
  induction h with
  | refl => exact ⟨[], (List.append_nil _).symm, .nil⟩
  | idle _ _ _ _ hlog ih => rwa [hlog]
  | call _ _ _ _ _ _ _ he hlog ih =>
      obtain ⟨entries, hentries, hall⟩ := ih
      refine ⟨entries ++ [_], by rw [hlog, hentries, List.append_assoc], ?_⟩
      rw [callsOf_append]
      exact List.rel_append hall (.cons he .nil)
  | write _ hmind _ ih =>
      obtain ⟨entries, hentries, hall⟩ := ih
      exact ⟨entries, hmind.log.trans hentries, by simpa using hall⟩

end Evolves

/-! ## Runs -/

section Runs
variable [DecidableEq ι] [DecidableEq δ] {S : Schema ρ κ δ} {blank : ρ → ρ} {entryOwner : ε → δ} {owner : ι → δ}
  {E : ι → Effect ρ κ ε α} {writes : τ → Store ρ κ ε → Option (Store ρ κ ε)} {s : Store ρ κ ε}
  {c c' : Conf ι (Stmt ρ κ ε) (Store ρ κ ε) α} {ms : List (Move ι τ)}

def Minds (S : Schema ρ κ δ) (writes : τ → Store ρ κ ε → Option (Store ρ κ ε)) : Prop :=
  ∀ w s t, S.Sound s.rows s.drawn → writes w s = some t → Minded S s t

/-- What carries this from one move to the next. -/
structure Watched (S : Schema ρ κ δ) (blank : ρ → ρ) (entryOwner : ε → δ) (owner : ι → δ) (E : ι → Effect ρ κ ε α)
    (writes : τ → Store ρ κ ε → Option (Store ρ κ ε)) (s : Store ρ κ ε) (c : Conf ι (Stmt ρ κ ε) (Store ρ κ ε) α)
    (ms : List (Move ι τ)) : Prop where
  evolves : Evolves S blank E writes s ms c.store
  safe : (secure S entryOwner owner).Safe S.sem c
  nodup : (callsOf ms).Nodup
  succeeded : ∀ i, i ∈ callsOf ms ↔ ∃ a, c.calls i = .ret a ∧ (E i).done a
  calls : ∀ i, i ∉ callsOf ms → Settles S blank (E i) (c.calls i)

/-- A statement of a call, which makes it succeed or not. -/
theorem Watched.call (hb : S.Blanks blank) (h : Watched S blank entryOwner owner E writes s c ms) {i : ι}
    (hs : c.step S.sem i = some c') :
    ∃ more, Watched S blank entryOwner owner E writes s c' (ms ++ more) ∧ more.Sublist [.call i] ∧ writesOf more = [] := by
  obtain ⟨hsafe, hrely⟩ := h.safe.step hs
  obtain ⟨w, k, s', hw, hsem, rfl⟩ := (Conf.step_eq_some _).mp hs
  have hi : i ∉ callsOf ms := by
    intro hi
    obtain ⟨a, ha, -⟩ := (h.succeeded i).mp hi
    rw [hw] at ha
    cases ha
  have hsettles := h.calls i hi
  rw [hw] at hsettles
  have hkeyed : S.Keyed c.store.rows c.store.drawn := ⟨h.safe.1.nodup, h.safe.1.isDrawn⟩
  obtain ⟨hkeyed', ⟨hk, hlog, hset⟩ | ⟨v, e, a, ch, rfl, hfresh, hp, ha, hdone, he, hlog, hch, hdoes, hset⟩⟩ :=
    hsettles.step hb hkeyed hsem
  · refine ⟨[], ?_, List.nil_sublist _, rfl⟩
    rw [List.append_nil]
    refine ⟨h.evolves.idle hsafe.1 hrely.1 hset hlog, hsafe, h.nodup, fun j => ?_, fun j hj => ?_⟩
    · by_cases hji : j = i
      · subst hji
        simp only [Function.update_self]
        refine ⟨fun hj => absurd hj hi, ?_⟩
        rintro ⟨a, ha, hdone⟩
        rw [ha] at hk
        exact absurd hdone hk
      · simp only [Function.update_of_ne hji]
        exact h.succeeded j
    · by_cases hji : j = i
      · subst hji
        simpa only [Function.update_self] using hk
      · simp only [Function.update_of_ne hji]
        exact h.calls j hj
  · obtain ⟨hnew, -⟩ := Schema.fresh_cons hfresh
    have hcalls : callsOf (ms ++ [.call i] : List (Move ι τ)) = callsOf ms ++ [i] := by simp
    refine ⟨[.call i], ⟨h.evolves.call hsafe.1 hrely.1 hch (hdoes.new hb hnew) (hdoes.subject hb hkeyed hkeyed' hrely.1 hp)
      hset he hlog, hsafe, ?_, fun j => ?_, fun j hj => ?_⟩, List.Sublist.refl _, rfl⟩
    · rw [hcalls]
      exact List.nodup_append.mpr ⟨h.nodup, List.nodup_singleton i, fun j hj k hk hjk =>
        hi (List.mem_singleton.mp hk ▸ hjk ▸ hj)⟩
    · rw [hcalls, List.mem_append, List.mem_singleton]
      by_cases hji : j = i
      · subst hji
        simp [ha, hdone]
      · simp only [Function.update_of_ne hji, hji, or_false]
        exact h.succeeded j
    · rw [hcalls, List.mem_append, List.mem_singleton, not_or] at hj
      simp only [Function.update_of_ne hj.2]
      exact h.calls j hj.1

omit [DecidableEq ι] in
theorem Watched.write (hwrites : Minds S writes) (h : Watched S blank entryOwner owner E writes s c ms) {w : τ}
    {t : Store ρ κ ε} (hw : writes w c.store = some t) :
    Watched S blank entryOwner owner E writes s ⟨t, c.calls⟩ (ms ++ [.write w]) := by
  have hmind := hwrites w _ _ h.safe.1 hw
  have hcalls : callsOf (ms ++ [.write w]) = callsOf ms := by simp
  exact ⟨h.evolves.write hmind hw, h.safe.write hmind.sound ⟨hmind.drawn, hmind.rows⟩, hcalls ▸ h.nodup,
    hcalls ▸ h.succeeded, hcalls ▸ h.calls⟩

theorem Watched.moves (hb : S.Blanks blank) (hwrites : Minds S writes) {run : List (Move ι τ)}
    (h : Watched S blank entryOwner owner E writes s c ms) (hr : c.moves S.sem writes run = some c') :
    ∃ more, Watched S blank entryOwner owner E writes s c' (ms ++ more) ∧ more.Sublist run ∧
      writesOf more = writesOf run := by
  induction run generalizing c ms with
  | nil =>
      cases hr
      exact ⟨[], by rwa [List.append_nil], List.nil_sublist _, rfl⟩
  | cons m run ih =>
      obtain ⟨c₁, hm, hrun⟩ := Option.bind_eq_some_iff.mp hr
      cases m with
      | call i =>
          obtain ⟨more, h₁, hsub, hmore⟩ := h.call hb hm
          obtain ⟨more', h', hsub', hmore'⟩ := ih h₁ hrun
          exact ⟨more ++ more', by rwa [← List.append_assoc], hsub.append hsub', by simp [hmore, hmore']⟩
      | write w =>
          obtain ⟨t, hw, rfl⟩ := Option.map_eq_some_iff.mp hm
          obtain ⟨more', h', hsub', hmore'⟩ := ih (h.write hwrites hw) hrun
          exact ⟨.write w :: more', by rwa [List.append_assoc] at h', hsub'.cons_cons _, by simp [hmore']⟩

/-- The moves of a run that took effect: the writes of the others, and the statements with which the calls succeeded. -/
structure TookEffect (E : ι → Effect ρ κ ε α) (s : Store ρ κ ε) (run : List (Move ι τ))
    (c : Conf ι (Stmt ρ κ ε) (Store ρ κ ε) α) (ms : List (Move ι τ)) : Prop where
  sublist : ms.Sublist run
  writes : writesOf ms = writesOf run
  nodup : (callsOf ms).Nodup
  succeeded : ∀ i, i ∈ callsOf ms ↔ ∃ a, c.calls i = .ret a ∧ (E i).done a
  log : ∃ entries, c.store.log = s.log ++ entries ∧ List.Forall₂ (fun i e => (E i).entry e) (callsOf ms) entries

/-- Calls on `s` that settle, beside other writers. -/
theorem evolves (hb : S.Blanks blank) (hwrites : Minds S writes) {calls : ι → Call ρ κ ε α}
    (hsat : ∀ i, (secure S entryOwner owner).Sat S.sem i (calls i) fun _ => True)
    (hsettles : ∀ i, Settles S blank (E i) (calls i)) (hs : S.Sound s.rows s.drawn) {run : List (Move ι τ)}
    (h : Conf.moves S.sem writes ⟨s, calls⟩ run = some c) :
    ∃ ms, Evolves S blank E writes s ms c.store ∧ TookEffect E s run c ms := by
  have hinit : Watched S blank entryOwner owner E writes s ⟨s, calls⟩ ([] : List (Move ι τ)) := by
    refine ⟨.refl, .init hs hsat, List.nodup_nil, fun i => ⟨fun hi => absurd hi List.not_mem_nil, ?_⟩, fun i _ => hsettles i⟩
    rintro ⟨a, ha, hdone⟩
    have hi := hsettles i
    dsimp only at ha
    rw [ha] at hi
    exact absurd hdone hi
  obtain ⟨ms, hms, hsub, hwritten⟩ := hinit.moves hb hwrites h
  exact ⟨ms, hms.evolves, hsub, hwritten, hms.nodup, hms.succeeded, hms.evolves.log⟩

end Runs

end Relational
