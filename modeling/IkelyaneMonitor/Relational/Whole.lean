import IkelyaneMonitor.Relational.Serial

/-!
# Requests that might as well have run whole

* `Ends d Q p ks` : each commit of call `p` that has an entry satisfies `Q` in the state that it meets, if the call counts on
  no more than rows it has seen of its owner `d`: those of the keys `ks` at this point;
* `Whole p s w e` : where write `w` with entry `e` commits in `s`, call `p` run alone from `s` commits as well, with the same
  settings and an entry that counts as the same;
* `Serially s order t` : the calls of `order` lead from `s` to `t` one at a time, each run whole; but for a call whose checks
  no constraint watches over (`gone`), of which the change counts alone;
* `serializable` : calls that settle once they have made their checks do so in any run.
-/

namespace Relational
open Interleave

variable {ι ρ κ δ ε α β : Type} [DecidableEq κ]

section Ends
variable (S : Schema ρ κ δ) (d : δ) (Q : Store ρ κ ε → Write ρ κ → ε → Prop)

def Seen (ks : List κ) (s : Store ρ κ ε) : Prop := ∀ k ∈ ks, Known S d k s

def Ends : Call ρ κ ε α → List κ → Prop
  | .ret _, _ => True
  | .stmt .select k, ks => ∀ s, S.Sound s.rows s.drawn → Seen S d ks s → ∃ ks', Seen S d ks' s ∧ Ends (k s) ks'
  | .stmt (.commit _ none) k, _ => ∀ s, Ends (k s) []
  | .stmt (.commit ws (some e)) k, ks =>
    (∀ s w, S.Sound s.rows s.drawn → Seen S d ks s → ws = [w] → Q s w e) ∧ ∀ s, Ends (k s) []

variable {S d Q} {ks : List κ}

omit [DecidableEq κ] in
theorem Seen.nil {s : Store ρ κ ε} : Seen S d [] s := fun _ hk => absurd hk List.not_mem_nil

omit [DecidableEq κ] in
theorem Seen.append {ks' : List κ} {s : Store ρ κ ε} (h : Seen S d ks s) (h' : Seen S d ks' s) : Seen S d (ks ++ ks') s :=
  fun k hk => (List.mem_append.mp hk).elim (h k) (h' k)

namespace Ends

omit [DecidableEq κ] in
theorem map {f : β → α} {p : Call ρ κ ε β} (h : Ends S d Q p ks) : Ends S d Q (p.map f) ks := by
  induction p generalizing ks with
  | ret b => trivial
  | stmt w k ih =>
      cases w with
      | select =>
          intro s hs hks
          obtain ⟨ks', hks', hk⟩ := h s hs hks
          exact ⟨ks', hks', ih s hk⟩
      | commit ws entry =>
          cases entry with
          | none => exact fun s => ih s (h s)
          | some e => exact ⟨h.1, fun s => ih s (h.2 s)⟩

omit [DecidableEq κ] in
theorem failAt {lost : α} {p : Call ρ κ ε α} (h : Ends S d Q p ks) (n : Nat) : Ends S d Q (p.failAt .select lost n) ks := by
  induction p generalizing ks n with
  | ret a =>
      rw [Prog.failAt_ret]
      trivial
  | stmt w k ih =>
      cases n with
      | zero => exact fun _ _ _ => ⟨[], Seen.nil, trivial⟩
      | succ n =>
          cases w with
          | select =>
              intro s hs hks
              obtain ⟨ks', hks', hk⟩ := h s hs hks
              exact ⟨ks', hks', ih s hk n⟩
          | commit ws entry =>
              cases entry with
              | none => exact fun s => ih s (h s) n
              | some e => exact ⟨h.1, fun s => ih s (h.2 s) n⟩

omit [DecidableEq κ] in
theorem mono {Q' : Store ρ κ ε → Write ρ κ → ε → Prop} (hQ : ∀ s w e, Q s w e → Q' s w e) {p : Call ρ κ ε α}
    (h : Ends S d Q p ks) : Ends S d Q' p ks := by
  induction p generalizing ks with
  | ret a => trivial
  | stmt w k ih =>
      cases w with
      | select =>
          intro s hs hks
          obtain ⟨ks', hks', hk⟩ := h s hs hks
          exact ⟨ks', hks', ih s hk⟩
      | commit ws entry =>
          cases entry with
          | none => exact fun s => ih s (h s)
          | some e => exact ⟨fun s w hs hks hws => hQ s w e (h.1 s w hs hks hws), fun s => ih s (h.2 s)⟩

/-- A call that commits nothing that has an entry. -/
theorem of_settles {blank : ρ → ρ} {E : Effect ρ κ ε α} {p : Call ρ κ ε α} (h : Settles S blank E p)
    (hE : ∀ e, ¬ E.entry e) : Ends S d Q p ks := by
  induction p generalizing ks with
  | ret a => trivial
  | stmt w k ih =>
      cases w with
      | select => exact fun s _ hks => ⟨ks, hks, ih s (h s)⟩
      | commit ws entry =>
          cases entry with
          | none => exact fun s => ih s (h.2 s)
          | some e => exact absurd h.1 (hE e)

omit [DecidableEq κ] in
/-- A read that tells nothing of use. -/
theorem read {f : Store ρ κ ε → β} {k : β → Call ρ κ ε α} (hk : ∀ b, Ends S d Q (k b) ks) :
    Ends S d Q (Relational.read f k) ks := fun s _ hks => ⟨ks, hks, hk (f s)⟩

omit [DecidableEq κ] in
/-- A read that shows a row of the owner. -/
theorem see {f : Store ρ κ ε → β} {k : β → Call ρ κ ε α} {more : β → List κ}
    (hf : ∀ s, S.Sound s.rows s.drawn → Seen S d (more (f s)) s) (hk : ∀ b, Ends S d Q (k b) (ks ++ more b)) :
    Ends S d Q (Relational.read f k) ks := fun s hs hks => ⟨_, hks.append (hf s hs), hk (f s)⟩

end Ends

end Ends

/-! ## Whole -/

section Whole
variable (S : Schema ρ κ δ) (blank : ρ → ρ) (same : ε → ε → Prop)

/-- `p` does from `s` what the commit does. -/
def Whole (i : ι) (done : α → Prop) (p : Call ρ κ ε α) (s : Store ρ κ ε) (w : Write ρ κ) (e : ε) : Prop :=
  ∀ rows, S.fresh [w] s.drawn = true → S.perform w s.rows = some (rows, 1) → ∃ s' a e',
    p.exec S.sem i s = some (s', a) ∧ done a ∧ s'.log = s.log ++ [e'] ∧ same e' e ∧
      S.settings blank s'.rows = S.settings blank rows

variable {S blank same} in
theorem Whole.map {i : ι} {done : β → Prop} {done' : α → Prop} {f : β → α} (hdone : ∀ b, done b → done' (f b))
    {p : Call ρ κ ε β} {s : Store ρ κ ε} {w : Write ρ κ} {e : ε} (h : Whole S blank same i done p s w e) :
    Whole S blank same i done' (p.map f) s w e := by
  intro rows hfresh hp
  obtain ⟨s', b, e', hexec, hb, hlog, hsame, hset⟩ := h rows hfresh hp
  exact ⟨s', f b, e', by rw [Prog.exec_map, hexec]; rfl, hdone b hb, hlog, hsame, hset⟩

inductive Serially (calls : ι → Call ρ κ ε α) (E : ι → Effect ρ κ ε α) (gone : ι → Store ρ κ ε → Prop) (s : Store ρ κ ε) :
    List ι → Store ρ κ ε → Prop
  | refl : Serially calls E gone s [] s
  /-- What no entry tells of. -/
  | idle {order : List ι} {t t' : Store ρ κ ε} : Serially calls E gone s order t →
      S.settings blank t'.rows = S.settings blank t.rows → t'.log = t.log → Serially calls E gone s order t'
  | whole {order : List ι} {t t' t'' : Store ρ κ ε} {i : ι} {a : α} {e e' : ε} : Serially calls E gone s order t →
      (calls i).exec S.sem i t = some (t'', a) → (E i).done a → t''.log = t.log ++ [e'] → same e' e →
      S.settings blank t'.rows = S.settings blank t''.rows → t'.log = t.log ++ [e] →
      Serially calls E gone s (order ++ [i]) t'
  | late {order : List ι} {t t' : Store ρ κ ε} {i : ι} {e : ε} : Serially calls E gone s order t → gone i t →
      (E i).entry e → S.settings blank t'.rows = (E i).apply S (S.settings blank t.rows) → t'.log = t.log ++ [e] →
      Serially calls E gone s (order ++ [i]) t'

variable {S blank same} {calls : ι → Call ρ κ ε α} {E : ι → Effect ρ κ ε α} {gone : ι → Store ρ κ ε → Prop}

theorem Serially.trans {s t u : Store ρ κ ε} {order more : List ι} (h : Serially S blank same calls E gone s order t)
    (h' : Serially S blank same calls E gone t more u) : Serially S blank same calls E gone s (order ++ more) u := by
  induction h' with
  | refl => rwa [List.append_nil]
  | idle _ hset hlog ih => exact ih.idle hset hlog
  | whole _ hx hd hl hs hset hlog ih =>
      rw [← List.append_assoc]
      exact ih.whole hx hd hl hs hset hlog
  | late _ hg he hset hlog ih =>
      rw [← List.append_assoc]
      exact ih.late hg he hset hlog

variable [DecidableEq ι] [DecidableEq δ] {entryOwner : ε → δ} {owner : ι → δ} {s : Store ρ κ ε}
  {c c' : Conf ι (Stmt ρ κ ε) (Store ρ κ ε) α} {order : List ι}

/-- What carries this from one statement to the next: the calls that are left still make the checks of the whole ones. -/
structure Attended (S : Schema ρ κ δ) (blank : ρ → ρ) (same : ε → ε → Prop) (entryOwner : ε → δ) (owner : ι → δ)
    (calls : ι → Call ρ κ ε α) (E : ι → Effect ρ κ ε α) (gone : ι → Store ρ κ ε → Prop) (s : Store ρ κ ε)
    (c : Conf ι (Stmt ρ κ ε) (Store ρ κ ε) α) (order : List ι) : Prop where
  ordered : Ordered S blank E s c order
  safe : (secure S entryOwner owner).Safe S.sem c
  ends : ∀ i, ∃ ks, Seen S (owner i) ks c.store ∧ Ends S (owner i)
    (fun s w e => ¬ gone i s → Whole S blank same i (E i).done (calls i) s w e) (c.calls i) ks

theorem Attended.step (hb : S.Blanks blank) (h : Attended S blank same entryOwner owner calls E gone s c order) {i : ι}
    (hs : c.step S.sem i = some c') : ∃ more, Attended S blank same entryOwner owner calls E gone s c' (order ++ more) ∧
      Serially S blank same calls E gone c.store more c'.store := by
  obtain ⟨hsafe, hrely⟩ := h.safe.step hs
  have hends : ∀ j, ∃ ks, Seen S (owner j) ks c'.store ∧ Ends S (owner j)
      (fun s w e => ¬ gone j s → Whole S blank same j (E j).done (calls j) s w e) (c'.calls j) ks := by
    have hstill : ∀ j {ks : List κ}, Seen S (owner j) ks c.store → Seen S (owner j) ks c'.store :=
      fun j ks hks k hk => Known.stable (owner j) k _ _ h.safe.1 hrely (hks k hk)
    intro j
    obtain ⟨w, k, s', hw, -, rfl⟩ := (Conf.step_eq_some _).mp hs
    obtain ⟨ks, hks, hcall⟩ := h.ends j
    by_cases hj : j = i
    · subst hj
      simp only [Function.update_self]
      rw [hw] at hcall
      match w, hcall with
      | .select, hcall =>
          obtain ⟨ks', hks', hk⟩ := hcall _ h.safe.1 hks
          exact ⟨ks', hstill j hks', hk⟩
      | .commit ws none, hcall => exact ⟨[], Seen.nil, hcall _⟩
      | .commit ws (some e), hcall => exact ⟨[], Seen.nil, hcall.2 _⟩
    · simp only [Function.update_of_ne hj]
      exact ⟨ks, hstill j hks, hcall⟩
  rcases h.ordered.step hb hs with ⟨hordered, hlog, hset⟩ | ⟨hordered, v, e, k, hw, hfresh, hp, he, hlog, hset⟩
  · exact ⟨[], by rw [List.append_nil]; exact ⟨hordered, hsafe, hends⟩, Serially.refl.idle hset hlog⟩
  · refine ⟨[i], ⟨hordered, hsafe, hends⟩, ?_⟩
    by_cases hgone : gone i c.store
    · exact Serially.late .refl hgone he hset hlog
    · obtain ⟨ks, hks, hcall⟩ := h.ends i
      rw [hw] at hcall
      obtain ⟨t, a, e', hexec, hdone, hlog', hsame, hset'⟩ := hcall.1 _ v h.safe.1 hks rfl hgone _ hfresh hp
      exact Serially.whole .refl hexec hdone hlog' hsame hset'.symm hlog

theorem Attended.reach (hb : S.Blanks blank) (h : Attended S blank same entryOwner owner calls E gone s c order)
    {ok : Conf ι (Stmt ρ κ ε) (Store ρ κ ε) α → ι → Prop} (hr : Reach S.sem ok c c') :
    ∃ more, Attended S blank same entryOwner owner calls E gone s c' (order ++ more) ∧
      Serially S blank same calls E gone c.store more c'.store := by
  induction hr with
  | refl => exact ⟨[], by rwa [List.append_nil], .refl⟩
  | step _ _ hs ih =>
      obtain ⟨more, hm, hserial⟩ := ih
      obtain ⟨more', hm', hserial'⟩ := hm.step hb hs
      exact ⟨more ++ more', by rwa [← List.append_assoc], hserial.trans hserial'⟩

/-- Calls on `s` that settle and make their checks, in a run to `c` and on to `c'`. -/
theorem serializable (hb : S.Blanks blank) {started : ι → Call ρ κ ε α}
    (hsat : ∀ i, (secure S entryOwner owner).Sat S.sem i (started i) fun _ => True)
    (hsettles : ∀ i, Settles S blank (E i) (started i))
    (hends : ∀ i, Ends S (owner i) (fun s w e => ¬ gone i s → Whole S blank same i (E i).done (calls i) s w e) (started i) [])
    (hs : S.Sound s.rows s.drawn) {ok : Conf ι (Stmt ρ κ ε) (Store ρ κ ε) α → ι → Prop}
    (h : Reach S.sem ok ⟨s, started⟩ c) (h' : Reach S.sem ok c c') : ∃ order more,
      Linearizes S blank E s c order ∧ Serially S blank same calls E gone s order c.store ∧
      Linearizes S blank E s c' (order ++ more) ∧ Serially S blank same calls E gone c.store more c'.store := by
  have hinit : Attended S blank same entryOwner owner calls E gone s ⟨s, started⟩ [] :=
    ⟨.init hsettles ⟨hs.nodup, hs.isDrawn⟩, .init hs hsat, fun i => ⟨[], Seen.nil, hends i⟩⟩
  obtain ⟨order, horder, hserial⟩ := hinit.reach hb h
  obtain ⟨more, hmore, hserial'⟩ := horder.reach hb h'
  exact ⟨order, more, horder.ordered.linearizes, hserial, hmore.ordered.linearizes, hserial'⟩

end Whole

end Relational
