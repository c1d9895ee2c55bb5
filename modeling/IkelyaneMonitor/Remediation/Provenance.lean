import IkelyaneMonitor.Remediation.Protocol

/-!
# Where jobs and reports come from

* `Got`, `Stands` : a job was handed out in answer to the request of the process that has it, and a report is about a run;
* `Unused` : a request brings one job at most, which is started once at most and comes to its end once at most;
* `Inv` : what every event keeps (`Inv.step`, `Inv.run`), proved for each part of an event first.
-/

namespace IkelyaneMonitor.Remediation.Protocol
open Wire Interleave
open Agent.Run (Process Result Started run reportBody)

section Invariant
variable (S : Setting) (w : World)

/-- The process got the job in answer to its request. -/
def Got (x : Held) : Prop := w.sent[x.request]? = some (.next x.agent) ∧ ∃ i d,
  w.server.received[i]? = some (some x.request, .claimNextExecution (S.agents x.agent).orgId (S.agents x.agent).hostId) ∧
    w.server.calls i = .ret (.claimed (some d)) ∧ x.job = d.job S.idText

def Stands (a : Nat) : Phase → Prop
  | .holding q job | .executing q job _ => Got S w ⟨a, q, job⟩
  | .reporting result _ _ => ∃ x ∈ w.ran, x.1.agent = a ∧ result = S.result a x.1.job x.2
  | _ => True

/-- The request whose job is still to be started. -/
def Phase.pending : Phase → Option Nat
  | .asking q | .holding q _ => some q
  | _ => none

/-- The request whose job is still to come to its end. -/
def Phase.current : Phase → Option Nat
  | .asking q | .holding q _ | .executing q _ _ => some q
  | _ => none

/-- Each request was used once at most, and none that a process still waits to use. -/
structure Unused (waits : Phase → Option Nat) (used : List Nat) : Prop where
  nodup : used.Nodup
  waiting : ∀ a q, waits (w.phases a) = some q → w.sent[q]? = some (.next a) ∧ q ∉ used

structure Inv (s : Store) : Prop where
  served : Open.Served (sem S.sha256) S.call s w.server
  requested : ∀ (i q : Nat) op, w.server.received[i]? = some (some q, op) → ∃ r, w.sent[q]? = some r ∧ S.op? r = some op
  outside : ∀ (i : Nat) op, w.server.received[i]? = some (none, op) → byAgent op = false
  reports : ∀ (q : Nat) a body, w.sent[q]? = some (.report a body) →
    ∃ x ∈ w.ran, x.1.agent = a ∧ body = reportBody (S.result a x.1.job x.2)
  stands : ∀ a, Stands S w a (w.phases a)
  started : ∀ x ∈ w.started, Got S w x ∧ Agent.refusal S.digest S.quote (S.agents x.agent).policy x.job = none
  ran : ∀ x ∈ w.ran, Got S w x.1
  startedOnce : Unused w Phase.pending (w.started.map Held.request)
  ranOnce : Unused w Phase.current (w.ran.map fun x => x.1.request)

/-- What only ever grows. -/
structure Grows (w w' : World) : Prop where
  sent : ∀ (q : Nat) r, w.sent[q]? = some r → w'.sent[q]? = some r
  received : ∀ (i : Nat) x, w.server.received[i]? = some x → w'.server.received[i]? = some x
  returned : ∀ i a, i < w.server.received.length → w.server.calls i = .ret a → w'.server.calls i = .ret a
  ran : ∀ x ∈ w.ran, x ∈ w'.ran

variable {S w} {w' : World} {s : Store}

theorem Got.grows {x : Held} (hg : Grows w w') (h : Got S w x) : Got S w' x := by
  obtain ⟨hsent, i, d, hi, hret, hjob⟩ := h
  exact ⟨hg.sent _ _ hsent, i, d, hg.received _ _ hi, hg.returned i _ (List.getElem?_eq_some_iff.mp hi).1 hret, hjob⟩

theorem Stands.grows {a : Nat} {phase : Phase} (hg : Grows w w') (h : Stands S w a phase) : Stands S w' a phase := by
  cases phase with
  | idle => trivial
  | asking q => trivial
  | holding q job => exact Got.grows hg h
  | executing q job p => exact Got.grows hg h
  | reporting result attempt q =>
      obtain ⟨x, hx, h⟩ := h
      exact ⟨x, hg.ran x hx, h⟩

theorem getElem?_snoc {α : Type} {l : List α} {x y : α} {i : Nat} (h : (l ++ [x])[i]? = some y) :
    l[i]? = some y ∨ i = l.length ∧ y = x := by
  rcases Nat.lt_trichotomy i l.length with hlt | rfl | hgt
  · rw [List.getElem?_append_left hlt] at h
    exact .inl h
  · rw [List.getElem?_concat_length] at h
    exact .inr ⟨rfl, (Option.some.inj h).symm⟩
  · rw [List.getElem?_eq_none (by simp; omega)] at h
    cases h

theorem getElem?_concat_of_some {α : Type} {l : List α} {x y : α} {i : Nat} (h : l[i]? = some y) : (l ++ [x])[i]? = some y :=
  (List.getElem?_append_left (List.getElem?_eq_some_iff.mp h).1).trans h

/-! ## Requests that are used once -/

namespace Unused
variable {waits : Phase → Option Nat} {used : List Nat}

theorem send (h : Unused w waits used) (r : Request) : Unused (w.send r) waits used where
  nodup := h.nodup
  waiting a q hq := ⟨getElem?_concat_of_some (h.waiting a q hq).1, (h.waiting a q hq).2⟩

theorem setPhase (h : Unused w waits used) {a : Nat} {phase : Phase}
    (hphase : ∀ q, waits phase = some q → w.sent[q]? = some (.next a) ∧ q ∉ used) :
    Unused (w.setPhase a phase) waits used where
  nodup := h.nodup
  waiting b q hq := by
    change waits (Function.update w.phases a phase b) = some q at hq
    by_cases hb : b = a
    · subst hb
      rw [Function.update_self] at hq
      exact hphase q hq
    · rw [Function.update_of_ne hb] at hq
      exact h.waiting b q hq

/-- The process whose request it is uses it, and goes on to something else. -/
theorem use (h : Unused w waits used) {a q : Nat} (hsent : w.sent[q]? = some (.next a)) (hq : q ∉ used)
    (hphase : waits (w.phases a) = none) : Unused w waits (used ++ [q]) where
  nodup := by
    rw [← List.concat_eq_append, List.nodup_concat]
    exact ⟨hq, h.nodup⟩
  waiting b q' hq' := by
    obtain ⟨hsent', hold⟩ := h.waiting b q' hq'
    refine ⟨hsent', fun hmem => ?_⟩
    rcases List.mem_append.mp hmem with hmem | hmem
    · exact hold hmem
    · obtain rfl := List.mem_singleton.mp hmem
      -- nobody else waits for the request of a process
      obtain rfl : a = b := by simpa using hsent.symm.trans hsent'
      cases hphase.symm.trans hq'

end Unused

/-! ## The parts of an event -/

theorem Inv.receive (h : Inv S w s) {x : Option Nat × Op} (hnone : x.1 = none → byAgent x.2 = false)
    (hsome : ∀ q, x.1 = some q → ∃ r, w.sent[q]? = some r ∧ S.op? r = some x.2) : Inv S (w.receive S x) s := by
  have hg : Grows w (w.receive S x) :=
    ⟨fun _ _ h => h, fun _ _ h => getElem?_concat_of_some h, fun i a hi h => (Open.receive_calls hi).trans h, fun _ h => h⟩
  refine ⟨h.served.receive x, ?_, ?_, h.reports, fun a => (h.stands a).grows hg,
    fun y hy => ⟨(h.started y hy).1.grows hg, (h.started y hy).2⟩, fun y hy => (h.ran y hy).grows hg,
    ⟨h.startedOnce.nodup, h.startedOnce.waiting⟩, ⟨h.ranOnce.nodup, h.ranOnce.waiting⟩⟩
  · intro i q op hi
    rcases getElem?_snoc hi with hi | ⟨-, rfl⟩
    · exact h.requested i q op hi
    · exact hsome q rfl
  · intro i op hi
    rcases getElem?_snoc hi with hi | ⟨-, rfl⟩
    · exact h.outside i op hi
    · exact hnone rfl

theorem Inv.serve (h : Inv S w s) {i : Nat} {server : Open (Option Nat × Op) Stmt Store Outcome}
    (hs : w.server.serve (sem S.sha256) i = some server) : Inv S { w with server := server } s := by
  have hreceived := Open.serve_received hs
  have hg : Grows w { w with server := server } :=
    ⟨fun _ _ h => h, fun i x hi => by rwa [hreceived], fun j a _ hj => Open.serve_ret hs hj, fun _ h => h⟩
  refine ⟨h.served.serve hs, ?_, ?_, h.reports, fun a => (h.stands a).grows hg,
    fun y hy => ⟨(h.started y hy).1.grows hg, (h.started y hy).2⟩, fun y hy => (h.ran y hy).grows hg,
    ⟨h.startedOnce.nodup, h.startedOnce.waiting⟩, ⟨h.ranOnce.nodup, h.ranOnce.waiting⟩⟩
  · intro i q op hi
    rw [hreceived] at hi
    exact h.requested i q op hi
  · intro i op hi
    rw [hreceived] at hi
    exact h.outside i op hi

theorem Inv.send (h : Inv S w s) {r : Request} (hr : ∀ a body, r = .report a body →
    ∃ x ∈ w.ran, x.1.agent = a ∧ body = reportBody (S.result a x.1.job x.2)) : Inv S (w.send r) s := by
  have hg : Grows w (w.send r) :=
    ⟨fun _ _ h => getElem?_concat_of_some h, fun _ _ h => h, fun _ _ _ h => h, fun _ h => h⟩
  refine ⟨h.served, ?_, h.outside, ?_, fun a => (h.stands a).grows hg,
    fun y hy => ⟨(h.started y hy).1.grows hg, (h.started y hy).2⟩, fun y hy => (h.ran y hy).grows hg,
    h.startedOnce.send r, h.ranOnce.send r⟩
  · intro i q op hi
    obtain ⟨r, hr, hop⟩ := h.requested i q op hi
    exact ⟨r, getElem?_concat_of_some hr, hop⟩
  · intro q a body hq
    rcases getElem?_snoc hq with hq | ⟨-, heq⟩
    · exact h.reports q a body hq
    · exact hr a body heq.symm

/-- A process moves on, waiting for nothing that was used. -/
theorem Inv.setPhase (h : Inv S w s) {a : Nat} {phase : Phase} (hstands : Stands S w a phase)
    (hstarted : ∀ q, phase.pending = some q → w.sent[q]? = some (.next a) ∧ q ∉ w.started.map Held.request)
    (hran : ∀ q, phase.current = some q → w.sent[q]? = some (.next a) ∧ q ∉ w.ran.map fun x => x.1.request) :
    Inv S (w.setPhase a phase) s := by
  refine ⟨h.served, h.requested, h.outside, h.reports, fun b => ?_, h.started, h.ran, h.startedOnce.setPhase hstarted,
    h.ranOnce.setPhase hran⟩
  show Stands S w b (Function.update w.phases a phase b)
  by_cases hb : b = a
  · subst hb
    rwa [Function.update_self]
  · rw [Function.update_of_ne hb]
    exact h.stands b

theorem Inv.idle (h : Inv S w s) (a : Nat) : Inv S (w.setPhase a .idle) s :=
  h.setPhase trivial (fun _ hq => by cases hq) fun _ hq => by cases hq

theorem Inv.began (h : Inv S w s) {x : Held} (hx : Got S w x) (hphase : (w.phases x.agent).pending = none)
    (hfresh : x.request ∉ w.started.map Held.request)
    (hallowed : Agent.refusal S.digest S.quote (S.agents x.agent).policy x.job = none) : Inv S (w.began x) s := by
  refine ⟨h.served, h.requested, h.outside, h.reports, h.stands, fun y hy => ?_, h.ran, ?_,
    ⟨h.ranOnce.nodup, h.ranOnce.waiting⟩⟩
  · rcases List.mem_append.mp hy with hy | hy
    · exact h.started y hy
    · rw [List.mem_singleton.mp hy]
      exact ⟨hx, hallowed⟩
  · obtain ⟨hnodup, hwaiting⟩ := h.startedOnce.use hx.1 hfresh hphase
    rw [← List.map_singleton (f := Held.request), ← List.map_append] at hnodup hwaiting
    exact ⟨hnodup, hwaiting⟩

theorem Inv.finished (h : Inv S w s) {x : Held} (hx : Got S w x) (hphase : (w.phases x.agent).current = none)
    (hfresh : x.request ∉ w.ran.map fun y => y.1.request) (p : Process) : Inv S (w.finished x p) s := by
  have hg : Grows w (w.finished x p) :=
    ⟨fun _ _ h => h, fun _ _ h => h, fun _ _ _ h => h, fun _ h => List.mem_append_left _ h⟩
  refine ⟨h.served, h.requested, h.outside, ?_, fun a => (h.stands a).grows hg, h.started, fun y hy => ?_,
    ⟨h.startedOnce.nodup, h.startedOnce.waiting⟩, ?_⟩
  · intro q a body hq
    obtain ⟨y, hy, hbody⟩ := h.reports q a body hq
    exact ⟨y, hg.ran y hy, hbody⟩
  · rcases List.mem_append.mp hy with hy | hy
    · exact h.ran y hy
    · rw [List.mem_singleton.mp hy]
      exact hx
  · obtain ⟨hnodup, hwaiting⟩ := h.ranOnce.use hx.1 hfresh hphase
    have hmap : (w.ran.map fun y => y.1.request) ++ [x.request] = (w.finished x p).ran.map fun y => y.1.request := by
      simp [World.finished]
    rw [hmap] at hnodup hwaiting
    exact ⟨hnodup, hwaiting⟩

/-! ## Events -/

theorem Inv.start (S : Setting) (clock : Int) (actions : Table RemediationAction) (hosts : Table MonitoredHost) :
    Inv S (World.start clock actions hosts) ⟨clock, actions, hosts, .empty, []⟩ := by
  refine ⟨Open.served_start _ _, ?_, ?_, ?_, fun _ => trivial, ?_, ?_, ⟨.nil, ?_⟩, ⟨.nil, ?_⟩⟩
  · intro i q op hi
    simp [World.start] at hi
  · intro i op hi
    simp [World.start] at hi
  · intro q a body hq
    simp [World.start] at hq
  · intro x hx
    simp [World.start] at hx
  · intro x hx
    simp [World.start] at hx
  · intro a q hq
    simp [World.start, Phase.pending] at hq
  · intro a q hq
    simp [World.start, Phase.current] at hq

theorem Inv.ask (h : Inv S w s) {a : Nat} (hs : w.step S (.ask a) = some w') : Inv S w' s := by
  simp only [World.step] at hs
  split at hs
  · split_ifs at hs
    cases hs
    have hsent : (w.send (.next a)).sent[w.sent.length]? = some (.next a) := List.getElem?_concat_length
    -- what was used so far was sent before
    have hold : ∀ x : Held, Got S w x → x.request ≠ w.sent.length := fun x hx heq => by
      have hlt := (List.getElem?_eq_some_iff.mp hx.1).1
      omega
    refine (h.send (r := .next a) fun _ _ hr => by cases hr).setPhase trivial (fun q hq => ?_) fun q hq => ?_
    · obtain rfl := Option.some.inj hq
      refine ⟨hsent, fun hmem => ?_⟩
      obtain ⟨x, hx, heq⟩ := List.mem_map.mp hmem
      exact hold x (h.started x hx).1 heq
    · obtain rfl := Option.some.inj hq
      refine ⟨hsent, fun hmem => ?_⟩
      obtain ⟨x, hx, heq⟩ := List.mem_map.mp hmem
      exact hold x.1 (h.ran x hx) heq
  · cases hs

theorem Inv.hear (h : Inv S w s) {a i : Nat} {now : Int} {signature : List Char}
    (hs : w.step S (.hear a i now signature) = some w') : Inv S w' s := by
  simp only [World.step] at hs
  split at hs
  · rename_i q q' op job hphase hreceived hret
    split_ifs at hs with hq
    subst hq
    split at hs
    · rename_i job' hhear
      cases hs
      obtain ⟨d, rfl, hjob⟩ := job_of_hear hhear
      have hpending := h.startedOnce.waiting a q' (by rw [hphase]; rfl)
      have hcurrent := h.ranOnce.waiting a q' (by rw [hphase]; rfl)
      obtain ⟨r, hr, hop⟩ := h.requested i q' op hreceived
      obtain rfl := Option.some.inj (hpending.1.symm.trans hr)
      obtain rfl := Option.some.inj hop
      refine h.setPhase ⟨hpending.1, i, d, hreceived, hret, hjob⟩ (fun q hq => ?_) fun q hq => ?_
      · obtain rfl := Option.some.inj hq
        exact hpending
      · obtain rfl := Option.some.inj hq
        exact hcurrent
    · cases hs
      exact h.idle a
  · cases hs

theorem Inv.execute (h : Inv S w s) {a : Nat} {p : Process} (hs : w.step S (.execute a p) = some w') : Inv S w' s := by
  simp only [World.step] at hs
  split at hs
  · rename_i q job hphase
    have hgot : Got S w ⟨a, q, job⟩ := by
      have hstands := h.stands a
      rwa [hphase] at hstands
    have hset : Inv S (w.setPhase a (.executing q job p)) s := by
      refine h.setPhase hgot (fun _ hq => by cases hq) fun q' hq => ?_
      obtain rfl := Option.some.inj hq
      exact h.ranOnce.waiting a q (by rw [hphase]; rfl)
    cases hs
    split
    · rename_i hstarted
      refine Inv.began (x := ⟨a, q, job⟩) hset hgot ?_ (h.startedOnce.waiting a q (by rw [hphase]; rfl)).2 hstarted.allowed
      show (Function.update w.phases a (.executing q job p) a).pending = none
      rw [Function.update_self]
      rfl
    · exact hset
  · cases hs

theorem Inv.finish (h : Inv S w s) {a : Nat} (hs : w.step S (.finish a) = some w') : Inv S w' s := by
  simp only [World.step] at hs
  split at hs
  · rename_i q job p hphase
    cases hs
    have hgot : Got S w ⟨a, q, job⟩ := by
      have hstands := h.stands a
      rwa [hphase] at hstands
    have hmem : ((⟨a, q, job⟩, p) : Held × Process) ∈ (w.finished ⟨a, q, job⟩ p).ran :=
      List.mem_append_right _ (List.mem_singleton_self _)
    have hfresh := (h.ranOnce.waiting a q (by rw [hphase]; rfl)).2
    have hfinished : Inv S ((w.setPhase a .idle).finished ⟨a, q, job⟩ p) s := by
      refine (h.idle a).finished hgot ?_ hfresh p
      show (Function.update w.phases a .idle a).current = none
      rw [Function.update_self]
      rfl
    have hsend := hfinished.send (r := .report a (reportBody (S.result a job p))) fun b body hr => by
      cases hr
      exact ⟨_, hmem, rfl, rfl⟩
    have hstands : Stands S (((w.setPhase a .idle).finished ⟨a, q, job⟩ p).send (.report a (reportBody (S.result a job p)))) a
        (.reporting (S.result a job p) 1 w.sent.length) := ⟨_, hmem, rfl, rfl⟩
    have hset := hsend.setPhase hstands (fun _ hq => by cases hq) fun _ hq => by cases hq
    simpa [World.setPhase, World.send, World.finished] using hset
  · cases hs

theorem Inv.retry (h : Inv S w s) {a : Nat} (hs : w.step S (.retry a) = some w') : Inv S w' s := by
  simp only [World.step] at hs
  split at hs
  · rename_i result attempt q hphase
    split_ifs at hs
    cases hs
    have hstands := h.stands a
    rw [hphase] at hstands
    obtain ⟨x, hx, ha, hresult⟩ := hstands
    refine (h.send fun b body hr => ?_).setPhase ⟨x, hx, ha, hresult⟩ (fun _ hq => by cases hq) fun _ hq => by cases hq
    cases hr
    exact ⟨x, hx, ha, congrArg reportBody hresult⟩
  · cases hs

/-- **Every event keeps the invariant.** -/
theorem Inv.step (h : Inv S w s) {e : Event} (hs : w.step S e = some w') : Inv S w' s := by
  cases e with
  | ask a => exact h.ask hs
  | hear a i now signature => exact h.hear hs
  | execute a p => exact h.execute hs
  | finish a => exact h.finish hs
  | retry a => exact h.retry hs
  | arrive op =>
      simp only [World.step] at hs
      split_ifs at hs with hop
      cases hs
      exact h.receive (fun _ => by simpa using hop) fun _ hq => by cases hq
  | serve i =>
      obtain ⟨server, hserve, rfl⟩ := Option.map_eq_some_iff.mp hs
      exact h.serve hserve
  | deliver q =>
      obtain ⟨op, hop, rfl⟩ := Option.map_eq_some_iff.mp hs
      obtain ⟨r, hr, hcall⟩ := Option.bind_eq_some_iff.mp hop
      refine h.receive (fun hq => by cases hq) fun q' hq => ?_
      obtain rfl := Option.some.inj hq
      exact ⟨r, hr, hcall⟩
  | answered a i =>
      simp only [World.step] at hs
      split at hs
      · split_ifs at hs
        cases hs
        exact h.idle a
      · cases hs
  | stop a =>
      cases hs
      exact h.idle a

theorem Inv.run (h : Inv S w s) {es : List Event} (hs : w.run S es = some w') : Inv S w' s := by
  induction es generalizing w with
  | nil =>
      cases hs
      exact h
  | cons e es ih =>
      obtain ⟨w₁, hw₁, hs⟩ := Option.bind_eq_some_iff.mp hs
      exact ih (h.step hw₁) hs

end Invariant

end IkelyaneMonitor.Remediation.Protocol
