import Mathlib
import IkelyaneMonitor.Aiops.Leases

/-!
# Attempts at a written analysis

* `leases`, `call_keeps` : every call takes rightful steps only, whatever the others do and wherever it stops;
* `attempts_bounded` : at most three calls of the model for the findings of an incident, and never two workers at once. A
  refresh between a lease and the read after it breaks both (`refreshed_before_read`);
* `request_claimable` : a request that is pending can be claimed or waits for a time to come, while the last attempt is not
  lost. A worker that dies with it leaves the request pending for good (`lost_last_attempt`).
-/

namespace IkelyaneMonitor.Aiops.Workers
open Interleave IkelyaneMonitor.Topology
open RcaLlm (Store Stmt IncidentRow Claimed Narrative NarrativeInput Served maxAttempts settleMs leaseMs)

/-! ## What the calls promise each other -/

section Promises
variable {ι : Type} {i : ι} {s s' : World ι}

/-- The steps under which a lease keeps its findings. -/
def orderly (i : ι) (act : Act) (s : World ι) : Bool := inTime i act s && apart i act s

def leases : Spec ι Act (World ι) Outcome where
  inv := Inv
  rely := fun i _ s s' => (∀ h ∈ s.held, h.worker = i → h ∈ s'.held) ∧ s.now ≤ s'.now ∧
    ∀ c, Holds i c s → (c.ticket ∈ s'.asked.map Claim.ticket → c.ticket ∈ s.asked.map Claim.ticket) ∧
      (Pending c s' → Pending c s)
  guar := fun i s act s' _ => Rightful i s act ∧ Frame i s s'
  post := fun _ _ _ => True

abbrev Steady (i : ι) (P : World ι → Prop) : Prop := ∀ w, leases.Stable i w P

/-- The claims of a worker that it has not asked the model about. -/
def Ready (i : ι) (claims : List Claim) (s : World ι) : Prop :=
  ∀ c ∈ claims, Holds i c s ∧ c.ticket ∉ s.asked.map Claim.ticket

/-- The worker has leased a row that it has not read. -/
def Leased (i : ι) (id : Cuid) (s : World ι) : Prop := ∃ lease, ⟨i, id, lease, none⟩ ∈ s.held

theorem steady_true : Steady i fun _ => True := fun w => Spec.Stable.true i w

theorem steady_and {P Q : World ι → Prop} (hP : Steady i P) (hQ : Steady i Q) : Steady i fun s => P s ∧ Q s :=
  fun w s s' hs hs' hrely h => ⟨hP w s s' hs hs' hrely h.1, hQ w s s' hs hs' hrely h.2⟩

theorem steady_holds (c : Claim) : Steady i (Holds i c) := by
  rintro w s s' - - ⟨hheld, -⟩ ⟨h, hh, hworker, hclaim⟩
  exact ⟨h, hheld h hh hworker, hworker, hclaim⟩

theorem steady_ready (claims : List Claim) : Steady i (Ready i claims) := by
  intro w s s' hs hs' hrely h c hc
  obtain ⟨hholds, hnew⟩ := h c hc
  exact ⟨steady_holds c w s s' hs hs' hrely hholds, fun hmem => hnew ((hrely.2.2 c hholds).1 hmem)⟩

theorem steady_settled (c : Claim) : Steady i fun s => Holds i c s ∧ ¬ Pending c s :=
  fun w s s' hs hs' hrely h =>
    ⟨steady_holds c w s s' hs hs' hrely h.1, fun hpending => h.2 ((hrely.2.2 c h.1).2 hpending)⟩

theorem steady_leased (id : Cuid) : Steady i (Leased i id) := by
  rintro w s s' - - ⟨hheld, -⟩ ⟨lease, hh⟩
  exact ⟨lease, hheld _ hh rfl⟩

theorem steady_before (t : Int) : Steady i fun s => t < s.now := fun _ _ _ _ _ hrely h => lt_of_lt_of_le h hrely.2.1

variable [DecidableEq ι]

theorem compatible {ok : Conf ι Act (World ι) Outcome → ι → Prop} : leases.Compatible (restrict sem orderly) ok := by
  intro c i act k s' hinv _ _ _ hguar j hji
  obtain ⟨-, hframe⟩ := hguar
  refine ⟨fun h hh hworker => hframe.held h hh (hworker.trans_ne hji), hframe.now, fun claim hholds => ⟨fun hmem => ?_,
    hframe.pending j claim hji hholds⟩⟩
  obtain ⟨claim', hclaim', heq⟩ := List.mem_map.mp hmem
  rcases hframe.asked claim' hclaim' with hold | hmine
  · exact List.mem_map.mpr ⟨claim', hold, heq⟩
  · obtain ⟨hid, hrest⟩ := Prod.mk.inj heq
    exact absurd (hinv.ticket_inj hmine hholds hid (Prod.mk.inj hrest).1).1.symm hji

abbrev Keeps (i : ι) (p : Prog Act (World ι) Outcome) (P : World ι → Prop) : Prop :=
  leases.Sat (restrict sem orderly) i p P

/-- A step that the caller may take, and what it knows afterwards. -/
theorem keeps_stmt {act : Act} {k : World ι → Prog Act (World ι) Outcome} {P : World ι → Prop}
    (hright : ∀ s, Inv s → P s → Rightful i s act)
    (hk : ∀ s s', Inv s → P s → sem i act s = some s' → ∃ P', Steady i P' ∧ P' s' ∧ Keeps i (k s) P') :
    Keeps i (.stmt act k) P := by
  intro s s' hinv hP hs
  obtain ⟨hallowed, hsem⟩ := restrict_eq_some.mp hs
  obtain ⟨htime, hapart⟩ := (Bool.and_eq_true _ _).mp hallowed
  obtain ⟨P', hsteady, hP', hkeeps⟩ := hk s s' hinv hP hsem
  have hr := hright s hinv hP
  exact ⟨Inv.step hinv hr htime hapart hsem, ⟨hr, frame hinv hr hapart hsem⟩, P', hsteady _, hP', hkeeps⟩

theorem keeps_ret (a : Outcome) (P : World ι → Prop) : Keeps i (.ret a) P := fun _ _ _ => trivial

/-! ## Calls -/

/-- The other claims of the worker while one is served. -/
theorem ready_part {claim : Claim} {part : Part} {rest : List Claim} (hinv : Inv s) (hnotin : claim ∉ rest)
    (hholds : Holds i claim s) (hready : Ready i rest s) (hs : sem i (.serve claim part) s = some s') :
    Ready i rest s' := by
  obtain ⟨-, -, hheld, hasked⟩ := part_spec hs
  intro c hc
  obtain ⟨hother, hnew⟩ := hready c hc
  have hne : c ≠ claim := fun heq => hnotin (heq ▸ hc)
  refine ⟨?_, ?_⟩
  · obtain ⟨h, hh, hworker, hclaim⟩ := hother
    refine ⟨h, ?_, hworker, hclaim⟩
    rw [hheld]
    split
    · exact mem_without.mpr ⟨hh, fun hmine => hne (Option.some.inj (hclaim.symm.trans hmine.2))⟩
    · exact hh
  · rw [hasked]
    split
    · intro hmem
      rw [List.map_cons, List.mem_cons] at hmem
      rcases hmem with heq | hold
      · obtain ⟨hid, hrest⟩ := Prod.mk.inj heq
        exact hne (hinv.ticket_inj hother hholds hid (Prod.mk.inj hrest).1).2
      · exact hnew hold
    · exact hnew

/-- A step of `serveNarrative` that is not its last. -/
theorem keeps_on {claim : Claim} {part : Part} {rest : List Claim} {k : World ι → Prog Act (World ι) Outcome}
    (hnotin : claim ∉ rest) (hquiet : ∀ s : Store, part.ends s claim = false)
    (hright : ∀ s : World ι, Holds i claim s → Rightful i s (.serve claim part))
    (hk : ∀ s, Keeps i (k s) fun s => Holds i claim s ∧ Ready i rest s) :
    Keeps i (.stmt (.serve claim part) k) fun s => Holds i claim s ∧ Ready i rest s := by
  refine keeps_stmt (fun s _ h => hright s h.1) fun s s' hinv h hs => ?_
  refine ⟨_, steady_and (steady_holds claim) (steady_ready rest), ⟨?_, ready_part hinv hnotin h.1 h.2 hs⟩, hk s⟩
  obtain ⟨held, hh, hworker, hclaim⟩ := h.1
  refine ⟨held, ?_, hworker, hclaim⟩
  rw [(part_spec hs).2.2.1, hquiet]
  exact hh

/-- The last step of `serveNarrative`. -/
theorem keeps_last {claim : Claim} {part : Part} {rest : List Claim} {p : Prog Act (World ι) Outcome}
    (hnotin : claim ∉ rest) (hright : ∀ s : World ι, Holds i claim s → Rightful i s (.serve claim part))
    (hp : Keeps i p (Ready i rest)) :
    Keeps i (.stmt (.serve claim part) fun _ => p) fun s => Holds i claim s ∧ Ready i rest s :=
  keeps_stmt (fun s _ h => hright s h.1) fun _ _ hinv h hs =>
    ⟨_, steady_ready rest, ready_part hinv hnotin h.1 h.2 hs, hp⟩

theorem recover_keeps {claim : Claim} {description : String} {rest : List Claim}
    {next : Served → Prog Act (World ι) Outcome} (hnotin : claim ∉ rest)
    (hnext : ∀ result, Keeps i (next result) (Ready i rest)) :
    Keeps i (recover claim description next) fun s => Holds i claim s ∧ Ready i rest s := by
  unfold recover
  split
  · exact keeps_last hnotin (fun s h => ⟨h, fun _ => rfl⟩) (hnext .failed)
  · rename_i hmore
    refine keeps_on hnotin (fun _ => rfl) (fun s h => ⟨h, trivial⟩) fun s => ?_
    exact keeps_last hnotin (fun s h => ⟨h, fun hle => absurd hle hmore⟩) (hnext .failed)

theorem storeNarrative_keeps {claim : Claim} {fate : Fate} {input : NarrativeInput} {rest : List Claim}
    {next : Served → Prog Act (World ι) Outcome} (hnotin : claim ∉ rest)
    (hnext : ∀ result, Keeps i (next result) (Ready i rest)) :
    Keeps i (storeNarrative claim fate input next) fun s => Holds i claim s ∧ Ready i rest s := by
  unfold storeNarrative
  split
  · exact recover_keeps hnotin hnext
  · exact recover_keeps hnotin hnext
  · exact keeps_last hnotin (fun s h => ⟨h, trivial⟩) (hnext .refused)
  · refine keeps_stmt (fun s _ h => ⟨h.1, trivial⟩) fun s s' hinv h hs => ?_
    have hready := ready_part hinv hnotin h.1 h.2 hs
    split
    · exact ⟨_, steady_ready rest, hready, hnext .stale⟩
    · rename_i hfound
      have hholds : Holds i claim s' := by
        obtain ⟨held, hh, hworker, hclaim⟩ := h.1
        refine ⟨held, ?_, hworker, hclaim⟩
        rw [(part_spec hs).2.2.1, Part.ends, if_neg hfound]
        exact hh
      have hsettled : ¬ Pending claim s' := by
        rintro ⟨r', hr', hcurrent, hne⟩
        obtain ⟨r, -, hid, hstamp, -, hreq⟩ := (part_spec hs).1.rows r' hr'
        have hrow : r.current claim.claimed = true := by
          rw [current_iff, ← hid, ← hstamp]
          exact current_iff.mp hcurrent
        exact hne (hreq.trans (if_pos hrow))
      refine ⟨_, steady_and (steady_settled claim) (steady_ready rest), ⟨⟨hholds, hsettled⟩, hready⟩, ?_⟩
      split
      · exact Spec.Sat.mono (fun _ h => ⟨h.1.1, h.2⟩) (recover_keeps hnotin hnext)
      · exact keeps_stmt (fun s _ h => h.1) fun _ _ hinv h hs =>
          ⟨_, steady_ready rest, ready_part hinv hnotin h.1.1 h.2 hs, hnext .stored⟩

theorem serveNarrative_keeps {claim : Claim} {fate : Fate} {rest : List Claim}
    {next : Served → Prog Act (World ι) Outcome} (hnotin : claim ∉ rest)
    (hnext : ∀ result, Keeps i (next result) (Ready i rest)) :
    Keeps i (serveNarrative claim fate next) (Ready i (claim :: rest)) := by
  have hsplit : ∀ s, Ready i (claim :: rest) s → Holds i claim s ∧ Ready i rest s :=
    fun s h => ⟨(h claim List.mem_cons_self).1, fun c hc => h c (List.mem_cons_of_mem _ hc)⟩
  -- the steps before the model is asked touch neither the leases nor the claims
  have hread : ∀ (part : Part) (k : World ι → Prog Act (World ι) Outcome),
      (∀ s, Rightful i s (.serve claim part) ↔ Holds i claim s ∧ True) →
      (∀ s s', sem i (.serve claim part) s = some s' → s'.held = s.held ∧ s'.asked = s.asked) →
      (∀ s, Keeps i (k s) (Ready i (claim :: rest))) → Keeps i (.stmt (.serve claim part) k) (Ready i (claim :: rest)) := by
    intro part k hright hsame hk
    refine keeps_stmt (fun s _ h => (hright s).mpr ⟨(hsplit s h).1, trivial⟩) fun s s' _ h hs => ?_
    refine ⟨_, steady_ready _, fun c hc => ?_, hk s⟩
    obtain ⟨hheld, hasked⟩ := hsame s s' hs
    rw [Holds, hheld, hasked]
    exact h c hc
  refine hread _ _ (fun s => Iff.rfl) (fun s s' hs => ?_) fun s => ?_
  · obtain rfl := Option.some.inj hs
    exact ⟨rfl, rfl⟩
  · cases (s.db.get? claim.id).bind fun r => RcaLlm.buildNarrativeInput r fate.values with
    | none =>
        refine Spec.Sat.mono hsplit ?_
        exact keeps_last hnotin (fun s h => ⟨h, trivial⟩) (hnext .stale)
    | some input =>
        refine hread _ _ (fun s => Iff.rfl) (fun s s' hs => ?_) fun s => ?_
        · obtain rfl := Option.some.inj hs
          exact ⟨rfl, rfl⟩
        · refine keeps_stmt (fun s _ h => h claim List.mem_cons_self) fun s s' hinv h hs => ?_
          obtain ⟨hholds, hready⟩ := hsplit s h
          refine ⟨_, steady_and (steady_holds claim) (steady_ready rest), ⟨?_, ready_part hinv hnotin hholds hready hs⟩,
            storeNarrative_keeps hnotin hnext⟩
          obtain rfl := Option.some.inj hs
          exact hholds

theorem serveEach_keeps (fate : Cuid → Fate) {rest : List Claim} (hnodup : rest.Nodup) (results : List Served) :
    Keeps i (serveEach fate rest results) (Ready i rest) := by
  induction rest generalizing results with
  | nil => exact keeps_ret _ _
  | cons claim rest ih =>
      obtain ⟨hnotin, hrest⟩ := List.nodup_cons.mp hnodup
      exact serveNarrative_keeps hnotin fun result => ih hrest (results ++ [result])

/-- A row that is read is claimed with an attempt that nobody asked the model for. -/
theorem ready_read {id : Cuid} {claimed : List Claim} (hinv : Inv s) (hready : Ready i claimed s) (hleased : Leased i id s)
    {r : IncidentRow} (hget : s.db.get? id = some r) (hs : sem i (.readClaimed id) s = some s') :
    Ready i (claimed ++ [claimOf s.db r]) s' ∧ claimOf s.db r ∉ claimed := by
  obtain ⟨lease, hh⟩ := hleased
  obtain ⟨hr, rfl⟩ := get?_some hget
  rw [sem, hget] at hs
  obtain rfl := Option.some.inj hs
  constructor
  · intro c hc
    rcases List.mem_append.mp hc with hold | hnew
    · obtain ⟨⟨h, hmem, hworker, hclaim⟩, hticket⟩ := hready c hold
      refine ⟨⟨h, List.mem_map.mpr ⟨h, hmem, if_neg fun hmine => ?_⟩, hworker, hclaim⟩, hticket⟩
      rw [hclaim] at hmine
      cases hmine.2.2
    · obtain rfl := List.mem_singleton.mp hnew
      refine ⟨⟨_, List.mem_map.mpr ⟨_, hh, if_pos ⟨rfl, rfl, rfl⟩⟩, rfl, rfl⟩, ?_⟩
      obtain ⟨r', hr', hid, -, hticket⟩ := hinv.unread _ hh rfl
      rw [row_unique hr' hr hid] at hticket
      exact hticket
  · intro hmem
    obtain ⟨h, hh', -, hclaim⟩ := (hready _ hmem).1
    have hsame := hinv.exclusive h hh' _ hh (hinv.read h hh' _ hclaim).id_eq.symm (by rw [Held.version, hclaim]; rfl)
    rw [hsame] at hclaim
    cases hclaim

theorem claimEach_keeps (settledBefore : Int) (fate : Cuid → Fate) (ids : List Cuid) {claimed : List Claim}
    (hnodup : claimed.Nodup) :
    Keeps i (claimEach settledBefore ids claimed fun claimed => serveEach fate claimed [])
      fun s => settledBefore < s.now ∧ Ready i claimed s := by
  induction ids generalizing claimed with
  | nil => exact Spec.Sat.mono (fun _ h => h.2) (serveEach_keeps fate hnodup [])
  | cons id rest ih =>
      have hsteady : Steady i fun s : World ι => settledBefore < s.now ∧ Ready i claimed s :=
        steady_and (steady_before settledBefore) (steady_ready claimed)
      refine keeps_stmt (fun _ _ _ => trivial) fun s s' _ h hs => ⟨_, hsteady, ?_, ?_⟩
      · obtain rfl := Option.some.inj hs
        exact h
      · refine keeps_stmt (fun _ _ h => h.1) fun s s' _ h hs => ?_
        obtain rfl := Option.some.inj hs
        split
        · refine ⟨_, hsteady, ⟨h.1, fun c hc => ?_⟩, ih hnodup⟩
          obtain ⟨⟨held, hh, hclaim⟩, hticket⟩ := h.2 c hc
          exact ⟨⟨held, hh, hclaim⟩, hticket⟩
        · refine ⟨_, steady_and hsteady (steady_leased id), ⟨⟨h.1, fun c hc => ?_⟩, ?_⟩, ?_⟩
          · obtain ⟨⟨held, hh, hclaim⟩, hticket⟩ := h.2 c hc
            exact ⟨⟨held, List.mem_cons_of_mem _ hh, hclaim⟩, hticket⟩
          · exact ⟨_, List.mem_cons_self⟩
          · refine keeps_stmt (fun _ _ h => h.2) fun s s' hinv h hs => ?_
            cases hget : s.db.get? id with
            | none =>
                -- the row that was leased is there
                obtain ⟨lease, hh⟩ := h.2
                obtain ⟨r, hr, hid, -⟩ := hinv.unread _ hh rfl
                have hsome := get?_of_mem hr
                rw [hid, hget] at hsome
                cases hsome
            | some r =>
                obtain ⟨hready, hnew⟩ := ready_read hinv h.1.2 h.2 hget hs
                have hnow : settledBefore < s'.now := by
                  rw [sem, hget] at hs
                  obtain rfl := Option.some.inj hs
                  exact h.1.1
                exact ⟨_, steady_and (steady_before settledBefore) (steady_ready _), ⟨hnow, hready⟩,
                  ih (List.nodup_append.mpr ⟨hnodup, List.nodup_singleton _, fun a ha b hb heq =>
                    hnew (List.mem_singleton.mp hb ▸ heq ▸ ha)⟩)⟩

theorem claimNarrativeRequests_keeps (limit : Nat) (scope : Option (List Nat)) (fate : Cuid → Fate) :
    Keeps i (claimNarrativeRequests limit scope fun claimed => serveEach fate claimed []) fun _ => True := by
  unfold claimNarrativeRequests
  have hempty : ∀ s : World ι, Ready i [] s := fun s c hc => nomatch hc
  split
  · exact Spec.Sat.mono (fun s _ => hempty s) (serveEach_keeps fate List.nodup_nil [])
  · refine keeps_stmt (fun _ _ _ => trivial) fun s s' _ _ hs => ?_
    have hbefore : s.now - settleMs < s'.now := by
      obtain rfl := Option.some.inj hs
      show s.now - 60000 < s.now
      omega
    refine ⟨_, steady_before _, hbefore, keeps_stmt (fun _ _ _ => trivial) fun s₁ s₂ _ hbefore hs => ?_⟩
    obtain rfl := Option.some.inj hs
    exact ⟨_, steady_and (steady_before _) (steady_ready []), ⟨hbefore, hempty _⟩,
      claimEach_keeps _ fate _ List.nodup_nil⟩

/-- A step that needs to know nothing. -/
theorem keeps_plain {act : Act} (hright : ∀ s : World ι, Rightful i s act)
    {k : World ι → Prog Act (World ι) Outcome} (hk : ∀ s, Keeps i (k s) fun _ => True) :
    Keeps i (.stmt act k) fun _ => True :=
  keeps_stmt (fun s _ _ => hright s) fun s _ _ _ _ => ⟨_, steady_true, trivial, hk s⟩

theorem refresh_keeps (localeCompare : Collation Cuid) (llmEnabled : Bool) (orgId : Nat) (incidentId : Cuid)
    (others : List RcaIncident) (topology : RcaTopology) (now : Int) (force : Bool) :
    Keeps i (lift (RcaLlm.refreshIncidentRca localeCompare llmEnabled orgId incidentId others topology now force))
      fun _ => True := by
  rw [RcaLlm.refreshIncidentRca, lift]
  refine keeps_plain (by exact fun _ => trivial) fun s => ?_
  split
  · exact keeps_ret _ _
  · rw [lift]
    refine keeps_plain (by exact fun _ => trivial) fun s => ?_
    dsimp only
    split
    · exact keeps_ret _ _
    · rw [lift]
      exact keeps_plain (by exact fun _ => trivial) fun s => keeps_ret _ _

theorem waitEach_keeps (times : List Nat) : Keeps i (waitEach times) fun _ => True := by
  induction times with
  | nil => exact keeps_ret _ _
  | cons ms rest ih =>
      rw [waitEach]
      exact keeps_plain (by exact fun _ => trivial) fun _ => ih

theorem call_keeps (localeCompare : Collation Cuid) (op : Op) : Keeps i (op.call localeCompare) fun _ => True := by
  induction op with
  | refresh llmEnabled orgId incidentId others topology now force =>
      exact refresh_keeps localeCompare llmEnabled orgId incidentId others topology now force
  | round limit scope fate => exact claimNarrativeRequests_keeps limit scope fate
  | change =>
      rw [Op.call]
      exact keeps_plain (by exact fun _ => trivial) fun _ => keeps_ret _ _
  | wait times => exact waitEach_keeps times
  | crashing n op ih =>
      have hcrash : Keeps i (.stmt .crash fun _ => .ret .crashed) fun _ => True :=
        keeps_plain (by exact fun _ => trivial) fun _ => keeps_ret _ _
      exact Spec.Sat.failAt (fun _ _ _ _ h => h) (fun _ _ _ _ _ h => h) hcrash ih n

end Promises

/-! ## Every run -/

section Runs
variable {ι : Type}

theorem unstarted_inv (localeCompare : Collation Cuid) (ops : ι → Op) (rows : List IncidentRow)
    (hrows : (rows.map IncidentRow.id).Nodup) (now : Int) : Inv (unstarted localeCompare ops rows hrows now).store := by
  have hnone : ∀ h : Held ι, h ∉ (unstarted localeCompare ops rows hrows now).store.held := fun _ => List.not_mem_nil
  have hsilent : ∀ c, c ∉ (unstarted localeCompare ops rows hrows now).store.asked := fun _ => List.not_mem_nil
  refine ⟨?_, fun r hr => ?_, fun h hh => absurd hh (hnone h), fun h hh => absurd hh (hnone h),
    fun h hh => absurd hh (hnone h), fun h hh => absurd hh (hnone h), fun h hh => absurd hh (hnone h), List.nodup_nil,
    fun c hc => absurd hc (hsilent c)⟩
  · show (rows.map fun r => (r.id, r.rca.rcaGeneratedAt)).Nodup
    refine List.Nodup.of_map Prod.fst ?_
    rw [List.map_map]
    exact hrows
  · show (((rows.map fun r => (r.id, r.rca.rcaGeneratedAt)).filter fun v => v.1 = r.id).map Prod.snd).head? = _
    rw [List.head?_map, List.head?_filter, List.find?_map]
    have hfind : rows.find? ((fun v => decide (v.1 = r.id)) ∘ fun r => (r.id, r.rca.rcaGeneratedAt)) = some r :=
      get?_of_mem (s := (unstarted localeCompare ops rows hrows now).store.db) hr
    rw [hfind]
    rfl

theorem Passes.step {p : ι → Act → World ι → Bool} {c : Conf ι Act (World ι) Outcome} {i : ι} (h : Passes p c i) {w : Act}
    {k : World ι → Prog Act (World ι) Outcome} (hw : c.calls i = .stmt w k) : p i w c.store = true := by
  rw [Passes, passes, hw] at h
  exact h

variable [DecidableEq ι]

theorem unstarted_good (localeCompare : Collation Cuid) (ops : ι → Op) (rows : List IncidentRow)
    (hrows : (rows.map IncidentRow.id).Nodup) (now : Int) :
    leases.Good (restrict sem orderly) (unstarted localeCompare ops rows hrows now) :=
  Spec.Good.init (unstarted_inv localeCompare ops rows hrows now) fun i => call_keeps localeCompare (ops i)

theorem reach_good (localeCompare : Collation Cuid) (ops : ι → Op) (rows : List IncidentRow)
    (hrows : (rows.map IncidentRow.id).Nodup) (now : Int) {c : Conf ι Act (World ι) Outcome}
    (hr : Reach sem (Passes orderly) (unstarted localeCompare ops rows hrows now) c) :
    leases.Good (restrict sem orderly) c := by
  exact (unstarted_good localeCompare ops rows hrows now).reach compatible (hr.restrict fun _ _ w k hok hw => hok.step hw)

/-- The findings of an incident cost at most three calls of the model. -/
def Bounded (s : World ι) : Prop :=
  ∀ id v, (s.asked.filter fun c => decide (c.id = id ∧ c.version = v)).length ≤ maxAttempts

/-- Findings are served by one worker at a time. -/
def Exclusive (c : Conf ι Act (World ι) Outcome) : Prop :=
  ∀ i j a b, serving c i = some a → serving c j = some b → a.id = b.id → a.version = b.version → i = j

omit [DecidableEq ι] in
theorem Inv.bounded {s : World ι} (hinv : Inv s) : Bounded s := by
  intro id v
  -- the calls for these findings have different attempts
  have hnodup : ((s.asked.filter fun c => decide (c.id = id ∧ c.version = v)).map Claim.rcaLlmAttempts).Nodup := by
    refine List.Nodup.map_on (fun c hc c' hc' heq => ?_) (hinv.asked_nodup.of_map.filter _)
    obtain ⟨hmem, hsame⟩ := List.mem_filter.mp hc
    obtain ⟨hmem', hsame'⟩ := List.mem_filter.mp hc'
    obtain ⟨hid, hversion⟩ := of_decide_eq_true hsame
    obtain ⟨hid', hversion'⟩ := of_decide_eq_true hsame'
    refine List.inj_on_of_nodup_map hinv.asked_nodup hmem hmem' ?_
    rw [Claim.ticket, Claim.ticket, hid, hid', hversion, hversion', heq]
  have hsub : (s.asked.filter fun c => decide (c.id = id ∧ c.version = v)).map Claim.rcaLlmAttempts ⊆ [1, 2, 3] := by
    intro n hn
    obtain ⟨c, hc, rfl⟩ := List.mem_map.mp hn
    obtain ⟨hlow, hhigh⟩ := (hinv.asked_le c (List.mem_filter.mp hc).1).1
    have hmax : c.rcaLlmAttempts ≤ 3 := hhigh
    simp only [List.mem_cons, List.not_mem_nil, or_false]
    omega
  have hle := (List.subperm_of_subset hnodup hsub).length_le
  rw [List.length_map] at hle
  exact hle

theorem serve_runs (i : ι) (claim : Claim) (part : Part) (s : World ι) : ∃ s', sem i (.serve claim part) s = some s' := by
  cases part <;> exact ⟨_, rfl⟩

/-- A worker that serves a claim holds it. -/
theorem holds_of_serving {c : Conf ι Act (World ι) Outcome} (hgood : leases.Good (restrict sem orderly) c) {i : ι}
    {claim : Claim} (h : serving c i = some claim) : Holds i claim c.store := by
  obtain ⟨part, k, hcall⟩ : ∃ part k, c.calls i = .stmt (.serve claim part) k := by
    unfold serving at h
    split at h
    · rename_i hcall
      obtain rfl := Option.some.inj h
      exact ⟨_, _, hcall⟩
    · cases h
  obtain ⟨P, -, hP, hsat⟩ := hgood.2 i
  rw [hcall] at hsat
  obtain ⟨s', hs⟩ := serve_runs i claim part c.store
  obtain ⟨-, hguar, -⟩ := hsat _ _ hgood.1 hP (restrict_eq_some.mpr ⟨rfl, hs⟩)
  exact hguar.1.1

/-- In every run in which leases are served in time, no findings are written between a lease and the read after it and the
findings of an incident have different times: however the calls interleave and wherever they stop, the model is called
three times at most for the findings of an incident, and two workers never serve them at once. -/
theorem attempts_bounded (localeCompare : Collation Cuid) (ops : ι → Op) (rows : List IncidentRow)
    (hrows : (rows.map IncidentRow.id).Nodup) (now : Int) {c : Conf ι Act (World ι) Outcome}
    (hr : Reach sem (Passes orderly) (unstarted localeCompare ops rows hrows now) c) :
    Bounded c.store ∧ Exclusive c := by
  have hgood := reach_good localeCompare ops rows hrows now hr
  refine ⟨hgood.1.bounded, fun i j a b ha hb hid hversion => ?_⟩
  exact (hgood.1.ticket_inj (holds_of_serving hgood ha) (holds_of_serving hgood hb) hid hversion).1

end Runs

section Refreshed
open RcaLlm (analysed)

/-- A model that is overloaded for the first attempts, and answers then. -/
def overloaded (_ : Cuid) : Fate := ⟨[], fun _ => .error "InternalServerError 529", "claude", none, none⟩

def answering (_ : Cuid) : Fate := ⟨[], fun _ => .parsed "Check the host." "Hôte à vérifier.", "claude", none, none⟩

/-- Four workers, a refresh and the clock. -/
def workersAndRefresh : Nat → Op
  | 0 => .wait [60000, 60000, 240000]
  | 1 | 4 => .round 1 none overloaded
  | 2 => .refresh true 1 analysed.id [] ⟨[], [], List.nodup_nil, List.nodup_nil⟩ 60000 true
  | 3 | 5 => .round 1 none answering
  | _ => .wait []

def startedAtEpoch (ops : Nat → Op) : Conf Nat Act (World Nat) Outcome :=
  unstarted Cuid.codeUnits ops [analysed] (List.nodup_singleton _) 0

def served : List Nat := [0, 3, 3, 3, 3, 3, 3, 3, 3, 3, 3]

theorem attempts_bounded_worker :
    ∃ c, (startedAtEpoch workersAndRefresh).run sem served = some c ∧ c.store.asked.length = 1 ∧
      c.store.db.incidents.map (fun r => r.rca.rcaSummaryEn) = [some "Check the host."] ∧ Bounded c.store ∧ Exclusive c := by
  have hrun : ((startedAtEpoch workersAndRefresh).run sem served).any (fun c => decide (c.store.asked.length = 1 ∧
      c.store.db.incidents.map (fun r => r.rca.rcaSummaryEn) = [some "Check the host."])) = true := by
    decide +kernel
  obtain ⟨c, hc, hcheck⟩ := (Option.any_eq_true _ _).mp hrun
  have hsteps : (startedAtEpoch workersAndRefresh).allSteps sem (passes orderly) served = true := by
    decide +kernel
  have hreach : Reach sem (Passes orderly) (startedAtEpoch workersAndRefresh) c :=
    Reach.of_allSteps (fun _ _ h => h) hsteps hc
  exact ⟨c, hc, (of_decide_eq_true hcheck).1, (of_decide_eq_true hcheck).2,
    attempts_bounded Cuid.codeUnits workersAndRefresh [analysed] (by decide) 0 hreach⟩

/-- The refresh comes between the lease of the first worker and its read. -/
def refreshedBetween : List Nat :=
  [0, 1, 1, 1, 1, 2, 2, 2, 1, 1, 1, 1, 0] ++ List.replicate 8 3 ++ [1, 1] ++ List.replicate 10 4 ++ [0] ++ List.replicate 8 5

theorem refreshed_before_read :
    ∃ c, Reach sem (Passes inTime) (startedAtEpoch workersAndRefresh) c ∧ ¬ Bounded c.store ∧ ¬ Exclusive c := by
  have hrun : ((startedAtEpoch workersAndRefresh).run sem refreshedBetween).any (fun c =>
      decide ((c.store.asked.filter fun a => decide (a.id = analysed.id ∧ a.version = 2)).length = 4) &&
        (serving c 3).any (fun a => (serving c 5).any fun b => decide (a.id = b.id ∧ a.version = b.version))) = true := by
    decide +kernel
  obtain ⟨c, hc, hcheck⟩ := (Option.any_eq_true _ _).mp hrun
  have hsteps : (startedAtEpoch workersAndRefresh).allSteps sem (passes inTime) refreshedBetween = true := by
    decide +kernel
  obtain ⟨hcalls, hserving⟩ := (Bool.and_eq_true _ _).mp hcheck
  refine ⟨c, Reach.of_allSteps (fun _ _ h => h) hsteps hc, fun hbounded => ?_, fun hexclusive => ?_⟩
  · have hle := hbounded analysed.id 2
    rw [of_decide_eq_true hcalls] at hle
    exact absurd hle (by decide)
  · obtain ⟨a, ha, hother⟩ := (Option.any_eq_true _ _).mp hserving
    obtain ⟨b, hb, hsame⟩ := (Option.any_eq_true _ _).mp hother
    obtain ⟨hid, hversion⟩ := of_decide_eq_true hsame
    exact absurd (hexclusive 3 5 a b ha hb hid hversion) (by decide)

end Refreshed

/-! ## The last attempt -/

section Last
variable {ι : Type} {i : ι} {s s' : World ι}

/-- The findings of the row are held, and the lease has not ended. -/
def Live (s : World ι) (r : IncidentRow) : Prop :=
  ∃ h ∈ s.held, h.id = r.id ∧ h.version s.db = version s.db h.id ∧ s.now < h.lease

/-- A request that has had its attempts is being served. -/
def Awaited (s : World ι) : Prop :=
  ∀ r ∈ s.db.incidents, r.rca.rcaLlmRequestedAt ≠ none → r.rca.rcaLlmAttempts < maxAttempts ∨ Live s r

/-- A request can be claimed in time, or has been put off. -/
def Claimable (s : World ι) : Prop :=
  ∀ r ∈ s.db.incidents, ∀ t, r.rca.rcaLlmRequestedAt = some t → r.rca.rcaLlmAttempts < maxAttempts ∨ s.now < t

theorem Awaited.claimable (h : Awaited s) (hinv : Inv s) : Claimable s := by
  intro r hr t ht
  refine (h r hr (by simp [ht])).imp_right fun hlive => ?_
  obtain ⟨held, hh, hid, hversion, hnow⟩ := hlive
  exact lt_of_lt_of_le hnow (hinv.postponed held hh hversion r hr hid.symm t ht)

/-- While a claim is of the last findings, the row has its time. -/
theorem Inv.current_of_version (hinv : Inv s) {id : Cuid} {c : Claim} (hknown : Known s.db id c) {r : IncidentRow}
    (hr : r ∈ s.db.incidents) (hid : r.id = id) (hversion : c.version = version s.db id) :
    r.current c.claimed = true := by
  obtain ⟨newer, older, heq, hlen⟩ := hknown.numbered
  have hempty : newer = [] := by
    unfold version at hversion
    rw [heq, List.length_append, List.length_cons] at hversion
    exact List.eq_nil_of_length_eq_zero (by omega)
  have hhead := hinv.stamped r hr
  rw [hid, heq, hempty, List.nil_append, List.head?_cons, Option.some.injEq] at hhead
  exact current_iff.mpr ⟨hid.trans hknown.id_eq.symm, hhead.symm⟩

theorem version_of_versions {db : Store} (hw : db.versions = s.db.versions) (id : Cuid) :
    version db id = version s.db id := by
  rw [version, version, history, history, hw]

theorem Held.version_of_versions {db : Store} (hw : db.versions = s.db.versions) (h : Held ι) :
    h.version db = h.version s.db := by
  unfold Held.version
  split
  · exact Workers.version_of_versions hw h.id
  · rfl

/-- A write that keeps the counts, and asks again only where attempts are left. -/
theorem Awaited.update (h : Awaited s) {db : Store} {p : IncidentRow → Bool} {request : Option Int}
    (hw : Rewrites s.db db p request)
    (hleft : request = none ∨ ∀ r ∈ s.db.incidents, p r = true → r.rca.rcaLlmAttempts < maxAttempts) :
    Awaited { s with db := db } := by
  intro r' hr' hne
  obtain ⟨r, hr, hid, -, hattempts, hreq⟩ := hw.rows r' hr'
  rw [hreq] at hne
  show r'.rca.rcaLlmAttempts < maxAttempts ∨ _
  rw [hattempts]
  split at hne
  · rename_i hp
    exact .inl (hleft.elim (fun hnone => absurd hnone hne) fun hall => hall r hr hp)
  · refine (h r hr hne).imp_right fun hlive => ?_
    obtain ⟨held, hh, hheld, hversion, hnow⟩ := hlive
    refine ⟨held, hh, hheld.trans hid.symm, ?_, hnow⟩
    show held.version db = version db held.id
    rw [Held.version_of_versions hw.versions, version_of_versions hw.versions]
    exact hversion

theorem Awaited.write (h : Awaited s) {id : Cuid} {findings : RcaFindings} {llmEnabled : Bool} {now : Int} :
    Awaited { s with db := written s.db id findings llmEnabled now } := by
  intro r hr hne
  rcases mem_written hr with ⟨-, hrca⟩ | ⟨hother, hold⟩
  · left
    rw [hrca]
    exact Nat.zero_lt_succ 2
  · refine (h r hold hne).imp_right fun hlive => ?_
    obtain ⟨held, hh, hid, hversion, hnow⟩ := hlive
    refine ⟨held, hh, hid, ?_, hnow⟩
    show held.version (written s.db id findings llmEnabled now) = version (written s.db id findings llmEnabled now) held.id
    rw [version_written_ne (hid.trans_ne hother), ← hversion]
    cases hc : held.claim with
    | none =>
        rw [Held.version, Held.version, hc]
        exact version_written_ne (hid.trans_ne hother)
    | some c => rw [Held.version, Held.version, hc]

theorem Held.last_of_row {h : Held ι} {r : IncidentRow} (hr : r ∈ s.db.incidents) (hid : h.id = r.id)
    (hversion : h.version s.db = Workers.version s.db h.id) (hmore : ¬ r.rca.rcaLlmAttempts < maxAttempts) :
    h.last s.db = true := by
  unfold Held.last
  rw [hid, get?_of_mem hr, ← hid, hversion]
  simpa using hmore

variable [DecidableEq ι]

/-- The row whose last attempt a call has is not pending when the call is done with it. -/
theorem Awaited.part (h : Awaited s) (hinv : Inv s) {claim : Claim} {part : Part}
    (hright : Rightful i s (.serve claim part)) (hs : sem i (.serve claim part) s = some s') : Awaited s' := by
  obtain ⟨hholds, hpart⟩ := hright
  obtain ⟨held₀, hh₀, hworker, hclaim⟩ := hholds
  have hknown := hinv.read held₀ hh₀ claim hclaim
  obtain ⟨hrows, hnow, hheld, -⟩ := part_spec hs
  have hleft : part.request = none ∨ ∀ r ∈ s.db.incidents, part.rows claim r = true → r.rca.rcaLlmAttempts < maxAttempts := by
    cases part with
    | recordError description retryAt =>
        cases retryAt with
        | none => exact .inl rfl
        | some t =>
            refine .inr fun r hr hp => ?_
            have hcurrent : r.current claim.claimed = true := hp
            have hid : r.id = held₀.id := (current_iff.mp hcurrent).1.trans hknown.id_eq
            rw [hknown.counted r hr hid (hinv.current hknown hr hcurrent)]
            exact Nat.lt_of_not_le fun hle => nomatch hpart hle
    | _ => exact .inl rfl
  have hupdated := h.update hrows hleft
  intro r' hr' hne
  by_cases hmore : r'.rca.rcaLlmAttempts < maxAttempts
  · exact .inl hmore
  obtain ⟨held, hh, hid, hversion, hbefore⟩ := (hupdated r' hr' hne).resolve_left hmore
  refine .inr ⟨held, ?_, hid, hversion, ?_⟩
  · rw [hheld]
    split
    · rename_i hends
      refine mem_without.mpr ⟨hh, fun hmine => ?_⟩
      -- the lease that ends is that of the row, which the step has written
      obtain ⟨r, hr, hrid, -, hattempts, hreq⟩ := hrows.rows r' hr'
      have hsame : held.id = held₀.id := (hinv.read held hh claim hmine.2).id_eq.symm.trans hknown.id_eq
      have hlast : claim.version = version s.db held₀.id := by
        have hcurrent : held.version s.db = version s.db held.id := by
          rw [← Held.version_of_versions hrows.versions, ← version_of_versions hrows.versions]
          exact hversion
        rw [Held.version, hmine.2, hsame] at hcurrent
        exact hcurrent
      have hrow : r.id = held₀.id := hrid.symm.trans (hid.symm.trans hsame)
      have hcurrent := hinv.current_of_version hknown hr hrow hlast
      cases part with
      | dateNow | readInput | readMetrics | callModel => cases hends
      | dropRequest => exact hne (hreq.trans (if_pos (decide_eq_true (hrow.trans hknown.id_eq.symm))))
      | refuse => exact hne (hreq.trans (if_pos hcurrent))
      | store narrative model input => exact hne (hreq.trans (if_pos hcurrent))
      | createEvent =>
          have hkept : r'.rca.rcaLlmRequestedAt = r.rca.rcaLlmRequestedAt := hreq
          exact hpart ⟨r, hr, hcurrent, hkept ▸ hne⟩
      | recordError description retryAt =>
          rcases hleft with hnone | hall
          · exact hne (hreq.trans ((if_pos hcurrent).trans hnone))
          · exact hmore (hattempts ▸ hall r hr hcurrent)
    · exact hh
  · show s'.now < held.lease
    rw [hnow]
    exact hbefore

theorem Awaited.step (h : Awaited s) (hinv : Inv s) {act : Act} (hright : Rightful i s act)
    (hfinishes : finishes i act s = true) (hs : sem i act s = some s') : Awaited s' := by
  cases act with
  | dateNow =>
      obtain rfl := Option.some.inj hs
      exact h
  | tick ms =>
      obtain rfl := Option.some.inj hs
      intro r hr hne
      by_cases hmore : r.rca.rcaLlmAttempts < maxAttempts
      · exact .inl hmore
      · obtain ⟨held, hh, hid, hversion, -⟩ := (h r hr hne).resolve_left hmore
        have hlast := Held.last_of_row hr hid hversion hmore
        have hnow := List.all_eq_true.mp hfinishes held hh
        rw [hlast] at hnow
        exact .inr ⟨held, hh, hid, hversion, of_decide_eq_true hnow⟩
  | crash =>
      obtain rfl := Option.some.inj hs
      intro r hr hne
      by_cases hmore : r.rca.rcaLlmAttempts < maxAttempts
      · exact .inl hmore
      · obtain ⟨held, hh, hid, hversion, hnow⟩ := (h r hr hne).resolve_left hmore
        have hlast := Held.last_of_row hr hid hversion hmore
        have hother := List.all_eq_true.mp hfinishes held hh
        rw [hlast, Bool.not_true, Bool.or_false] at hother
        exact .inr ⟨held, List.mem_filter.mpr ⟨hh, hother⟩, hid, hversion, hnow⟩
  | sql w =>
      cases w with
      | findIncident | loadContext | findCandidates =>
          obtain rfl := Option.some.inj hs
          exact h
      | writeFindings id findings llmEnabled now =>
          obtain rfl := Option.some.inj hs
          exact h.write
      | change =>
          have hrows := change_spec hs
          obtain rfl := Option.some.inj hs
          exact h.update hrows (.inl rfl)
      | _ => exact hright.elim
  | lease id settledBefore lease =>
      obtain rfl := Option.some.inj hs
      cases hmissed : missed s.db (dueRow id settledBefore) with
      | true => exact h.update (missed_spec hmissed) (.inl rfl)
      | false =>
          intro r' hr' hne
          obtain ⟨r, hr, rfl⟩ :=
            (@mem_updateMany s.db (dueRow id settledBefore) (leased lease) (leased_id lease) r').mp hr'
          by_cases hdue : dueRow id settledBefore r = true
          · right
            rw [if_pos hdue]
            exact ⟨_, List.mem_cons_self, (dueRow_iff.mp hdue).1.symm, rfl, of_decide_eq_true hfinishes⟩
          · rw [if_neg hdue] at hne ⊢
            refine (h r hr hne).imp_right fun hlive => ?_
            obtain ⟨held, hh, hrest⟩ := hlive
            exact ⟨held, List.mem_cons_of_mem _ hh, hrest⟩
  | readClaimed id =>
      rw [sem] at hs
      split at hs
      · rename_i hget
        obtain rfl := Option.some.inj hs
        intro r hr hne
        refine (h r hr hne).imp_right fun hlive => ?_
        obtain ⟨held, hh, hid, hrest⟩ := hlive
        refine ⟨held, List.mem_filter.mpr ⟨hh, decide_eq_true fun hmine => ?_⟩, hid, hrest⟩
        have hsome := get?_of_mem hr
        rw [← hid, hmine.2, hget] at hsome
        cases hsome
      · rename_i row hget
        obtain rfl := Option.some.inj hs
        obtain ⟨-, hrid⟩ := get?_some hget
        intro r hr hne
        refine (h r hr hne).imp_right fun hlive => ?_
        obtain ⟨held, hh, hid, hversion, hnow⟩ := hlive
        refine ⟨_, List.mem_map.mpr ⟨held, hh, rfl⟩, ?_⟩
        unfold Held.read
        split
        · rename_i hmine
          refine ⟨hid, ?_, hnow⟩
          show version s.db row.id = version s.db held.id
          rw [hrid, hmine.2.1]
        · exact ⟨hid, hversion, hnow⟩
  | serve claim part => exact h.part hinv hright hs

/-- No request is stuck, in every run in which leases are served in time, no findings are written between a lease and the
read after it, the findings of an incident have different times, and no worker with the last attempt at some findings stops
or stays until its lease ends. -/
theorem request_claimable (localeCompare : Collation Cuid) (ops : ι → Op) (rows : List IncidentRow)
    (hrows : (rows.map IncidentRow.id).Nodup)
    (hleft : ∀ r ∈ rows, r.rca.rcaLlmRequestedAt ≠ none → r.rca.rcaLlmAttempts < maxAttempts) (now : Int)
    {c : Conf ι Act (World ι) Outcome}
    (hr : Reach sem (Passes fun i act s => orderly i act s && finishes i act s)
      (unstarted localeCompare ops rows hrows now) c) : Claimable c.store := by
  replace hr := hr.restrict (q := orderly) fun c i w k hok hw => ((Bool.and_eq_true _ _).mp (hok.step hw)).1
  have hboth : leases.Good (restrict sem orderly) c ∧ Awaited c.store := by
    induction hr with
    | refl => exact ⟨unstarted_good localeCompare ops rows hrows now, fun r hr hne => .inl (hleft r hr hne)⟩
    | step _ hok hs ih =>
        obtain ⟨-, w, k, hw, hstep, -, hguar⟩ := ih.1.guar hs
        obtain ⟨-, hsem⟩ := restrict_eq_some.mp hstep
        exact ⟨ih.1.reach compatible (Reach.single hok hs),
          ih.2.step ih.1.1 hguar.1 ((Bool.and_eq_true _ _).mp (hok.step hw)).2 hsem⟩
  exact hboth.2.claimable hboth.1.1

end Last

section Lost
open RcaLlm (analysed)

/-- Three workers that die while they wait for the model. -/
def dyingWorkers : Nat → Op
  | 0 => .wait [60000, 660000, 660000, 660000]
  | 1 | 2 | 3 => .crashing 8 (.round 1 none answering)
  | _ => .wait []

def untilLost : List Nat :=
  [0] ++ List.replicate 9 1 ++ [0] ++ List.replicate 9 2 ++ [0] ++ List.replicate 9 3 ++ [0]

theorem request_claimable_backoff :
    ∃ c, (startedAtEpoch workersAndRefresh).run sem ([0] ++ List.replicate 10 1) = some c ∧
      (c.store.db.incidents.map fun r => (r.rca.rcaLlmAttempts, r.rca.rcaLlmRequestedAt)) = [(1, some 120000)] ∧
        Claimable c.store := by
  have hrun : ((startedAtEpoch workersAndRefresh).run sem ([0] ++ List.replicate 10 1)).any (fun c =>
      decide ((c.store.db.incidents.map fun r => (r.rca.rcaLlmAttempts, r.rca.rcaLlmRequestedAt)) =
        [(1, some 120000)])) = true := by
    decide +kernel
  obtain ⟨c, hc, hcheck⟩ := (Option.any_eq_true _ _).mp hrun
  have hsteps : (startedAtEpoch workersAndRefresh).allSteps sem
      (passes fun i act s => orderly i act s && finishes i act s) ([0] ++ List.replicate 10 1) = true := by
    decide +kernel
  exact ⟨c, hc, of_decide_eq_true hcheck, request_claimable Cuid.codeUnits workersAndRefresh [analysed] (by decide)
    (by decide) 0 (Reach.of_allSteps (fun _ _ h => h) hsteps hc)⟩

theorem lost_last_attempt :
    ∃ c, Reach sem (Passes orderly) (startedAtEpoch dyingWorkers) c ∧ ¬ Claimable c.store := by
  have hrun : ((startedAtEpoch dyingWorkers).run sem untilLost).any (fun c =>
      c.store.db.incidents.any fun r => decide (r.rca.rcaLlmRequestedAt = some 1980000 ∧
        ¬(r.rca.rcaLlmAttempts < maxAttempts ∨ c.store.now < 1980000))) = true := by
    decide +kernel
  obtain ⟨c, hc, hcheck⟩ := (Option.any_eq_true _ _).mp hrun
  have hsteps : (startedAtEpoch dyingWorkers).allSteps sem (passes orderly) untilLost = true := by
    decide +kernel
  refine ⟨c, Reach.of_allSteps (fun _ _ h => h) hsteps hc, fun hclaimable => ?_⟩
  obtain ⟨r, hr, hrow⟩ := List.any_eq_true.mp hcheck
  obtain ⟨hpending, hlost⟩ := of_decide_eq_true hrow
  exact hlost (hclaimable r hr 1980000 hpending)

end Lost

end IkelyaneMonitor.Aiops.Workers
