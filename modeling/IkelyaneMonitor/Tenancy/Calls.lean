import IkelyaneMonitor.Auth.Permissions
import IkelyaneMonitor.Crypto
import IkelyaneMonitor.Tenancy.Tables

/-!
# Requests on the configuration, and what keeps them within their organization

* `Requester`, `Draws`, `Platform` : who asks, what the call draws, and what it takes from outside; `Outcome` : how it ends;
* `resolveHost`, `hostOf` : the check of a host that is given, and the host that a row refers to;
* `recordAudit`, `audited` : an entry of the trail, and a transaction whose last statement is a write with its entry;
* `Confined orgId P p` : call `p` reads what is the same to its organization whatever the others have, and touches the rows
  of its organization only, from a database of `P`; one lemma for each way in which a call goes on;
* `Model.findMany_alike`, `Model.within_create`, `Model.within_update`, `Model.within_delete` : reads and writes by `orgId`.
-/

namespace IkelyaneMonitor.Tenancy
open Interleave Relational
open Crypto (Gcm)
open Remediation (JsonValue)

structure Requester extends Auth.Actor where
  email : String
  ip : Option String

/-- The ids of the new row and of the entry, and the clock of the database. -/
structure Draws where
  id : Nat
  auditId : Nat
  now : Int

/-- The runtime. `inet` is how PostgreSQL reads an address, `collate` the order of its texts. -/
structure Platform (URL : Type) where
  web : Saas.Platform URL
  href : URL → String
  inet : String → Option String
  collate : String → String → Bool
  gcm : Gcm
  sha256 : String → String
  idText : Nat → String

/-- A string that JavaScript takes for true. -/
def truthy (text : Option String) : Option String := text.filter fun t => t ≠ ""

inductive ReadError where
  | forbidden
  deriving DecidableEq, Repr

inductive Outcome (ε α : Type) where
  | ok (value : α)
  | fail (error : ε)
  | thrown
  deriving DecidableEq, Repr

def recordAudit (actor : Requester) (draws : Draws) (action : AuditAction) (targetId : Nat) (metadata : Option JsonValue) :
    AuditLog where
  id := draws.auditId
  orgId := actor.orgId
  actorId := actor.userId
  actorEmail := actor.email
  action := action
  targetType := action.kind.targetType
  targetId := targetId
  ipAddress := actor.ip
  metadata := metadata
  createdAt := draws.now

/-- A transaction that writes, records its entry if the write hit a row, and commits. -/
def audited {ε α : Type} (w : Write Row Key) (entry : AuditLog) (done : Nat → Outcome ε α) : DbCall (Outcome ε α) :=
  schema.commit [w] (some entry) fun n => .ret (n.elim .thrown done)

/-- A write that is not audited, outside of a transaction. -/
def unaudited {ε α : Type} (w : Write Row Key) (done : Nat → Outcome ε α) : DbCall (Outcome ε α) :=
  schema.commit [w] none fun n => .ret (n.elim .thrown done)

/-- `if (result.count !== 1) return fail(…)` -/
def counted {ε : Type} (missing : ε) (n : Nat) : Outcome ε Unit := if n = 1 then .ok () else .fail missing

/-- `orderBy` on a text, ascending. -/
def orderBy {τ : Type} (collate : String → String → Bool) (text : τ → String) (rows : List τ) : List τ :=
  rows.insertionSort fun a b => collate (text a) (text b) = true

/-- A host of the organization, or none at all: `resolvePoller`, and `hostInOrg` of `modules/remediation/actions.ts`. -/
def resolveHost {α : Type} (orgId : Nat) (hostId : Option Nat) (k : Bool → DbCall α) : DbCall α :=
  match hostId with
  | none => k true
  | some id => read (fun s => (monitoredHost.findFirst s fun h => h.id == id && h.orgId == orgId).isSome) k

/-- The host that a foreign key leads to. -/
def hostOf (s : Db) (hostId : Option Nat) : Option MonitoredHost :=
  hostId.bind fun id => monitoredHost.findFirst s fun h => h.id == id

/-! ## Calls that stay within an organization -/

/-- What the call promises, whichever organization the others are of. -/
def Confined {α : Type} (orgId : Nat) (P : Db → Prop) (p : DbCall α) : Prop :=
  ∀ (ι : Type) (org : ι → Nat) (i : ι), org i = orgId → (secure schema AuditLog.orgId org).Sat schema.sem i p P

/-- No other call breaks `P`. -/
def Steady (P : Db → Prop) : Prop := ∀ (ι : Type) (org : ι → Nat), (secure schema AuditLog.orgId org).Stable P

/-- Rows that a call of `d` has seen. -/
def Knows (d : Nat) (ks : List Key) (s : Db) : Prop := ∀ k ∈ ks, Known schema d k s

variable {α β : Type} {d : Nat} {P : Db → Prop}

theorem Steady.true : Steady fun _ => True := fun _ _ => Secure.Stable.true

theorem Steady.knows (d : Nat) (ks : List Key) : Steady (Knows d ks) :=
  fun _ _ s s' hs hrely h k hk => Known.stable d k s s' hs hrely (h k hk)

theorem Steady.and {Q : Db → Prop} (hP : Steady P) (hQ : Steady Q) : Steady fun s => P s ∧ Q s :=
  fun ι org => (hP ι org).and (hQ ι org)

theorem Steady.imp {b : Prop} (hP : Steady P) : Steady fun s => b → P s := fun ι org => (hP ι org).imp

namespace Confined

theorem ret (a : α) : Confined d P (.ret a) := fun _ _ _ _ => trivial

theorem mono {Q : Db → Prop} {p : DbCall α} (h : ∀ s, Q s → P s) (hp : Confined d P p) : Confined d Q p :=
  fun ι org i hi => (hp ι org i hi).mono h

theorem map {p : DbCall α} (f : α → β) (hp : Confined d P p) : Confined d P (p.map f) :=
  fun ι org i hi => (hp ι org i hi).map f

/-- A branch on something that is no part of the database. -/
theorem ite {b : Prop} [Decidable b] {p q : DbCall α} (hp : b → Confined d P p) (hq : ¬ b → Confined d P q) :
    Confined d P (if b then p else q) := by
  split
  · exact hp ‹_›
  · exact hq ‹_›

/-- A read of what the organization sees, and what it tells. -/
theorem read {f : Db → β} {k : β → DbCall α} {Q : β → Db → Prop}
    (hf : ∀ s t, P s → P t → schema.Sound s.rows s.drawn → schema.Sound t.rows t.drawn →
      Alike schema AuditLog.orgId d s t → f t = f s)
    (hQ : ∀ s, schema.Sound s.rows s.drawn → P s → Q (f s) s) (hsteady : ∀ b, Steady (Q b))
    (hk : ∀ b, Confined d (Q b) (k b)) : Confined d P (Relational.read f k) := by
  rintro ι org i rfl
  exact Sat.read hf hQ (fun b => hsteady b ι org) fun b => hk b ι org i rfl

/-- A read that adds nothing to what is known. -/
theorem look {f : Db → β} {k : β → DbCall α} (hP : Steady P) (hf : ∀ s t, Alike schema AuditLog.orgId d s t → f t = f s)
    (hk : ∀ b, Confined d P (k b)) : Confined d P (Relational.read f k) :=
  read (fun s t _ _ _ _ => hf s t) (fun _ _ h => h) (fun _ => hP) hk

theorem commit {ws : List (Write Row Key)} {entry : Option AuditLog} {k : Option Nat → DbCall α}
    (hw : ∀ s, schema.Sound s.rows s.drawn → P s → schema.WithinAll d s.rows s.drawn ws)
    (hentry : ∀ e ∈ entry, e.orgId = d) (hk : ∀ n, Confined d (fun _ => True) (k n)) :
    Confined d P (schema.commit ws entry k) := by
  rintro ι org i rfl
  exact Sat.commit hw hentry fun n => hk n ι org i rfl

theorem audited {ε : Type} {w : Write Row Key} {entry : AuditLog} {done : Nat → Outcome ε α}
    (hw : ∀ s, schema.Sound s.rows s.drawn → P s → schema.Within d s.rows s.drawn w) (hentry : entry.orgId = d) :
    Confined d P (Tenancy.audited w entry done) :=
  commit (fun s hs hP => .single (hw s hs hP)) (fun _ he => Option.mem_some.mp he ▸ hentry) fun _ => ret _

theorem unaudited {ε : Type} {w : Write Row Key} {done : Nat → Outcome ε α}
    (hw : ∀ s, schema.Sound s.rows s.drawn → P s → schema.Within d s.rows s.drawn w) :
    Confined d P (Tenancy.unaudited w done) :=
  commit (fun s hs hP => .single (hw s hs hP)) (fun _ he => by cases he) fun _ => ret _

end Confined

/-! ## Reads and writes by organization -/

namespace Model

variable {τ : Type} (m : Model τ) {s t : Db}

theorem mem_all {x : τ} : x ∈ m.all s ↔ m.row x ∈ s.rows := by
  rw [all, List.mem_filterMap]
  constructor
  · rintro ⟨r, hr, hx⟩
    rwa [← m.read_iff.mp hx]
  · exact fun h => ⟨_, h, m.read_iff.mpr rfl⟩

theorem all_view (d : Nat) (rows : List Row) :
    (schema.view d rows).filterMap m.read = (rows.filterMap m.read).filter fun x => m.orgId x = d := by
  rw [Schema.view, List.filterMap_filter, List.filter_filterMap]
  refine List.filterMap_congr fun r _ => ?_
  cases hr : m.read r with
  | none => simp
  | some x =>
      obtain rfl := m.read_iff.mp hr
      simp [schema, m.orgId_row, Option.filter]

theorem findMany_alike {p : τ → Bool} (h : Alike schema AuditLog.orgId d s t) (hp : ∀ x, p x = true → m.orgId x = d) :
    m.findMany t p = m.findMany s p := by
  have hscope : ∀ l : List τ, l.filter p = (l.filter fun x => m.orgId x = d).filter p := by
    intro l
    rw [List.filter_filter]
    refine List.filter_congr fun x _ => ?_
    cases hx : p x with
    | false => simp
    | true => simp [hp x hx]
  rw [findMany, findMany, hscope, hscope (m.all s), all, all, ← m.all_view, ← m.all_view, h.rows]

theorem findFirst_eq_head? (s : Db) (p : τ → Bool) : m.findFirst s p = (m.findMany s p).head? := by
  rw [findFirst, findMany, List.head?_filter]

theorem findFirst_alike {p : τ → Bool} (h : Alike schema AuditLog.orgId d s t) (hp : ∀ x, p x = true → m.orgId x = d) :
    m.findFirst t p = m.findFirst s p := by
  rw [findFirst_eq_head?, findFirst_eq_head?, m.findMany_alike h hp]

theorem findFirst_eq_some {p : τ → Bool} {x : τ} (h : m.findFirst s p = some x) : m.row x ∈ s.rows ∧ p x = true :=
  ⟨m.mem_all.mp (List.mem_of_find?_eq_some h), List.find?_some h⟩

/-- What was found stays with the organization. -/
theorem known_of_find {p : τ → Bool} {x : τ} (hs : schema.Sound s.rows s.drawn) (h : m.findFirst s p = some x)
    (ho : m.orgId x = d) : Known schema d (m.kind, m.id x) s := by
  have hk := Known.of_mem hs (m.findFirst_eq_some h).1
  rwa [show schema.owner (m.row x) = d from (m.orgId_row x).trans ho, show schema.key (m.row x) = _ from m.key_row x] at hk

theorem knows_of_find {p : τ → Bool} {id : Nat} (hs : schema.Sound s.rows s.drawn)
    (hp : ∀ x, p x = true → m.id x = id ∧ m.orgId x = d) (h : (m.findFirst s p).isSome = true) :
      Knows d [(m.kind, id)] s := by
  obtain ⟨x, hx⟩ := Option.isSome_iff_exists.mp h
  obtain ⟨rfl, ho⟩ := hp x (m.findFirst_eq_some hx).2
  intro k hk
  rw [List.mem_singleton.mp hk]
  exact m.known_of_find hs hx ho

/-- A row that is found by its id alone, once the id is known to be of the organization. -/
theorem orgId_of_knows {x : τ} {id : Nat} (hs : Knows d [(m.kind, id)] s) (hx : m.row x ∈ s.rows) (hid : m.id x = id) :
    m.orgId x = d :=
  (m.orgId_row x).symm.trans ((hs _ List.mem_cons_self).2 _ hx ((m.key_row x).trans (by rw [hid])))

/-- One row an id. -/
theorem nodup_ids (h : (s.rows.map schema.key).Nodup) (p : τ → Bool) : ((m.findMany s p).map m.id).Nodup := by
  have hsub : (m.findMany s p).Sublist (m.all s) := List.filter_sublist
  refine List.Nodup.sublist (hsub.map _) ?_
  have hkeys : ((m.all s).map fun x => (m.row x).key).Sublist (s.rows.map schema.key) := by
    rw [all, List.map_filterMap]
    have hkey : ∀ r, ((m.read r).map fun x => (m.row x).key) = (m.read r).map fun _ => r.key := by
      intro r
      cases hr : m.read r with
      | none => rfl
      | some x => rw [m.read_iff.mp hr]; rfl
    induction s.rows with
    | nil => exact List.Sublist.slnil
    | cons r rows ih =>
        rw [List.map_cons, List.filterMap_cons, hkey]
        cases m.read r with
        | none => exact ih.cons _
        | some x => exact ih.cons_cons _
  have hnodup := hkeys.nodup h
  simp only [m.key_row] at hnodup
  exact List.Nodup.of_map (fun id => (m.kind, id)) (by rwa [List.map_map])

theorem within_create {x : τ} (ho : m.orgId x = d) (hrefs : Knows d (m.row x).refs s) (hnames : Knows d (m.row x).names s) :
    schema.Within d s.rows s.drawn (m.create x) :=
  ⟨(m.orgId_row x).trans ho, fun k hk => (hrefs k hk).2, hnames⟩

/-- An update of columns, some of which refer to rows that the call has seen. -/
theorem within_update {id : Nat} {p : τ → Bool} {f : τ → τ}
    (ho : ∀ x, m.row x ∈ s.rows → m.id x = id → p x = true → m.orgId x = d) (hid : ∀ x, m.id (f x) = m.id x)
    (ho' : ∀ x, m.orgId (f x) = m.orgId x)
    (hrefs : ∀ x, ∀ k ∈ (m.row (f x)).refs, k ∈ (m.row x).refs ∨ Known schema d k s)
    (hnames : ∀ x, ∀ k ∈ (m.row (f x)).names, k ∈ (m.row x).names ∨ Known schema d k s) :
    schema.Within d s.rows s.drawn (m.updateMany id p f) := by
  intro r hr hk hp
  obtain ⟨x, rfl⟩ := m.row_of_key (congrArg Prod.fst hk)
  have hx : m.read (m.row x) = some x := m.read_iff.mpr rfl
  have hxid : m.id x = id := congrArg Prod.snd ((m.key_row x).symm.trans hk)
  simp only [hx, Option.any_some, Option.map_some, Option.getD_some] at hp ⊢
  have hxo := ho x hr hxid hp
  exact ⟨(m.orgId_row x).trans hxo, (m.key_row _).trans (by rw [hid, hxid]), (m.orgId_row _).trans ((ho' x).trans hxo),
    fun k hk => (hrefs x k hk).imp (fun h => h) And.right, hnames x⟩

/-- An update by organization of columns that refer to nothing. -/
theorem within_edit {id : Nat} {p : τ → Bool} {f : τ → τ} {rows : List Row} {drawn : List Key}
    (hp : ∀ x, p x = true → m.orgId x = d) (hid : ∀ x, m.id (f x) = m.id x) (ho : ∀ x, m.orgId (f x) = m.orgId x)
    (hrefs : ∀ x, (m.row (f x)).refs = (m.row x).refs) (hnames : ∀ x, (m.row (f x)).names = (m.row x).names) :
    schema.Within d rows drawn (m.updateMany id p f) :=
  m.within_update (s := ⟨rows, drawn, []⟩) (fun x _ _ hpx => hp x hpx) hid ho (fun x _ hk => .inl (hrefs x ▸ hk))
    fun x _ hk => .inl (hnames x ▸ hk)

theorem within_delete {id : Nat} {p : τ → Bool} {rows : List Row} {drawn : List Key}
    (hp : ∀ x, p x = true → m.orgId x = d) : schema.Within d rows drawn (m.deleteMany id p) := by
  intro r _ hk hpr
  obtain ⟨x, rfl⟩ := m.row_of_key (congrArg Prod.fst hk)
  have hx : m.read (m.row x) = some x := m.read_iff.mpr rfl
  simp only [hx, Option.any_some] at hpr
  exact (m.orgId_row x).trans (hp x hpr)

/-! ### What the constraints tell -/

variable {id : Nat} {rows : List Row}

theorem isSome_findFirst {p : τ → Bool} (hp : ∀ x, m.id x = id → m.orgId x = d → p x = true)
    (hknown : Known schema d (m.kind, id) s) (hex : ∃ q ∈ s.rows, schema.key q = (m.kind, id)) :
    (m.findFirst s p).isSome = true := by
  obtain ⟨q, hq, hk⟩ := hex
  obtain ⟨x, rfl⟩ := m.row_of_key (congrArg Prod.fst hk)
  have hid : m.id x = id := congrArg Prod.snd ((m.key_row x).symm.trans hk)
  have horg : m.orgId x = d := (m.orgId_row x).symm.trans (hknown.2 _ hq hk)
  exact List.find?_isSome.mpr ⟨x, m.mem_all.mpr hq, hp x hid horg⟩

/-- What is looked for would clash with row `r`, and nothing does. -/
theorem findFirst_eq_none {p : τ → Bool} {r : Row} (hp : ∀ x, p x = true → Row.clash r (m.row x) = true)
    (hclash : ∀ q ∈ s.rows, Row.clash r q = false) : m.findFirst s p = none := by
  refine List.find?_eq_none.mpr fun x hx hpx => ?_
  have hapart : Row.clash r (m.row x) = false := hclash _ (m.mem_all.mp hx)
  rw [hp x hpx] at hapart
  cases hapart

theorem of_create {x : τ} (hs : schema.Sound s.rows s.drawn) (hfresh : schema.fresh [m.create x] s.drawn = true)
    (hp : schema.perform (m.create x) s.rows = some (rows, 1)) :
    (∀ k ∈ (m.row x).refs, ∃ q ∈ s.rows, schema.key q = k) ∧ ∀ q ∈ s.rows, Row.clash (m.row x) q = false := by
  simp only [Schema.perform, Model.create, Option.ite_none_right_eq_some] at hp
  obtain ⟨-, hrefs, hclash⟩ := Schema.fits_iff.mp hp.1
  obtain ⟨hnew, -⟩ := Schema.fresh_cons hfresh
  exact ⟨hrefs, fun q hq => hclash q hq fun hk => hnew _ rfl (hk ▸ hs.isDrawn q hq)⟩

theorem of_update {p : τ → Bool} {f : τ → τ} (hp : schema.perform (m.updateMany id p f) s.rows = some (rows, 1)) :
    ∃ x, m.row x ∈ s.rows ∧ m.id x = id ∧ p x = true ∧ schema.fits (m.row (f x)) s.rows = true := by
  simp only [Schema.perform, Model.updateMany] at hp
  split at hp
  · simp at hp
  · rename_i r hhit
    obtain ⟨hr, hk, hpr⟩ := Schema.hit_eq_some hhit
    obtain ⟨x, rfl⟩ := m.row_of_key (congrArg Prod.fst hk)
    have hread : m.read (m.row x) = some x := m.read_iff.mpr rfl
    simp only [Option.ite_none_right_eq_some, hread, Option.map_some, Option.getD_some] at hp
    simp only [hread, Option.any_some] at hpr
    exact ⟨x, hr, congrArg Prod.snd ((m.key_row x).symm.trans hk), hpr, hp.1⟩

/-- An update that the constraints forbid no more than another. -/
theorem perform_update {p : τ → Bool} {f g : τ → τ} (hp : schema.perform (m.updateMany id p f) s.rows = some (rows, 1))
    (hfits : ∀ x, schema.fits (m.row (g x)) s.rows = schema.fits (m.row (f x)) s.rows) :
    ∃ rows', schema.perform (m.updateMany id p g) s.rows = some (rows', 1) := by
  simp only [Schema.perform, Model.updateMany] at hp ⊢
  split at hp
  · simp at hp
  · rename_i r hhit
    obtain ⟨-, hk, -⟩ := Schema.hit_eq_some hhit
    obtain ⟨x, rfl⟩ := m.row_of_key (congrArg Prod.fst hk)
    have hread : m.read (m.row x) = some x := m.read_iff.mpr rfl
    simp only [Option.ite_none_right_eq_some, hread, Option.map_some, Option.getD_some] at hp ⊢
    exact ⟨_, by rw [hfits]; exact hp.1, rfl⟩

end Model

/-- A check by id and organization, and what it tells. -/
theorem Confined.exists {τ : Type} (m : Model τ) {p : τ → Bool} {id : Nat} {k : Bool → DbCall α} (hP : Steady P)
    (hp : ∀ x, p x = true → m.id x = id ∧ m.orgId x = d)
    (hk : ∀ b, Confined d (fun s => P s ∧ (b = true → Knows d [(m.kind, id)] s)) (k b)) :
    Confined d P (Relational.read (fun s => (m.findFirst s p).isSome) k) :=
  .read (fun s t _ _ _ _ halike => by rw [m.findFirst_alike halike fun x hx => (hp x hx).2])
    (fun s hs hPs => ⟨hPs, m.knows_of_find hs hp⟩) (fun _ => hP.and (Steady.knows d _).imp) hk

/-- The columns of a row that is found by id and organization. -/
theorem Confined.found {τ : Type} (m : Model τ) {p : τ → Bool} {g : τ → β} {id : Nat} {k : Option β → DbCall α}
    (hP : Steady P) (hp : ∀ x, p x = true → m.id x = id ∧ m.orgId x = d)
    (hk : ∀ b, Confined d (fun s => P s ∧ (b.isSome = true → Knows d [(m.kind, id)] s)) (k b)) :
    Confined d P (Relational.read (fun s => (m.findFirst s p).map g) k) :=
  .read (fun s t _ _ _ _ halike => by rw [m.findFirst_alike halike fun x hx => (hp x hx).2])
    (fun s hs hPs => ⟨hPs, fun h => m.knows_of_find hs hp (by rwa [Option.isSome_map] at h)⟩)
    (fun _ => hP.and (Steady.knows d _).imp) hk

theorem Confined.resolveHost {hostId : Option Nat} {k : Bool → DbCall α} (hP : Steady P)
    (hk : ∀ b, Confined d (fun s => P s ∧ (b = true → Knows d (refTo .host hostId) s)) (k b)) :
    Confined d P (Tenancy.resolveHost d hostId k) := by
  cases hostId with
  | none => exact (hk true).mono fun s hs => ⟨hs, fun _ id hid => by cases hid⟩
  | some id => exact .exists monitoredHost hP (fun x hx => by simpa [monitoredHost] using hx) hk

/-- A reference of a row of the organization leads to the same host whatever the others have. -/
theorem hostOf_alike {s t : Db} (hs : schema.Sound s.rows s.drawn) (ht : schema.Sound t.rows t.drawn)
    (halike : Alike schema AuditLog.orgId d s t) {hostId : Option Nat} {r : Row} (hr : r ∈ s.rows) (ho : r.orgId = d)
    (hrefs : r.refs = refTo .host hostId) : hostOf t hostId = hostOf s hostId := by
  cases hostId with
  | none => rfl
  | some id =>
      have hkey : (Kind.host, id) ∈ r.refs := by
        rw [hrefs]
        simp [refTo]
      obtain ⟨hrt, -⟩ := Schema.mem_view.mp (halike.rows ▸ Schema.mem_view.mpr ⟨hr, ho⟩ : r ∈ schema.view d t.rows)
      -- by id alone, or by id and organization: the same, since the reference stays within the organization
      have hscope : ∀ u : Db, schema.Sound u.rows u.drawn → r ∈ u.rows →
          (monitoredHost.findFirst u fun h => h.id == id) = monitoredHost.findFirst u fun h => h.id == id &&
            h.orgId == d := by
        intro u hu hru
        refine List.find?_congr fun h hh => ?_
        by_cases hid : h.id = id
        · have hmine := hu.mine_of_ref hru hkey (.host h) (monitoredHost.mem_all.mp hh) (by rw [← hid]; rfl)
          have horg : h.orgId = d := hmine.trans ho
          simp [hid, horg]
        · simp [hid]
      show monitoredHost.findFirst t _ = monitoredHost.findFirst s _
      rw [hscope t ht hrt, hscope s hs hr, monitoredHost.findFirst_alike halike fun x hx => by simp_all [monitoredHost]]

theorem perm_orderBy {τ : Type} (collate : String → String → Bool) (text : τ → String) (rows : List τ) :
    (orderBy collate text rows).Perm rows := List.perm_insertionSort _ _

theorem mem_orderBy {τ : Type} {collate : String → String → Bool} {text : τ → String} {rows : List τ} {x : τ} :
    x ∈ orderBy collate text rows ↔ x ∈ rows := List.mem_insertionSort _

end IkelyaneMonitor.Tenancy
