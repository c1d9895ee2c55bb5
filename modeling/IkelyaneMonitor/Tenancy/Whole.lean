import IkelyaneMonitor.Relational.Whole
import IkelyaneMonitor.Tenancy.Serial

/-!
# Requests run whole

* `Request.names`, `Request.gone` : the ids that a request names and no foreign key watches over; `AuditLog.Same` : entries
  that differ in their details only;
* `Checks orgId names i f p ks` : what is left of request `f` still makes its checks: wherever it commits, the whole of `f`
  would commit as well (`exec_resolveHost` and its likes: a check that the constraints make in its place);
* `requests_linearizable` : in any run, the requests that succeed might as well have run whole, one at a time in the order of
  the trail; but for a node or a rule whose entity was deleted between its check and its transaction.
-/

namespace IkelyaneMonitor.Tenancy
open Interleave Relational
open Auth (can)
open Servers (isHostname)
open Telemetry (MetricType)

def Request.names : Request → List Key
  | .createNode _ _ input =>
    if input.kind.isLogical then [] else input.kind.table.elim [] fun table => refTo table input.refId
  | .createAlertRule _ _ input | .updateAlertRule _ _ _ input => refTo (sourceTable input.sourceKind) input.sourceId
  | _ => []

/-- One of them is not in the database. -/
def Request.gone (request : Request) (s : Db) : Prop := ∃ k ∈ request.names, schema.rowAt k s.rows = none

def AuditLog.Same (e e' : AuditLog) : Prop := { e with metadata := none } = { e' with metadata := none }

/-! ## Checks that the constraints make -/

section Constraints
variable {τ α : Type} (m : Model τ) {s : Db} {d id : Nat} {i : Nat} {rows : List Row}

theorem exec_read {β : Type} (g : Db → β) (k : β → DbCall α) :
    (read g k).exec schema.sem i s = (k (g s)).exec schema.sem i s := rfl

/-- A check by id and organization. -/
theorem exec_exists {p : τ → Bool} {k : Bool → DbCall α} (hp : ∀ x, m.id x = id → m.orgId x = d → p x = true)
    (hknown : Known schema d (m.kind, id) s) (hex : ∃ q ∈ s.rows, schema.key q = (m.kind, id)) :
    (read (fun s => (m.findFirst s p).isSome) k).exec schema.sem i s = (k true).exec schema.sem i s := by
  rw [exec_read, m.isSome_findFirst hp hknown hex]

theorem exec_resolveHost {hostId : Option Nat} {k : Bool → DbCall α} (hks : Seen schema d (refTo .host hostId) s)
    (hex : ∀ k ∈ refTo .host hostId, ∃ q ∈ s.rows, schema.key q = k) :
    (resolveHost d hostId k).exec schema.sem i s = (k true).exec schema.sem i s := by
  cases hostId with
  | none => rfl
  | some id =>
      exact exec_exists monitoredHost (fun x hid horg => by simpa [monitoredHost] using ⟨hid, horg⟩)
        (hks _ List.mem_cons_self) (hex _ List.mem_cons_self)

theorem exec_remediationInOrg {actionId : Option Nat} {k : Bool → DbCall α} (hks : Seen schema d (refTo .action actionId) s)
    (hex : ∀ k ∈ refTo .action actionId, ∃ q ∈ s.rows, schema.key q = k) :
    (remediationInOrg d actionId k).exec schema.sem i s = (k true).exec schema.sem i s := by
  cases actionId with
  | none => rfl
  | some id =>
      exact exec_exists remediationAction (fun x hid horg => by simpa [remediationAction] using ⟨hid, horg⟩)
        (hks _ List.mem_cons_self) (hex _ List.mem_cons_self)

theorem exec_refExists {kind : TopologyNodeKind} {refId : Nat} {k : Bool → DbCall α} (hkind : kind.isLogical = false)
    (hks : Seen schema d (kind.table.elim [] fun table => [(table, refId)]) s)
    (hex : ∀ k ∈ kind.table.elim [] fun table => [(table, refId)], ∃ q ∈ s.rows, schema.key q = k) :
    (refExists d kind refId k).exec schema.sem i s = (k true).exec schema.sem i s := by
  cases kind with
  | host =>
      exact exec_exists monitoredHost (fun x hid horg => by simpa [monitoredHost] using ⟨hid, horg⟩)
        (hks _ List.mem_cons_self) (hex _ List.mem_cons_self)
  | networkDevice =>
      exact exec_exists networkDevice (fun x hid horg => by simpa [networkDevice] using ⟨hid, horg⟩)
        (hks _ List.mem_cons_self) (hex _ List.mem_cons_self)
  | database =>
      exact exec_exists databaseInstance (fun x hid horg => by simpa [databaseInstance] using ⟨hid, horg⟩)
        (hks _ List.mem_cons_self) (hex _ List.mem_cons_self)
  | endpoint =>
      exact exec_exists endpointCheck (fun x hid horg => by simpa [endpointCheck] using ⟨hid, horg⟩)
        (hks _ List.mem_cons_self) (hex _ List.mem_cons_self)
  | service => cases hkind
  | external => cases hkind

/-- A source that is in the database is among those that are listed. -/
theorem any_labels {p : τ → Bool} {label : τ → Nat × String} (hlabel : ∀ x, (label x).1 = m.id x)
    (hp : ∀ x, m.id x = id → m.orgId x = d → p x = true) (hknown : Known schema d (m.kind, id) s)
    (hex : ∃ q ∈ s.rows, schema.key q = (m.kind, id)) :
    (((m.findMany s p).map label).any fun l => l.1 == id) = true := by
  obtain ⟨q, hq, hk⟩ := hex
  obtain ⟨x, rfl⟩ := m.row_of_key (congrArg Prod.fst hk)
  have hid : m.id x = id := congrArg Prod.snd ((m.key_row x).symm.trans hk)
  have horg : m.orgId x = d := (m.orgId_row x).symm.trans (hknown.2 _ hq hk)
  simp only [List.any_map, List.any_eq_true, Function.comp, beq_iff_eq]
  exact ⟨x, List.mem_filter.mpr ⟨m.mem_all.mpr hq, hp x hid horg⟩, (hlabel x).trans hid⟩

theorem exec_sourceExists {kind : Telemetry.MetricSource} {sourceId : Nat} {k : Bool → DbCall α}
    (hks : Seen schema d [(sourceTable kind, sourceId)] s) (hex : ∃ q ∈ s.rows, schema.key q = (sourceTable kind, sourceId)) :
    (sourceExists d kind sourceId k).exec schema.sem i s = (k true).exec schema.sem i s := by
  have hwanted : [sourceId].eraseDups = [sourceId] := by simp [List.eraseDups_cons]
  unfold sourceExists resolveSourceLabels
  rw [hwanted, exec_read]
  have hknown := hks _ List.mem_cons_self
  congr 2
  cases kind with
  | host =>
      exact any_labels monitoredHost (fun _ => rfl) (fun x hid horg => by simp_all [monitoredHost]) hknown hex
  | networkDevice | networkInterface =>
      exact any_labels networkDevice (fun _ => rfl) (fun x hid horg => by simp_all [networkDevice]) hknown hex
  | database =>
      exact any_labels databaseInstance (fun _ => rfl) (fun x hid horg => by simp_all [databaseInstance]) hknown hex
  | endpoint =>
      exact any_labels endpointCheck (fun _ => rfl) (fun x hid horg => by simp_all [endpointCheck]) hknown hex

end Constraints

/-! ## Requests that make their checks -/

section Checks
variable {τ ε α : Type} {orgId i : Nat} {names : List Key} {f p : DbCall (Outcome ε α)} {ks : List Key}

abbrev Checks (orgId : Nat) (names : List Key) (i : Nat) (f p : DbCall (Outcome ε α)) (ks : List Key) : Prop :=
  Ends schema orgId (fun s w e => (∀ k ∈ names, ∃ q ∈ s.rows, schema.key q = k) →
    Whole schema Row.settings AuditLog.Same i (fun o : Outcome ε α => o.isOk = true) f s w e) p ks

namespace Checks

theorem ret {o : Outcome ε α} : Checks orgId names i f (.ret o) ks := trivial

theorem ite {b : Prop} [Decidable b] {p q : DbCall (Outcome ε α)} (hp : b → Checks orgId names i f p ks)
    (hq : ¬ b → Checks orgId names i f q ks) : Checks orgId names i f (if b then p else q) ks := by
  split
  · exact hp ‹_›
  · exact hq ‹_›

/-- A read that tells nothing that lasts. -/
theorem read {β : Type} {g : Db → β} {k : β → DbCall (Outcome ε α)} (hk : ∀ b, Checks orgId names i f (k b) ks) :
    Checks orgId names i f (Relational.read g k) ks := Ends.read hk

/-- A check by id and organization. -/
theorem checked (m : Model τ) {p : τ → Bool} {id : Nat} {k : Bool → DbCall (Outcome ε α)}
    (hp : ∀ x, p x = true → m.id x = id ∧ m.orgId x = orgId)
    (hk : ∀ b, Checks orgId names i f (k b) (ks ++ if b = true then [(m.kind, id)] else [])) :
    Checks orgId names i f (Relational.read (fun s => (m.findFirst s p).isSome) k) ks := by
  refine Ends.see (fun s hs => ?_) hk
  split
  · exact m.knows_of_find hs hp ‹_›
  · exact Seen.nil

theorem found {β : Type} (m : Model τ) {p : τ → Bool} {g : τ → β} {id : Nat} {k : Option β → DbCall (Outcome ε α)}
    (hp : ∀ x, p x = true → m.id x = id ∧ m.orgId x = orgId)
    (hk : ∀ b, Checks orgId names i f (k b) (ks ++ if b.isSome = true then [(m.kind, id)] else [])) :
    Checks orgId names i f (Relational.read (fun s => (m.findFirst s p).map g) k) ks := by
  refine Ends.see (fun s hs => ?_) hk
  split
  · rename_i h
    rw [Option.isSome_map] at h
    exact m.knows_of_find hs hp h
  · exact Seen.nil

theorem resolveHost {hostId : Option Nat} {k : Bool → DbCall (Outcome ε α)}
    (hk : ∀ b, Checks orgId names i f (k b) (ks ++ if b = true then refTo .host hostId else [])) :
    Checks orgId names i f (Tenancy.resolveHost orgId hostId k) ks := by
  cases hostId with
  | none =>
      show Checks orgId names i f (k true) ks
      simpa [refTo] using hk true
  | some id => exact .checked monitoredHost (fun x hx => by simpa [monitoredHost] using hx) hk

theorem remediationInOrg {actionId : Option Nat} {k : Bool → DbCall (Outcome ε α)}
    (hk : ∀ b, Checks orgId names i f (k b) (ks ++ if b = true then refTo .action actionId else [])) :
    Checks orgId names i f (Tenancy.remediationInOrg orgId actionId k) ks := by
  cases actionId with
  | none =>
      show Checks orgId names i f (k true) ks
      simpa [refTo] using hk true
  | some id => exact .checked remediationAction (fun x hx => by simpa [remediationAction] using hx) hk

theorem refExists {kind : TopologyNodeKind} {refId : Nat} {k : Bool → DbCall (Outcome ε α)}
    (hk : ∀ b, Checks orgId names i f (k b)
      (ks ++ if b = true then kind.table.elim [] fun table => [(table, refId)] else [])) :
    Checks orgId names i f (Tenancy.refExists orgId kind refId k) ks := by
  cases kind with
  | host => exact .checked monitoredHost (fun x hx => by simpa [monitoredHost] using hx) hk
  | networkDevice => exact .checked networkDevice (fun x hx => by simpa [networkDevice] using hx) hk
  | database => exact .checked databaseInstance (fun x hx => by simpa [databaseInstance] using hx) hk
  | endpoint => exact .checked endpointCheck (fun x hx => by simpa [endpointCheck] using hx) hk
  | service | external =>
      show Checks orgId names i f (k false) ks
      simpa using hk false

theorem sourceExists {kind : Telemetry.MetricSource} {sourceId : Nat} {k : Bool → DbCall (Outcome ε α)}
    (hk : ∀ b, Checks orgId names i f (k b) (ks ++ if b = true then [(sourceTable kind, sourceId)] else [])) :
    Checks orgId names i f (Tenancy.sourceExists orgId kind sourceId k) ks := by
  have hwanted : [sourceId].eraseDups = [sourceId] := by simp [List.eraseDups_cons]
  unfold Tenancy.sourceExists resolveSourceLabels
  rw [hwanted]
  let more (labels : List (Nat × String)) : List Key :=
    if (labels.any fun label => label.1 == sourceId) = true then [(sourceTable kind, sourceId)] else []
  have hseen : ∀ s : Db, schema.Sound s.rows s.drawn → Seen schema orgId (more (sourceLabels s orgId kind [sourceId])) s := by
    intro s hs
    unfold more
    split
    · rename_i h
      cases kind with
      | host => exact labels_knows monitoredHost hs (fun x hx => by simp_all [monitoredHost]) (fun _ => rfl) h
      | networkDevice | networkInterface =>
          exact labels_knows networkDevice hs (fun x hx => by simp_all [networkDevice]) (fun _ => rfl) h
      | database => exact labels_knows databaseInstance hs (fun x hx => by simp_all [databaseInstance]) (fun _ => rfl) h
      | endpoint => exact labels_knows endpointCheck hs (fun x hx => by simp_all [endpointCheck]) (fun _ => rfl) h
    · exact Seen.nil
  exact Ends.see hseen fun labels => hk _

variable {w : Write Row Key} {entry : AuditLog} {done : Nat → Outcome ε α}

/-- The commit, from a state in which the whole request comes to such a commit too. -/
theorem audited
    (h : ∀ s rows, schema.Sound s.rows s.drawn → Seen schema orgId ks s →
      (∀ k ∈ names, ∃ q ∈ s.rows, schema.key q = k) → schema.fresh [w] s.drawn = true →
      schema.perform w s.rows = some (rows, 1) → ∃ w' entry' done' rows',
        f.exec schema.sem i s = (Tenancy.audited w' entry' done').exec schema.sem i s ∧ (done' 1).isOk = true ∧
        AuditLog.Same entry' entry ∧ schema.fresh [w'] s.drawn = true ∧ schema.perform w' s.rows = some (rows', 1) ∧
        schema.settings Row.settings rows' = schema.settings Row.settings rows) :
    Checks orgId names i f (Tenancy.audited w entry done) ks := by
  refine ⟨fun s v hs hks hv hnames rows hfresh hp => ?_, fun _ => trivial⟩
  obtain rfl := List.singleton_inj.mp hv
  obtain ⟨w', entry', done', rows', hexec, hdone, hsame, hfresh', hp', hset⟩ := h s rows hs hks hnames hfresh hp
  have hall : schema.performAll [w'] s.rows = some (rows', 1) := by simp [Schema.performAll, hp']
  refine ⟨⟨rows', schema.drawAll [w'] s.drawn, s.log ++ [entry']⟩, done' 1, entry', hexec.trans ?_, hdone, rfl, hsame, hset⟩
  simp [Tenancy.audited, Schema.commit, Prog.exec, Schema.sem, hfresh', hall]

/-- The whole request comes to this write, too. -/
theorem audited_same (hdone : (done 1).isOk = true)
    (h : ∀ s rows, schema.Sound s.rows s.drawn → Seen schema orgId ks s →
      (∀ k ∈ names, ∃ q ∈ s.rows, schema.key q = k) → schema.fresh [w] s.drawn = true →
      schema.perform w s.rows = some (rows, 1) → ∃ entry', AuditLog.Same entry' entry ∧
        f.exec schema.sem i s = (Tenancy.audited w entry' done).exec schema.sem i s) :
    Checks orgId names i f (Tenancy.audited w entry done) ks := by
  refine .audited fun s rows hs hks hnames hfresh hp => ?_
  obtain ⟨entry', hsame, hexec⟩ := h s rows hs hks hnames hfresh hp
  exact ⟨w, entry', done, rows, hexec, hdone, hsame, hfresh, hp, rfl⟩

/-- A request of one statement, once its role allows it. -/
theorem only {b : Prop} [Decidable b] {refused : Outcome ε α} (hdone : (done 1).isOk = true) :
    Checks orgId names i (if b then .ret refused else Tenancy.audited w entry done)
      (if b then .ret refused else Tenancy.audited w entry done) ks := by
  refine .ite (fun _ => .ret) fun hb => .audited_same hdone fun s rows _ _ _ _ _ => ⟨entry, rfl, ?_⟩
  rw [if_neg hb]

end Checks

end Checks

/-! ## Each request -/

section Functions
variable {URL : Type} (platform : Platform URL) (allowPrivateTargets : Bool) (metricText : MetricType → String)
  (actor : Requester) (draws : Draws) (i : Nat)

theorem registerHost_checks (hostname : String) (displayName : Option String) (key secret : String) (iv : Crypto.Token) :
    Checks actor.orgId [] i (registerHost platform actor draws hostname displayName key secret iv)
      (registerHost platform actor draws hostname displayName key secret iv) [] := by
  refine .ite (fun _ => .ret) fun hcan => .ite (fun _ => .ret) fun hname => .read fun taken => .ite (fun _ => .ret) fun _ =>
    .audited_same rfl fun s rows hs _ _ hfresh hp => ⟨_, rfl, ?_⟩
  obtain ⟨-, hclash⟩ := monitoredHost.of_create hs hfresh hp
  have htaken : (monitoredHost.findFirst s fun h => h.orgId == actor.orgId && h.hostname == Text.trim hostname) = none := by
    refine monitoredHost.findFirst_eq_none (fun h hsame => ?_) hclash
    simp only [Bool.and_eq_true, beq_iff_eq] at hsame
    simp [Row.clash, monitoredHost, registered, Servers.newHost, hsame]
  rw [registerHost, if_neg hcan, if_neg hname]
  dsimp only
  rw [exec_read, htaken]
  rfl

theorem fits_host {a b : MonitoredHost} (hid : a.id = b.id) (horg : a.orgId = b.orgId) (hname : a.hostname = b.hostname)
    (rows : List Row) : schema.fits (.host a) rows = schema.fits (.host b) rows := by
  have hclash : ∀ q, Row.clash (.host a) q = Row.clash (.host b) q := by
    intro q
    cases q <;> simp [Row.clash, horg, hname]
  simp only [Schema.fits, schema, Row.check, Row.refs, Row.key, hid, hclash]

theorem rotateHostSecret_checks (hostId : Nat) (secret : String) (iv : Crypto.Token) (now : Int) :
    Checks actor.orgId [] i (rotateHostSecret platform actor draws hostId secret iv now)
      (rotateHostSecret platform actor draws hostId secret iv now) [] := by
  refine .ite (fun _ => .ret) fun hcan => .found monitoredHost (fun x hx => by simpa [monitoredHost] using hx) fun host => ?_
  cases host with
  | none => exact .ret
  | some host =>
      refine .audited fun s rows hs hks _ hfresh hp => ?_
      obtain ⟨x, hx, hid, -, -⟩ := monitoredHost.of_update hp
      have hfound : (monitoredHost.findFirst s fun h => h.id == hostId && h.orgId == actor.orgId).isSome = true :=
        monitoredHost.isSome_findFirst (fun x hid horg => by simpa [monitoredHost] using ⟨hid, horg⟩)
          (hks _ List.mem_cons_self) ⟨_, hx, (monitoredHost.key_row x).trans (by rw [hid])⟩
      obtain ⟨h, hh⟩ := Option.isSome_iff_exists.mp hfound
      let rotated (host : MonitoredHost) : MonitoredHost :=
        { host with
          previousHmacSecretEnc := some h.hmacSecretEnc
          previousSecretExpiresAt := some (now + Servers.graceMs)
          hmacSecretEnc := Crypto.encryptSecret platform.gcm iv secret (Telemetry.hostSecretAad h.keyId)
          secretRotatedAt := now }
      obtain ⟨rows', hp'⟩ := monitoredHost.perform_update (g := rotated) hp fun x => by apply fits_host <;> rfl
      have hkeyed : schema.Keyed s.rows s.drawn := ⟨hs.nodup, hs.isDrawn⟩
      have hset : ∀ {f : MonitoredHost → MonitoredHost} {rows},
          schema.perform (monitoredHost.updateMany hostId (fun _ => true) f) s.rows = some (rows, 1) →
          (∀ x, (f x).id = x.id) → (∀ x, Row.settings (.host (f x)) = Row.settings (.host x)) →
          schema.settings Row.settings rows = schema.settings Row.settings s.rows := fun hp hid hf =>
        Schema.settings_unrecorded hp (monitoredHost.unrecorded_update hid hf)
      refine ⟨monitoredHost.updateMany hostId (fun _ => true) rotated, recordAudit actor draws ⟨.host, .rotated⟩ hostId
        (some (.obj [("hostname", .str h.hostname), ("graceHours", .num "24")])), fun n =>
          if n = 1 then .ok ⟨hostId, h.keyId, secret⟩ else .thrown, rows', ?_, rfl, rfl, hfresh, hp', ?_⟩
      · rw [rotateHostSecret, if_neg hcan, exec_read, hh]
        rfl
      · exact (hset hp' (fun _ => rfl) fun _ => rfl).trans (hset hp (fun _ => rfl) fun _ => rfl).symm

theorem setHostEnabled_checks (hostId : Nat) (enabled : Bool) :
    Checks actor.orgId [] i (setHostEnabled actor draws hostId enabled) (setHostEnabled actor draws hostId enabled) [] :=
  .only rfl

theorem registerDevice_checks (ivs : DeviceIvs) (input : DeviceInput) :
    Checks actor.orgId [] i (registerDevice platform actor draws ivs input) (registerDevice platform actor draws ivs input)
      [] := by
  refine .ite (fun _ => .ret) fun hcan => .ite (fun _ => .ret) fun hip => .resolveHost fun found => .ite (fun _ => .ret)
    fun hfound => ?_
  split
  · exact .ret
  rename_i ip hinet
  refine .read fun taken => .ite (fun _ => .ret) fun _ => .audited_same rfl fun s rows hs hks _ hfresh hp => ⟨_, rfl, ?_⟩
  obtain ⟨hrefs, hclash⟩ := networkDevice.of_create hs hfresh hp
  have htaken : (networkDevice.findFirst s fun d => d.orgId == actor.orgId && d.ipAddress == ip) = none := by
    refine networkDevice.findFirst_eq_none (fun d hsame => ?_) hclash
    simp only [Bool.and_eq_true, beq_iff_eq] at hsame
    simp [Row.clash, networkDevice, DeviceInput.row, hsame]
  have hseen : Seen schema actor.orgId (refTo .host input.pollerHostId) s := by
    simpa [show found = true by simpa using hfound] using hks
  rw [registerDevice, if_neg hcan, if_neg hip, exec_resolveHost hseen hrefs, hinet]
  dsimp only
  rw [if_neg (by simp), exec_read, htaken]
  rfl

theorem updateDevice_checks (ivs : DeviceIvs) (id : Nat) (input : DeviceInput) :
    Checks actor.orgId [] i (updateDevice platform actor draws ivs id input) (updateDevice platform actor draws ivs id input)
      [] := by
  refine .ite (fun _ => .ret) fun hcan => .ite (fun _ => .ret) fun hip =>
    .checked networkDevice (fun x hx => by simpa [networkDevice] using hx) fun existing => .ite (fun _ => .ret)
      fun hexisting => .resolveHost fun found => .ite (fun _ => .ret) fun hfound => ?_
  split
  · exact .ret
  rename_i ip hinet
  refine .read fun conflict => .ite (fun _ => .ret) fun _ => .audited_same rfl fun s rows hs hks _ hfresh hp => ⟨_, rfl, ?_⟩
  obtain ⟨x, hx, hid, -, hfits⟩ := networkDevice.of_update hp
  obtain ⟨-, hrefs, hclash⟩ := Schema.fits_iff.mp hfits
  have hseen : Known schema actor.orgId (.device, id) s ∧ Seen schema actor.orgId (refTo .host input.pollerHostId) s := by
    simpa [show existing = true by simpa using hexisting, show found = true by simpa using hfound, Seen, networkDevice]
      using hks
  have hkey : schema.key (.device x) = (.device, id) := (networkDevice.key_row x).trans (by rw [hid]; rfl)
  have hconflict : ((networkDevice.findFirst s fun d => d.orgId == actor.orgId && d.ipAddress == ip).map (·.id)).any
      (· != id) = false := by
    cases hy : networkDevice.findFirst s fun d => d.orgId == actor.orgId && d.ipAddress == ip with
    | none => rfl
    | some y =>
        obtain ⟨hmem, hsame⟩ := networkDevice.findFirst_eq_some hy
        simp only [Bool.and_eq_true, beq_iff_eq] at hsame
        by_contra hne
        -- another device at the address would forbid the update
        have hother : schema.key (.device y) ≠ schema.key (.device (input.edit platform ivs ip x)) := by
          rw [show schema.key (.device (input.edit platform ivs ip x)) = (.device, id) from hkey]
          intro hk
          have hy : y.id = id := congrArg Prod.snd hk
          simp [hy] at hne
        have hapart : Row.clash (.device (input.edit platform ivs ip x)) (.device y) = false := hclash _ hmem hother
        have horg : x.orgId = actor.orgId := hseen.1.2 _ hx hkey
        simp [Row.clash, DeviceInput.edit, horg, hsame] at hapart
  rw [updateDevice, if_neg hcan, if_neg hip,
    exec_exists networkDevice (fun x hid horg => by simpa [networkDevice] using ⟨hid, horg⟩) hseen.1 ⟨_, hx, hkey⟩,
    if_neg (by simp), exec_resolveHost hseen.2 hrefs, if_neg (by simp), hinet]
  dsimp only
  rw [exec_read, hconflict, if_neg Bool.false_ne_true]

theorem setDeviceEnabled_checks (id : Nat) (enabled : Bool) :
    Checks actor.orgId [] i (setDeviceEnabled actor draws id enabled) (setDeviceEnabled actor draws id enabled) [] :=
      .only rfl

theorem deleteDevice_checks (id : Nat) :
    Checks actor.orgId [] i (deleteDevice actor draws id) (deleteDevice actor draws id) [] := .only rfl

theorem updateDatabaseSettings_checks (id : Nat) (input : DatabaseSettingsInput) :
    Checks actor.orgId [] i (updateDatabaseSettings actor draws id input) (updateDatabaseSettings actor draws id input) [] :=
  .only rfl

theorem setDatabaseEnabled_checks (id : Nat) (enabled : Bool) :
    Checks actor.orgId [] i (setDatabaseEnabled actor draws id enabled) (setDatabaseEnabled actor draws id enabled) [] :=
  .only rfl

theorem createEndpoint_checks (input : EndpointInput) :
    Checks actor.orgId [] i (createEndpoint platform actor draws input) (createEndpoint platform actor draws input) [] := by
  refine .ite (fun _ => .ret) fun hcan => ?_
  split
  · exact .ret
  · rename_i url hurl
    refine .audited_same rfl fun s rows _ _ _ _ _ => ⟨_, rfl, ?_⟩
    rw [createEndpoint, if_neg hcan, hurl]

theorem updateEndpoint_checks (id : Nat) (input : EndpointInput) :
    Checks actor.orgId [] i (updateEndpoint platform actor draws id input) (updateEndpoint platform actor draws id input)
      [] := by
  refine .ite (fun _ => .ret) fun hcan => ?_
  split
  · exact .ret
  · rename_i url hurl
    refine .audited_same rfl fun s rows _ _ _ _ _ => ⟨_, rfl, ?_⟩
    rw [updateEndpoint, if_neg hcan, hurl]

theorem setEndpointEnabled_checks (id : Nat) (enabled : Bool) :
    Checks actor.orgId [] i (setEndpointEnabled actor draws id enabled) (setEndpointEnabled actor draws id enabled) [] :=
  .only rfl

theorem deleteEndpoint_checks (id : Nat) :
    Checks actor.orgId [] i (deleteEndpoint actor draws id) (deleteEndpoint actor draws id) [] := .only rfl

theorem createNode_checks (input : CreateNodeInput) :
    Checks actor.orgId (Request.names (.createNode actor draws input)) i (createNode actor draws input)
      (createNode actor draws input) [] := by
  refine .ite (fun _ => .ret) fun hcan => .ite (fun hlogical => ?_) fun hlogical => ?_
  · refine .audited_same rfl fun s rows _ _ _ _ _ => ⟨_, rfl, ?_⟩
    rw [createNode, if_neg hcan, if_pos hlogical]
    rfl
  split
  · exact .ret
  rename_i refId href
  refine .refExists fun found => .ite (fun _ => .ret) fun hfound => .read fun existing => .ite (fun _ => .ret) fun _ =>
    .audited_same rfl fun s rows hs hks hnames hfresh hp => ⟨_, rfl, ?_⟩
  obtain ⟨-, hclash⟩ := topologyNode.of_create hs hfresh hp
  have hnew : (topologyNode.findFirst s fun n =>
      n.orgId == actor.orgId && n.kind == input.kind && n.refId == some refId) = none := by
    refine topologyNode.findFirst_eq_none (fun n hsame => ?_) hclash
    simp only [Bool.and_eq_true, beq_iff_eq] at hsame
    simp [Row.clash, topologyNode, CreateNodeInput.row, hsame]
  simp only [Request.names, hlogical, href] at hnames
  have hseen : Seen schema actor.orgId (input.kind.table.elim [] fun table => [(table, refId)]) s := by
    simpa [show found = true by simpa using hfound] using hks
  rw [createNode, if_neg hcan, if_neg hlogical, href]
  dsimp only
  rw [exec_refExists (by simpa using hlogical) hseen hnames, if_neg (by simp), exec_read, hnew]
  rfl

theorem deleteNode_checks (id : Nat) :
    Checks actor.orgId [] i (deleteNode actor draws id) (deleteNode actor draws id) [] := .only rfl

theorem createDependency_checks (input : CreateDependencyInput) :
    Checks actor.orgId [] i (createDependency actor draws input) (createDependency actor draws input) [] := by
  refine .ite (fun _ => .ret) fun hcan => .ite (fun _ => .ret) fun hends =>
    .checked topologyNode (fun x hx => by simpa [topologyNode] using hx) fun parent =>
    .checked topologyNode (fun x hx => by simpa [topologyNode] using hx) fun child =>
    .ite (fun _ => .ret) fun hboth => .read fun existing => .ite (fun _ => .ret) fun _ =>
    .audited_same rfl fun s rows hs hks _ hfresh hp => ⟨_, rfl, ?_⟩
  obtain ⟨hrefs, hclash⟩ := serviceDependency.of_create hs hfresh hp
  have hnew : (serviceDependency.findFirst s fun e => e.parentNodeId == input.parentNodeId &&
      e.childNodeId == input.childNodeId && e.kind == input.kind) = none := by
    refine serviceDependency.findFirst_eq_none (fun e hsame => ?_) hclash
    simp only [Bool.and_eq_true, beq_iff_eq] at hsame
    simp [Row.clash, serviceDependency, CreateDependencyInput.row, hsame]
  simp only [Bool.or_eq_true, Bool.not_eq_true', not_or, Bool.not_eq_false] at hboth
  obtain ⟨rfl, rfl⟩ := hboth
  have hparent : Known schema actor.orgId (.node, input.parentNodeId) s := hks _ (by simp [topologyNode])
  have hchild : Known schema actor.orgId (.node, input.childNodeId) s := hks _ (by simp [topologyNode])
  rw [createDependency, if_neg hcan, if_neg hends,
    exec_exists topologyNode (fun x hid horg => by simpa [topologyNode] using ⟨hid, horg⟩) hparent
      (hrefs _ List.mem_cons_self),
    exec_exists topologyNode (fun x hid horg => by simpa [topologyNode] using ⟨hid, horg⟩) hchild
      (hrefs _ (List.mem_cons_of_mem _ List.mem_cons_self)),
    if_neg (by simp), exec_read, hnew]
  rfl

theorem deleteDependency_checks (id : Nat) :
    Checks actor.orgId [] i (deleteDependency actor draws id) (deleteDependency actor draws id) [] := .only rfl

theorem saveRule_checks {α : Type} {input : AlertRuleInput} {w : Write Row Key} {entry : AuditLog}
    {done : Nat → Outcome AlertRuleWriteError α} (hdone : (done 1).isOk = true)
    (hrefs : ∀ (s : Db) rows, schema.Sound s.rows s.drawn → schema.fresh [w] s.drawn = true →
      schema.perform w s.rows = some (rows, 1) →
      ∀ k ∈ refTo .action input.remediationActionId, ∃ q ∈ s.rows, schema.key q = k) :
    Checks actor.orgId (refTo (sourceTable input.sourceKind) input.sourceId) i
      (saveRule platform actor input allowPrivateTargets (audited w entry done))
      (saveRule platform actor input allowPrivateTargets (audited w entry done)) [] := by
  refine .ite (fun _ => .ret) fun hcan => ?_
  split
  · exact .ret
  rename_i hpassed
  cases hsource : input.sourceId with
  | none =>
      refine .remediationInOrg fun found => .ite (fun _ => .ret) fun hfound =>
        .audited_same hdone fun s rows hs hks _ hfresh hp => ⟨_, rfl, ?_⟩
      have hseen : Seen schema actor.orgId (refTo .action input.remediationActionId) s := by
        simpa [show found = true by simpa using hfound] using hks
      rw [saveRule, if_neg hcan, hpassed, hsource]
      dsimp only
      rw [exec_remediationInOrg hseen (hrefs s rows hs hfresh hp), if_neg (by simp)]
  | some sourceId =>
      refine .sourceExists fun source => .ite (fun _ => .ret) fun hexists =>
        .remediationInOrg fun found => .ite (fun _ => .ret) fun hfound =>
          .audited_same hdone fun s rows hs hks hnames hfresh hp => ⟨_, rfl, ?_⟩
      have hseen : Known schema actor.orgId (sourceTable input.sourceKind, sourceId) s ∧
          Seen schema actor.orgId (refTo .action input.remediationActionId) s := by
        simpa [show source = true by simpa using hexists, show found = true by simpa using hfound, Seen] using hks
      have hnamed : Seen schema actor.orgId [(sourceTable input.sourceKind, sourceId)] s := by
        simpa [Seen] using hseen.1
      rw [saveRule, if_neg hcan, hpassed, hsource]
      dsimp only
      rw [exec_sourceExists hnamed (hnames _ List.mem_cons_self), if_neg (by simp),
        exec_remediationInOrg hseen.2 (hrefs s rows hs hfresh hp), if_neg (by simp)]

theorem createAlertRule_checks (input : AlertRuleInput) :
    Checks actor.orgId (refTo (sourceTable input.sourceKind) input.sourceId) i
      (createAlertRule platform metricText actor draws input allowPrivateTargets)
      (createAlertRule platform metricText actor draws input allowPrivateTargets) [] :=
  saveRule_checks platform allowPrivateTargets actor i rfl fun _ _ hs hfresh hp => (alertRule.of_create hs hfresh hp).1

theorem updateAlertRule_checks (id : Nat) (input : AlertRuleInput) :
    Checks actor.orgId (refTo (sourceTable input.sourceKind) input.sourceId) i
      (updateAlertRule platform metricText actor draws id input allowPrivateTargets)
      (updateAlertRule platform metricText actor draws id input allowPrivateTargets) [] :=
  saveRule_checks platform allowPrivateTargets actor i rfl fun _ _ _ _ hp => by
    obtain ⟨x, -, -, -, hfits⟩ := alertRule.of_update hp
    exact (Schema.fits_iff.mp hfits).2.1

theorem setAlertRuleEnabled_checks (id : Nat) (enabled : Bool) :
    Checks actor.orgId [] i (setAlertRuleEnabled actor draws id enabled) (setAlertRuleEnabled actor draws id enabled) [] :=
  .only rfl

theorem deleteAlertRule_checks (id : Nat) :
    Checks actor.orgId [] i (deleteAlertRule actor draws id) (deleteAlertRule actor draws id) [] := .only rfl

theorem createRemediationAction_checks (input : RemediationActionInput) :
    Checks actor.orgId [] i (createRemediationAction platform actor draws input)
      (createRemediationAction platform actor draws input) [] := by
  refine .ite (fun _ => .ret) fun hcan => ?_
  split
  · exact .ret
  rename_i hpassed
  refine .resolveHost fun found => .ite (fun _ => .ret) fun hfound => .audited_same rfl fun s rows hs hks _ hfresh hp =>
    ⟨_, rfl, ?_⟩
  have hseen : Seen schema actor.orgId (refTo .host input.targetHostId) s := by
    simpa [show found = true by simpa using hfound] using hks
  rw [createRemediationAction, if_neg hcan, hpassed]
  dsimp only
  rw [exec_resolveHost hseen (remediationAction.of_create hs hfresh hp).1, if_neg (by simp)]

theorem updateRemediationAction_checks (id : Nat) (input : RemediationActionInput) :
    Checks actor.orgId [] i (updateRemediationAction platform actor draws id input)
      (updateRemediationAction platform actor draws id input) [] := by
  refine .ite (fun _ => .ret) fun hcan => ?_
  split
  · exact .ret
  rename_i hpassed
  refine .resolveHost fun found => .ite (fun _ => .ret) fun hfound =>
    .found remediationAction (fun x hx => by simpa [remediationAction] using hx) fun previous => ?_
  cases previous with
  | none => exact .ret
  | some scriptBody =>
      refine .audited_same rfl fun s rows hs hks _ hfresh hp => ?_
      obtain ⟨x, hx, hid, -, hfits⟩ := remediationAction.of_update hp
      have hseen : Seen schema actor.orgId (refTo .host input.targetHostId) s ∧ Known schema actor.orgId (.action, id) s := by
        refine ⟨fun k hk => hks k ?_, hks _ ?_⟩ <;> simp [show found = true by simpa using hfound, remediationAction, *]
      have hkey : schema.key (.action x) = (.action, id) := (remediationAction.key_row x).trans (by rw [hid]; rfl)
      have hfind : (remediationAction.findFirst s fun r => r.id == id && r.orgId == actor.orgId).isSome = true :=
        remediationAction.isSome_findFirst (fun x hid horg => by simpa [remediationAction] using ⟨hid, horg⟩) hseen.2
          ⟨_, hx, hkey⟩
      obtain ⟨r, hr⟩ := Option.isSome_iff_exists.mp hfind
      refine ⟨recordAudit actor draws ⟨.action, .updated⟩ id (some (.obj (actionMetadata platform input ++
        [("previousScriptSha256", .str (platform.sha256 r.scriptBody))]))), rfl, ?_⟩
      rw [updateRemediationAction, if_neg hcan, hpassed]
      dsimp only
      rw [exec_resolveHost hseen.1 (Schema.fits_iff.mp hfits).2.1, if_neg (by simp), exec_read, hr]
      rfl

theorem setRemediationActionEnabled_checks (id : Nat) (enabled : Bool) :
    Checks actor.orgId [] i (setRemediationActionEnabled actor draws id enabled)
      (setRemediationActionEnabled actor draws id enabled) [] := .only rfl

theorem deleteRemediationAction_checks (id : Nat) :
    Checks actor.orgId [] i (deleteRemediationAction actor draws id) (deleteRemediationAction actor draws id) [] := .only rfl

/-! ### All of them -/

abbrev Attends (request : Request) (p : DbCall Response) : Prop :=
  Ends schema request.orgId (fun s w e => ¬ request.gone s → Whole schema Row.settings AuditLog.Same i
    (request.effect platform allowPrivateTargets).done (request.call platform metricText allowPrivateTargets) s w e) p []

variable {allowPrivateTargets metricText}

theorem attends_silent (request : Request) (hasks : request.asks platform allowPrivateTargets = none) :
    Attends platform allowPrivateTargets metricText i request (request.call platform metricText allowPrivateTargets) := by
  refine Ends.of_settles (settles platform allowPrivateTargets metricText request) fun e he => ?_
  obtain ⟨a, ha, -⟩ := he
  rw [hasks] at ha
  cases ha

theorem attends_audited {ε α : Type} {p : DbCall (Outcome ε α)} {f : Outcome ε α → Response} (request : Request)
    (haudits : request.audits = true) (hf : ∀ o, (f o).succeeded = o.isOk)
    (hcall : request.call platform metricText allowPrivateTargets = p.map f)
    (hp : Checks request.orgId request.names i p p []) :
    Attends platform allowPrivateTargets metricText i request (request.call platform metricText allowPrivateTargets) := by
  rw [Attends, hcall]
  refine Ends.map (hp.mono fun s w e h hgone => Whole.map (fun o ho => ⟨haudits, (hf o).trans ho⟩) (h fun k hk => ?_))
  by_contra hnone
  exact hgone ⟨k, hk, List.find?_eq_none.mpr fun q hq => by simpa using fun hkey => hnone ⟨q, hq, hkey⟩⟩

variable (allowPrivateTargets metricText)

theorem attends (request : Request) :
    Attends platform allowPrivateTargets metricText i request (request.call platform metricText allowPrivateTargets) := by
  cases request with
  | registerHost actor draws hostname displayName key secret iv =>
      exact attends_audited platform i _ rfl (fun _ => rfl) rfl
        (registerHost_checks platform actor draws i hostname displayName key secret iv)
  | rotateHostSecret actor draws hostId secret iv now =>
      exact attends_audited platform i _ rfl (fun _ => rfl) rfl
        (rotateHostSecret_checks platform actor draws i hostId secret iv now)
  | setHostEnabled actor draws hostId enabled =>
      exact attends_audited platform i _ rfl (fun _ => rfl) rfl (setHostEnabled_checks actor draws i hostId enabled)
  | registerDevice actor draws ivs input =>
      exact attends_audited platform i _ rfl (fun _ => rfl) rfl (registerDevice_checks platform actor draws i ivs input)
  | updateDevice actor draws ivs id input =>
      exact attends_audited platform i _ rfl (fun _ => rfl) rfl (updateDevice_checks platform actor draws i ivs id input)
  | setDeviceEnabled actor draws id enabled =>
      exact attends_audited platform i _ rfl (fun _ => rfl) rfl (setDeviceEnabled_checks actor draws i id enabled)
  | deleteDevice actor draws id =>
      exact attends_audited platform i _ rfl (fun _ => rfl) rfl (deleteDevice_checks actor draws i id)
  | updateDatabaseSettings actor draws id input =>
      exact attends_audited platform i _ rfl (fun _ => rfl) rfl (updateDatabaseSettings_checks actor draws i id input)
  | setDatabaseEnabled actor draws id enabled =>
      exact attends_audited platform i _ rfl (fun _ => rfl) rfl (setDatabaseEnabled_checks actor draws i id enabled)
  | createEndpoint actor draws input =>
      exact attends_audited platform i _ rfl (fun _ => rfl) rfl (createEndpoint_checks platform actor draws i input)
  | updateEndpoint actor draws id input =>
      exact attends_audited platform i _ rfl (fun _ => rfl) rfl (updateEndpoint_checks platform actor draws i id input)
  | setEndpointEnabled actor draws id enabled =>
      exact attends_audited platform i _ rfl (fun _ => rfl) rfl (setEndpointEnabled_checks actor draws i id enabled)
  | deleteEndpoint actor draws id =>
      exact attends_audited platform i _ rfl (fun _ => rfl) rfl (deleteEndpoint_checks actor draws i id)
  | createNode actor draws input =>
      exact attends_audited platform i _ rfl (fun _ => rfl) rfl (createNode_checks actor draws i input)
  | deleteNode actor draws id =>
      exact attends_audited platform i _ rfl (fun _ => rfl) rfl (deleteNode_checks actor draws i id)
  | createDependency actor draws input =>
      exact attends_audited platform i _ rfl (fun _ => rfl) rfl (createDependency_checks actor draws i input)
  | deleteDependency actor draws id =>
      exact attends_audited platform i _ rfl (fun _ => rfl) rfl (deleteDependency_checks actor draws i id)
  | createAlertRule actor draws input =>
      exact attends_audited platform i _ rfl (fun _ => rfl) rfl
        (createAlertRule_checks platform allowPrivateTargets metricText actor draws i input)
  | updateAlertRule actor draws id input =>
      exact attends_audited platform i _ rfl (fun _ => rfl) rfl
        (updateAlertRule_checks platform allowPrivateTargets metricText actor draws i id input)
  | setAlertRuleEnabled actor draws id enabled =>
      exact attends_audited platform i _ rfl (fun _ => rfl) rfl (setAlertRuleEnabled_checks actor draws i id enabled)
  | deleteAlertRule actor draws id =>
      exact attends_audited platform i _ rfl (fun _ => rfl) rfl (deleteAlertRule_checks actor draws i id)
  | createRemediationAction actor draws input =>
      exact attends_audited platform i _ rfl (fun _ => rfl) rfl
        (createRemediationAction_checks platform actor draws i input)
  | updateRemediationAction actor draws id input =>
      exact attends_audited platform i _ rfl (fun _ => rfl) rfl
        (updateRemediationAction_checks platform actor draws i id input)
  | setRemediationActionEnabled actor draws id enabled =>
      exact attends_audited platform i _ rfl (fun _ => rfl) rfl
        (setRemediationActionEnabled_checks actor draws i id enabled)
  | deleteRemediationAction actor draws id =>
      exact attends_audited platform i _ rfl (fun _ => rfl) rfl (deleteRemediationAction_checks actor draws i id)
  | _ => exact attends_silent platform i _ rfl

end Functions

/-! ## One after another -/

section Runs
variable {URL : Type} {platform : Platform URL} {metricText : MetricType → String} {allowPrivateTargets : Bool}
  {org : Nat → Nat} {requests : Nat → Request} {faults : Nat → Option Nat} {s : Db} {c c' : System}

/-- The requests of `order` lead from `s` to `t`, each run whole where the ones before it leave off. -/
abbrev OneByOne (platform : Platform URL) (metricText : MetricType → String) (allowPrivateTargets : Bool)
    (requests : Nat → Request) (s : Db) (order : List Nat) (t : Db) : Prop :=
  Serially schema Row.settings AuditLog.Same (fun i => (requests i).call platform metricText allowPrivateTargets)
    (fun i => (requests i).effect platform allowPrivateTargets) (fun i => (requests i).gone) s order t

theorem start_attends (i : Nat) :
    Attends platform allowPrivateTargets metricText i (requests i)
      ((start platform metricText allowPrivateTargets requests faults s).calls i) := by
  have hcall := attends platform allowPrivateTargets metricText i (requests i)
  simp only [start]
  cases faults i with
  | none => exact hcall
  | some n => exact hcall.failAt n

/-- The order of the trail, which is also the order in which the requests succeed: what has succeeded earlier stays first. -/
theorem requests_linearizable (horg : ∀ i, (requests i).orgId = org i) (hs : schema.Sound s.rows s.drawn)
    (h : Reach schema.sem anyStep (start platform metricText allowPrivateTargets requests faults s) c)
    (h' : Reach schema.sem anyStep c c') :
    ∃ order more,
      Linearizes schema Row.settings (fun i => (requests i).effect platform allowPrivateTargets) s c order ∧
      OneByOne platform metricText allowPrivateTargets requests s order c.store ∧
      Linearizes schema Row.settings (fun i => (requests i).effect platform allowPrivateTargets) s c' (order ++ more) ∧
      OneByOne platform metricText allowPrivateTargets requests c.store more c'.store :=
  serializable settings_blanks (start_sat (s := s) horg) (start_settles (s := s))
    (fun i => horg i ▸ start_attends (s := s) i) hs h h'

/-- A node for a device that is deleted between the check and the transaction. -/
def orphaning : Nat → Request
  | 0 => wiring 0
  | 1 => wiring 1
  | _ => .deleteDevice (ofOrganization 1 .admin) ⟨0, 22, 0⟩ 10

def orphaned : System := start plain (fun _ => "") false orphaning (fun _ => none) emptyDb

theorem requests_linearizable_orphaned : ∃ c c', orphaned.run schema.sem [0, 0, 1, 2] = some c ∧
    c.run schema.sem [1, 1] = some c' ∧
    c'.store.log.map AuditLog.action = [⟨.device, .created⟩, ⟨.device, .deleted⟩, ⟨.node, .created⟩] ∧ ∃ order more,
      Linearizes schema Row.settings (fun i => (orphaning i).effect plain false) emptyDb c order ∧
      OneByOne plain (fun _ => "") false orphaning emptyDb order c.store ∧
      Linearizes schema Row.settings (fun i => (orphaning i).effect plain false) emptyDb c' (order ++ more) ∧
      OneByOne plain (fun _ => "") false orphaning c.store more c'.store := by
  have hruns : (orphaned.run schema.sem [0, 0, 1, 2, 1, 1]).map (fun c => c.store.log.map AuditLog.action) =
      some [⟨.device, .created⟩, ⟨.device, .deleted⟩, ⟨.node, .created⟩] := by decide +kernel
  obtain ⟨c', hc', hlog⟩ := Option.map_eq_some_iff.mp hruns
  obtain ⟨c, hc, hmore⟩ := Option.bind_eq_some_iff.mp ((Conf.run_append _ [0, 0, 1, 2] [1, 1]).symm.trans hc')
  exact ⟨c, c', hc, hmore, hlog, requests_linearizable (s := emptyDb) (fun _ => rfl) .empty (.of_run hc) (.of_run hmore)⟩

/-- One after another, the node is refused. -/
example : (orphaned.run schema.sem [0, 0, 2, 1]).map (fun c => c.store.log.map AuditLog.action) =
    some [⟨.device, .created⟩, ⟨.device, .deleted⟩] := by decide +kernel

end Runs

end IkelyaneMonitor.Tenancy
