import Mathlib.Data.List.Flatten
import IkelyaneMonitor.Agent.Kept

/-!
# Sent at least once, stored as if sent once

* `Setting.reports` : what the samples report; `Apart` : no source reports twice with the same time;
* `Served` : what the server stores are the deliveries it answered with success, one after another (`served_of_run`);
* `samples_stored_once` : the rows on the server are those of some of the samples, each delivered once and in the order in
  which they were made; every other sample is with its agent or is lost, for one of the causes.
-/

namespace IkelyaneMonitor.Agent.Reporting
open Telemetry Disk Wire

section Reports
variable (S : Setting)

/-- What the samples report, each in the name of the host of its agent. -/
def Setting.reports (made : List (Nat × String)) : List Report :=
  made.flatMap fun x =>
    match S.decode x.2 with
    | .payload payload => [⟨World.agent S x.1, payload⟩]
    | .notJson | .invalid => []

/-- The hosts have the ids that their keys stand for. -/
def Setting.Registers (hosts : List AgentHost) : Prop :=
  ∀ host ∈ hosts, ∀ a, host.keyId = (S.client a).keyId → host.id = S.hostId a ∧ host.orgId = S.orgId a

variable {S}

theorem mem_reports {made : List (Nat × String)} {r : Report} : r ∈ S.reports made ↔
    ∃ a body payload, (a, body) ∈ made ∧ S.decode body = .payload payload ∧ r = ⟨World.agent S a, payload⟩ := by
  unfold Setting.reports
  rw [List.mem_flatMap]
  constructor
  · rintro ⟨⟨a, body⟩, hmem, hr⟩
    split at hr
    · rename_i payload hdecode
      exact ⟨a, body, payload, hmem, hdecode, List.mem_singleton.mp hr⟩
    all_goals cases hr
  · rintro ⟨a, body, payload, hmem, hdecode, rfl⟩
    refine ⟨(a, body), hmem, ?_⟩
    simp only [hdecode]
    exact List.mem_singleton_self _

end Reports

/-- No source reports twice with the same time, and the ids of the sources are distinct. -/
structure Apart (draw : Telemetry.Source → Nat) (reports : List Report) : Prop where
  nodup : reports.Nodup
  once : (reports.flatMap Report.readings).Nodup
  ids : ∀ a ∈ reports.flatMap Report.readings, ∀ b ∈ reports.flatMap Report.readings, a.1.id draw = b.1.id draw → a.1 = b.1

theorem Apart.deliverable {draw : Telemetry.Source → Nat} {reports part : List Report} (h : Apart draw reports)
    (hsub : part.Sublist reports) (hwindow : ∀ r ∈ part, ∃ ctx, r.payload.inWindow ctx = true) : Deliverable draw part where
  nodup := h.nodup.sublist hsub
  once := h.once.sublist (hsub.flatMap _)
  ids a ha b hb := h.ids a ((hsub.flatMap _).subset ha) b ((hsub.flatMap _).subset hb)
  window := hwindow

theorem independent_of_sublist {draw : Telemetry.Source → Nat} {reports part : List Report} (h : Independent draw reports)
    (hsub : part.Sublist reports) : Independent draw part where
  limits r hr before db after hsplit hderives hlast := by
    obtain ⟨hothers, hself⟩ := h.limits r (hsub.subset hr) before db after hsplit hderives hlast
    exact ⟨fun r' hr' => hothers r' (hsub.subset hr'), hself⟩
  slow r hr r' hr' := h.slow r (hsub.subset hr) r' (hsub.subset hr')

/-! ## The server -/

section Hosts
variable {draw : Telemetry.Source → Nat} {hostId orgId : Nat} {hostname hostname' keyId keyId' : String}
  {firstSeenAt firstSeenAt' : Option Int} {secrets secrets' : List String}

theorem databasesRows_congr (databases : List DatabaseMetric) (limit : InstanceKey → Option Nat) :
    databasesRows draw ⟨hostId, orgId, hostname, keyId, firstSeenAt, secrets⟩ databases limit =
      databasesRows draw ⟨hostId, orgId, hostname', keyId', firstSeenAt', secrets'⟩ databases limit := by
  induction databases generalizing limit with
  | nil => rfl
  | cons db databases ih =>
      rw [databasesRows, databasesRows]
      exact congrArg _ (ih _)

/-- The rows of a payload depend on the ids of the host and of its organization alone. -/
theorem put_congr (now : Int) (payload : TelemetryPayload) (s : Store) :
    s.put draw ⟨hostId, orgId, hostname, keyId, firstSeenAt, secrets⟩ now payload =
      s.put draw ⟨hostId, orgId, hostname', keyId', firstSeenAt', secrets'⟩ now payload := by
  have hrows : metricRows draw ⟨hostId, orgId, hostname, keyId, firstSeenAt, secrets⟩ payload s.limit =
      metricRows draw ⟨hostId, orgId, hostname', keyId', firstSeenAt', secrets'⟩ payload s.limit := by
    unfold metricRows
    rw [databasesRows_congr]
    rfl
  unfold Store.put
  rw [hrows]
  rfl

end Hosts

theorem host_of_authenticate {hmac : (key message : List UInt8) → Digest}
    {decryptSecret : (payload aad : String) → Option String} {hosts : List AgentHost} {input : AuthInput}
    {agent : AuthenticatedAgent} (h : authenticateAgent hmac decryptSecret hosts input = .ok agent) :
    ∃ host ∈ hosts, input.keyId = some host.keyId ∧ agent.hostId = host.id ∧ agent.orgId = host.orgId := by
  unfold authenticateAgent at h
  split at h
  · cases h
  rename_i keyId hkey
  split at h
  · cases h
  split at h
  · cases h
  split at h
  · cases h
  split at h
  · cases h
  split at h
  · cases h
  rename_i host hfind
  split at h
  · cases h
  split at h
  · cases h
  split at h <;> cases h
  have hkeyId := List.find?_some hfind
  rw [beq_iff_eq] at hkeyId
  exact ⟨host, List.mem_of_find?_eq_some hfind, by rw [hkey, hkeyId], rfl, rfl⟩

/-- Everything that is stored is a request that was sent, in its window. -/
structure Served (S : Setting) (s₀ : Store) (w : World) : Prop where
  registered : S.Registers w.hosts
  drawn : Drawn S.draw w.store
  store : w.store = (w.stored.map Prod.snd).foldl (Store.deliver S.draw) s₀
  delivered : ∀ q d, (q, d) ∈ w.stored → d.report.payload.inWindow d.ctx = true ∧ ∃ r payload, w.sent[q]? = some r ∧
    S.decode r.body = .payload payload ∧ d.report = ⟨World.agent S r.agent, payload⟩

section Served
variable {S : Setting} {s₀ : Store} {w w' : World}

/-- The step stores nothing. -/
structure Quiet (w w' : World) : Prop where
  store : w'.store = w.store
  stored : w'.stored = w.stored
  sent : ∀ (q : Nat) (r : Request), w.sent[q]? = some r → w'.sent[q]? = some r

theorem Served.quiet (h : Served S s₀ w) (hquiet : Quiet w w') (hhosts : S.Registers w'.hosts) : Served S s₀ w' where
  registered := hhosts
  drawn := hquiet.store ▸ h.drawn
  store := by
    rw [hquiet.store, hquiet.stored]
    exact h.store
  delivered q d hd := by
    rw [hquiet.stored] at hd
    obtain ⟨hwindow, r, payload, hq, hof⟩ := h.delivered q d hd
    exact ⟨hwindow, r, payload, hquiet.sent _ _ hq, hof⟩

theorem quiet_conclude (w : World) (a : Nat) (body : String) (q : Nat) (answer : Answer) :
    Quiet w (w.conclude a body q answer) ∧ (w.conclude a body q answer).hosts = w.hosts := by
  have hsame : ∀ lost, Quiet w { w with lost := lost } ∧ { w with lost := lost }.hosts = w.hosts := fun _ =>
    ⟨⟨rfl, rfl, fun _ _ hq => hq⟩, rfl⟩
  cases answer with
  | nothing => exact hsame w.lost
  | other r => exact hsame _
  | reply r =>
      unfold World.conclude
      dsimp only
      split
      · exact hsame w.lost
      · exact hsame _

/-- Only serving stores, and only operators change the hosts. -/
theorem quiet_of_step {event : Event} (hs : w.step S event = some w') (hserve : ∀ q now, event ≠ .serve q now) :
    Quiet w w' ∧ (w'.hosts = w.hosts ∨ event = .administer w'.hosts) := by
  have hsent : ∀ (q : Nat) (r x : Request), w.sent[q]? = some r → (w.sent ++ [x])[q]? = some r := fun q r x hq =>
    (List.getElem?_append_left (List.getElem?_eq_some_iff.mp hq).1).trans hq
  unfold World.step at hs
  split at hs
  · cases hs
    exact ⟨⟨rfl, rfl, fun _ _ hq => hq⟩, .inr rfl⟩
  · exact absurd rfl (hserve _ _)
  · split at hs <;> cases hs
    exact ⟨⟨rfl, rfl, fun _ _ hq => hq⟩, .inl rfl⟩
  · split at hs <;> cases hs
    exact ⟨⟨rfl, rfl, fun _ _ hq => hq⟩, .inl rfl⟩
  · split at hs
    · cases hs
      exact ⟨⟨rfl, rfl, fun _ _ hq => hq⟩, .inl rfl⟩
    · split at hs <;> cases hs
      · exact ⟨⟨rfl, rfl, fun _ _ hq => hq⟩, .inl rfl⟩
      · exact ⟨⟨rfl, rfl, fun q r hq => hsent q r _ hq⟩, .inl rfl⟩
    · cases hs
  · split at hs <;> cases hs
    · exact ⟨⟨rfl, rfl, fun _ _ hq => hq⟩, .inl rfl⟩
    · exact ⟨⟨rfl, rfl, fun q r hq => hsent q r _ hq⟩, .inl rfl⟩
  · split at hs
    · split at hs
      · cases hs
      · split at hs <;> cases hs
        · exact ⟨⟨rfl, rfl, fun _ _ hq => hq⟩, .inl rfl⟩
        · obtain ⟨hquiet, hhosts⟩ := quiet_conclude (w.remove _ _) _ _ _ _
          exact ⟨⟨hquiet.store, hquiet.stored, hquiet.sent⟩, .inl hhosts⟩
    · split at hs
      · cases hs
      · split at hs <;> cases hs
        · exact ⟨⟨rfl, rfl, fun _ _ hq => hq⟩, .inl rfl⟩
        · obtain ⟨hquiet, hhosts⟩ := quiet_conclude w _ _ _ _
          exact ⟨⟨hquiet.store, hquiet.stored, hquiet.sent⟩, .inl hhosts⟩
    · cases hs
  · split at hs <;> cases hs <;> exact ⟨⟨rfl, rfl, fun _ _ hq => hq⟩, .inl rfl⟩

theorem Served.serve (h : Served S s₀ w) {q : Nat} {r : Request} (hq : w.sent[q]? = some r) (now : Int) :
    Served S s₀ (w.serve S q r now) := by
  unfold World.serve
  split
  · rename_i store result hok
    obtain ⟨host, payload, hauth, hdecode, hingest⟩ := answer_ok hok
    have hwindow := inWindow_of_ingestTelemetry S.toISOString hingest
    obtain ⟨counts, hput, -⟩ := ingestTelemetry_of_inWindow S.toISOString host h.drawn hwindow
    obtain ⟨row, hrow, hkey, hid, horg⟩ := host_of_authenticate hauth
    obtain ⟨hhost, horgId⟩ := h.registered row hrow r.agent (Option.some.inj hkey).symm
    have hstore : store = w.store.put S.draw (World.agent S r.agent) now payload := by
      rw [← (Prod.mk.inj (Except.ok.inj (hput.symm.trans hingest))).1]
      obtain ⟨hostId, orgId, hostname, keyId, firstSeenAt, secrets⟩ := host
      obtain rfl : hostId = S.hostId r.agent := hid.trans hhost
      obtain rfl : orgId = S.orgId r.agent := horg.trans horgId
      exact put_congr _ _ _
    have hdelivery : World.delivery S r now = [⟨⟨World.agent S r.agent, payload⟩, S.env.context now⟩] := by
      rw [World.delivery, hdecode]
    refine ⟨h.registered, ?_, ?_, fun q' d hd => ?_⟩
    · show Drawn S.draw store
      rw [hstore]
      exact h.drawn.put _ _ _
    · show store = ((w.stored ++ (World.delivery S r now).map (q, ·)).map Prod.snd).foldl (Store.deliver S.draw) s₀
      rw [hdelivery, List.map_append, List.foldl_append, ← h.store]
      exact hstore
    · change (q', d) ∈ w.stored ++ (World.delivery S r now).map (q, ·) at hd
      rw [hdelivery] at hd
      rcases List.mem_append.mp hd with hd | hd
      · exact h.delivered q' d hd
      · obtain ⟨rfl, rfl⟩ := Prod.mk.inj (List.mem_singleton.mp hd)
        exact ⟨hwindow, r, payload, hq, hdecode, rfl⟩
  · exact h.quiet ⟨rfl, rfl, fun _ _ hr => hr⟩ h.registered

theorem served_of_run (h : Served S s₀ w) {events : List Event}
    (hadmin : ∀ hosts, Event.administer hosts ∈ events → S.Registers hosts) (hr : w.run S events = some w') :
    Served S s₀ w' := by
  induction events generalizing w with
  | nil =>
      cases hr
      exact h
  | cons event events ih =>
      rw [World.run, Option.bind_eq_some_iff] at hr
      obtain ⟨w₁, hs, hrest⟩ := hr
      refine ih ?_ (fun hosts hmem => hadmin hosts (List.mem_cons_of_mem _ hmem)) hrest
      by_cases hserve : ∃ q now, event = .serve q now
      · obtain ⟨q, now, rfl⟩ := hserve
        obtain ⟨r, hq, rfl⟩ := Option.map_eq_some_iff.mp hs
        exact h.serve hq now
      · obtain ⟨hquiet, hhosts⟩ := quiet_of_step hs fun q now heq => hserve ⟨q, now, heq⟩
        refine h.quiet hquiet ?_
        rcases hhosts with hhosts | hhosts
        · rw [hhosts]
          exact h.registered
        · exact hadmin _ (hhosts ▸ List.mem_cons_self)

end Served

/-! ## Every run -/

theorem run_append (S : Setting) (w : World) (events later : List Event) :
    w.run S (events ++ later) = (w.run S events).bind fun w' => w'.run S later := by
  induction events generalizing w with
  | nil => rfl
  | cons event events ih => simp only [List.cons_append, World.run, ih, Option.bind_assoc]

/-- Whatever is lost, delayed or repeated on the way and whenever processes stop, the rows of the metrics and of the slow
queries on the server are those of some of the samples, each delivered once and in the order in which they were made; and a
sample that is not among them is with its agent, or was lost for a cause that holds. The disk of an agent never fails. -/
theorem samples_stored_once (S : Setting) {store : Store} {hosts : List AgentHost} (hdrawn : Drawn S.draw store)
    (hregistered : S.Registers hosts) {events : List Event}
    (hadmin : ∀ hosts, Event.administer hosts ∈ events → S.Registers hosts) {w : World}
    (hrun : (World.start store hosts).run S events = some w) (hapart : Apart S.draw (S.reports w.made))
    (hindependent : Independent S.draw (S.reports w.made)) :
    ∃ ds : List Delivery, (ds.map Delivery.report).Sublist (S.reports w.made) ∧
      (∃ s, ingestAll S.toISOString S.draw ds store = .ok s ∧ SameRows w.store s) ∧
      ∀ a body, (a, body) ∈ w.made →
        (∃ payload, S.decode body = .payload payload ∧ ⟨World.agent S a, payload⟩ ∈ ds.map Delivery.report) ∨ w.Held a body ∨
          ∃ l ∈ w.lost, l.agent = a ∧ l.body = body ∧ l.cause.Holds w a body := by
  classical
  have hinv := inv_of_run (inv_start store hosts) hrun
  have hserved : Served S store w := by
    refine served_of_run ⟨hregistered, hdrawn, rfl, fun q d hd => ?_⟩ hadmin hrun
    exact absurd hd List.not_mem_nil
  -- the reports that were stored, in the order of the samples
  let stored := (S.reports w.made).filter fun r => ∃ x ∈ w.stored, x.2.report = r
  have hsub : stored.Sublist (S.reports w.made) := List.filter_sublist
  have hmem : ∀ {q : Nat} {d : Delivery}, (q, d) ∈ w.stored → d.report ∈ stored := by
    intro q d hd
    obtain ⟨-, r, payload, hq, hdecode, hreport⟩ := hserved.delivered q d hd
    refine List.mem_filter.mpr ⟨mem_reports.mpr ⟨r.agent, r.body, payload, ?_, hdecode, hreport⟩, ?_⟩
    · exact hinv.requested r (List.mem_of_getElem? hq)
    · exact decide_eq_true ⟨(q, d), hd, rfl⟩
  have hcovers : Covers stored (w.stored.map Prod.snd) := by
    refine ⟨fun d hd => ?_, fun r hr => ?_, fun d hd => ?_⟩
    · obtain ⟨⟨q, d⟩, hx, rfl⟩ := List.mem_map.mp hd
      exact hmem hx
    · obtain ⟨x, hx, rfl⟩ := of_decide_eq_true (List.mem_filter.mp hr).2
      exact ⟨x.2, List.mem_map_of_mem hx, rfl⟩
    · obtain ⟨⟨q, d⟩, hx, rfl⟩ := List.mem_map.mp hd
      exact (hserved.delivered q d hx).1
  have hdeliverable : Deliverable S.draw stored := hapart.deliverable hsub fun r hr => by
    obtain ⟨d, hd, rfl⟩ := hcovers.each r hr
    exact ⟨d.ctx, hcovers.window d hd⟩
  have hfree : OrderFree S.toISOString S.draw stored :=
    orderFree_of_independent hdeliverable (independent_of_sublist hindependent hsub)
  have hiff : ∀ r, r ∈ stored ↔ r ∈ stored := fun r => Iff.rfl
  obtain ⟨ds, hds, honce⟩ := hdeliverable.exists_covers hiff
  obtain ⟨s₁, s₂, hall, hagain, hsame, -⟩ := hfree store hdrawn _ _ hcovers honce
  refine ⟨ds, hds ▸ hsub, ⟨s₂, hagain, ?_⟩, fun a body hmade => ?_⟩
  · rw [ingestAll_eq_foldl S.toISOString hdrawn hcovers.window, ← hserved.store] at hall
    cases hall
    exact hsame
  · rcases hinv.kept a body hmade with ⟨q, d, clock, hd, hq⟩ | hheld | ⟨l, hl, rfl, rfl⟩
    · obtain ⟨-, r, payload, hq', hdecode, hreport⟩ := hserved.delivered q d hd
      obtain rfl := Option.some.inj (hq.symm.trans hq')
      refine .inl ⟨payload, hdecode, ?_⟩
      rw [hds, ← hreport]
      exact hmem hd
    · exact .inr (.inl hheld)
    · exact .inr (.inr ⟨l, hl, rfl, rfl, hinv.caused l hl⟩)

/-! ## A request that is served twice -/

def sampleTime : Timestamp := ⟨"2025-09-16T05:20:00.000Z", 1758000000000⟩

/-- One host, whose agent reports one database. -/
def sampleSetting : Setting where
  hmac := sampleHmac
  decryptSecret := fun payload _ => some payload
  decode := fun _ => .payload (connections sampleTime 10 (some 50)).payload
  toISOString := toString
  draw := fun _ => 7
  env := ⟨1048576, 300, 7⟩
  client := fun _ => ⟨"ak_1", "s3cret"⟩
  hostId := fun _ => 1
  orgId := fun _ => 1

def sampleHost : AgentHost := ⟨1, 1, "web-1", "ak_1", true, none, "s3cret", none, none⟩

def sampleEvents : List Event :=
  [.tick 0 1, .turn 0 1758000000, .collect 0 (some "x") 1758000000, .serve 0 1758000000000, .serve 0 1758000001000,
    .hear 0 (.reply ⟨200, none⟩) 2]

theorem serve_sample {w : World} (hhosts : w.hosts = [sampleHost]) (hdrawn : Drawn sampleSetting.draw w.store) {now : Int}
    (hfresh : |now - (1758000000 : Nat) * 1000| ≤ (300 : Nat) * 1000)
    (hwindow : (connections sampleTime 10 (some 50)).payload.inWindow (sampleSetting.env.context now) = true) :
    ∃ store, Drawn sampleSetting.draw store ∧ w.serve sampleSetting 0 ⟨0, "x", 1758000000⟩ now =
      { w.reply 0 ⟨200, none⟩ with
        store := store
        stored := w.stored ++ (World.delivery sampleSetting ⟨0, "x", 1758000000⟩ now).map (0, ·) } := by
  have hsecrets : acceptedSecrets sampleSetting.decryptSecret sampleHost now = some ["s3cret"] := rfl
  have hfind : ([sampleHost].find? fun h => h.keyId == sampleHost.keyId) = some sampleHost := rfl
  have hsigned : ∃ agent, authenticateAgent sampleSetting.hmac sampleSetting.decryptSecret [sampleHost]
      ⟨some sampleHost.keyId, some (sign sampleSetting.hmac "s3cret" (utf8 "x".toList) (1758000000 : Nat)), "x", now, 300⟩ =
      .ok agent := by
    rw [authenticateAgent_signed sampleSetting.hmac sampleSetting.decryptSecret (by decide) hfind hsecrets
      ⟨by decide, by decide⟩ hfresh]
    exact ⟨_, if_pos ⟨"s3cret", List.mem_singleton_self _, rfl⟩⟩
  have hsize : (utf8 "x".toList).length ≤ sampleSetting.env.maxBodyBytes := by decide
  have hstored : ∃ result, w.answer sampleSetting ⟨0, "x", 1758000000⟩ now = .ok result := by
    refine (stored_iff hdrawn).mpr ⟨hsize, ?_, _, rfl, hwindow⟩
    rw [hhosts]
    exact hsigned
  obtain ⟨⟨store, counts⟩, hok⟩ := hstored
  obtain ⟨host, payload, -, -, hingest⟩ := answer_ok hok
  obtain ⟨counts', hput, -⟩ := ingestTelemetry_of_inWindow sampleSetting.toISOString host hdrawn
    (inWindow_of_ingestTelemetry sampleSetting.toISOString hingest)
  have hstore := (Prod.mk.inj (Except.ok.inj (hput.symm.trans hingest))).1
  refine ⟨store, hstore ▸ hdrawn.put _ _ _, ?_⟩
  rw [World.serve, hok]

theorem apart_sample : Apart sampleSetting.draw (sampleSetting.reports [(0, "x")]) where
  nodup := List.nodup_singleton _
  once := List.nodup_singleton _
  ids a ha b hb _ := by
    rw [List.mem_singleton.mp ha, List.mem_singleton.mp hb]

theorem independent_sample : Independent sampleSetting.draw (sampleSetting.reports [(0, "x")]) where
  limits r hr before db after hsplit hderives := by
    obtain rfl := List.mem_singleton.mp hr
    have hdb : db ∈ before ++ db :: after := by simp
    rw [← hsplit] at hdb
    rw [List.mem_singleton.mp hdb] at hderives
    cases hderives
  slow r hr r' hr' k q q' hq := by
    obtain rfl := List.mem_singleton.mp hr
    cases hq

/-- The second time the request is served it is stored again, and nothing is stored twice. -/
theorem samples_stored_once_sample : ∃ w, (World.start Store.empty [sampleHost]).run sampleSetting sampleEvents = some w ∧
    w.stored.length = 2 ∧ ∃ ds : List Delivery, ds.length ≤ 1 ∧
      ∃ s, ingestAll sampleSetting.toISOString sampleSetting.draw ds Store.empty = .ok s ∧ SameRows w.store s := by
  have hadmin : ∀ hosts, Event.administer hosts ∈ sampleEvents → sampleSetting.Registers hosts := by
    simp [sampleEvents]
  have hregistered : sampleSetting.Registers [sampleHost] := by
    intro host hhost a _
    rw [List.mem_singleton.mp hhost]
    exact ⟨rfl, rfl⟩
  obtain ⟨w₁, hw₁, hq, hhosts, hstore, hmade, hphase, hstored⟩ : ∃ w₁,
      (World.start Store.empty [sampleHost]).run sampleSetting (sampleEvents.take 3) = some w₁ ∧
      w₁.sent[0]? = some ⟨0, "x", 1758000000⟩ ∧ w₁.hosts = [sampleHost] ∧ w₁.store = Store.empty ∧ w₁.made = [(0, "x")] ∧
      w₁.phases 0 = .sending "x" 0 ∧ w₁.stored = [] := ⟨_, rfl, rfl, rfl, rfl, rfl, rfl, rfl⟩
  obtain ⟨s₁, hdrawn₁, hserve₁⟩ := serve_sample hhosts (hstore ▸ drawn_empty _)
    (show |(1758000000000 : Int) - (1758000000 : Nat) * 1000| ≤ (300 : Nat) * 1000 by decide) rfl
  generalize hw₂ : w₁.serve sampleSetting 0 ⟨0, "x", 1758000000⟩ 1758000000000 = w₂ at hserve₁
  have hhosts₂ : w₂.hosts = [sampleHost] := hserve₁ ▸ hhosts
  have hdrawn₂ : Drawn sampleSetting.draw w₂.store := hserve₁ ▸ hdrawn₁
  have hq₂ : w₂.sent[0]? = some ⟨0, "x", 1758000000⟩ := hserve₁ ▸ hq
  obtain ⟨s₂, -, hserve₂⟩ := serve_sample hhosts₂ hdrawn₂
    (show |(1758000001000 : Int) - (1758000000 : Nat) * 1000| ≤ (300 : Nat) * 1000 by decide) rfl
  generalize hw₃ : w₂.serve sampleSetting 0 ⟨0, "x", 1758000000⟩ 1758000001000 = w₃ at hserve₂
  have hphase₃ : w₃.phases 0 = .sending "x" 0 := by
    rw [hserve₂, hserve₁]
    exact hphase
  have hheard : w₃.heard 0 (.reply ⟨200, none⟩) = true := by
    refine decide_eq_true ?_
    rw [hserve₂]
    exact List.mem_append_right _ (List.mem_singleton_self _)
  have hhear : w₃.step sampleSetting (.hear 0 (.reply ⟨200, none⟩) 2) = some (w₃.setPhase 0 .idle) := by
    unfold World.step
    dsimp only
    rw [hphase₃]
    dsimp only
    rw [hheard]
    rfl
  have hrun : (World.start Store.empty [sampleHost]).run sampleSetting sampleEvents = some (w₃.setPhase 0 .idle) := by
    rw [← List.take_append_drop 3 sampleEvents, run_append, hw₁, Option.bind_some]
    show ((w₁.sent[0]?).map _).bind _ = _
    rw [hq, Option.map_some, hw₂, Option.bind_some]
    show ((w₂.sent[0]?).map _).bind _ = _
    rw [hq₂, Option.map_some, hw₃, Option.bind_some]
    show (w₃.step sampleSetting (.hear 0 (.reply ⟨200, none⟩) 2)).bind _ = _
    rw [hhear]
    rfl
  have hmade₃ : (w₃.setPhase 0 .idle).made = [(0, "x")] := by
    show w₃.made = _
    rw [hserve₂, hserve₁]
    exact hmade
  have hstored₃ : (w₃.setPhase 0 .idle).stored.length = 2 := by
    show w₃.stored.length = 2
    rw [hserve₂, hserve₁]
    show ((w₁.stored ++ _) ++ _).length = 2
    rw [hstored]
    rfl
  obtain ⟨ds, hsub, hsame, -⟩ := samples_stored_once sampleSetting (drawn_empty _) hregistered hadmin hrun
    (hmade₃ ▸ apart_sample) (hmade₃ ▸ independent_sample)
  rw [hmade₃] at hsub
  refine ⟨_, hrun, hstored₃, ds, ?_, hsame⟩
  rw [← List.length_map]
  exact hsub.length_le

end IkelyaneMonitor.Agent.Reporting
