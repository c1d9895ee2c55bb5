import IkelyaneMonitor.Tenancy.Writers

/-!
# What a poller is given

* `Entered` : what is known of a device, in the clear; `Request.enters`, `TelemetryReport.enters` : what a request enters, and
  what a report says of type and version, and of devices that nobody has entered;
* `entered_row`, `entered_edit` : a row that is stored holds what was entered, under encryption; a secret that an edit leaves
  blank is the one entered before;
* `Held` : the database holds what was entered; each request and each report keeps that (`Held.request`, `Held.report`);
* `poller_gets_what_was_entered` : the poller of a host is given the devices that are assigned to it and enabled, each with
  what was entered for it last, and never an error.
-/

namespace IkelyaneMonitor.Tenancy
open Interleave Relational
open Crypto (encryptSecret decryptSecret decryptSecret_encryptSecret encryptSecret_ne_empty)
open Telemetry (MetricType SnmpDevice)

structure Entered where
  orgId : Nat
  pollerHostId : Option Nat
  enabled : Bool
  config : PollerDeviceConfig
  deriving DecidableEq, Repr

section Devices
variable {URL : Type} (platform : Platform URL)

/-- What a device holds; `none` where a secret does not decipher. -/
def NetworkDevice.entered? (device : NetworkDevice) : Option Entered :=
  (pollerDeviceConfig platform device).map fun config => ⟨device.orgId, device.pollerHostId, device.enabled, config⟩

def DeviceInput.entered (input : DeviceInput) (id : Nat) (ip : String) (orgId : Nat) : Entered where
  orgId := orgId
  pollerHostId := input.pollerHostId
  enabled := true
  config := {
    id := id
    ipAddress := ip
    type := input.type
    pollIntervalSec := input.pollIntervalSec
    snmpVersion := input.snmpVersion
    snmpPort := input.snmpPort
    snmpTimeoutMs := input.snmpTimeoutMs
    snmpRetries := input.snmpRetries
    snmpCommunity := truthy input.snmpCommunity
    snmpV3 := ⟨input.snmpV3Username, input.snmpV3SecurityLevel, input.snmpV3AuthProtocol, truthy input.snmpV3AuthKey,
      input.snmpV3PrivProtocol, truthy input.snmpV3PrivKey, input.snmpV3ContextName⟩ }

/-- What is left blank stays. -/
def DeviceInput.reentered (input : DeviceInput) (ip : String) (e : Entered) : Entered :=
  let new := input.entered e.config.id ip e.orgId
  { new with
    enabled := e.enabled
    config := { new.config with
      snmpCommunity := new.config.snmpCommunity <|> e.config.snmpCommunity
      snmpV3 := ⟨new.config.snmpV3.username <|> e.config.snmpV3.username,
        new.config.snmpV3.securityLevel <|> e.config.snmpV3.securityLevel,
        new.config.snmpV3.authProtocol <|> e.config.snmpV3.authProtocol,
        new.config.snmpV3.authKey <|> e.config.snmpV3.authKey,
        new.config.snmpV3.privProtocol <|> e.config.snmpV3.privProtocol,
        new.config.snmpV3.privKey <|> e.config.snmpV3.privKey,
        new.config.snmpV3.contextName <|> e.config.snmpV3.contextName⟩ } }

/-- What a request enters. -/
def Request.enters (request : Request) (l : List Entered) : List Entered :=
  match request with
  | .registerDevice actor draws _ input =>
    (addressOf platform input).elim l fun ip => l ++ [input.entered draws.id ip actor.orgId]
  | .updateDevice _ _ _ id input =>
    (addressOf platform input).elim l fun ip => l.map fun e => if e.config.id = id then input.reentered ip e else e
  | .setDeviceEnabled _ _ id enabled => l.map fun e => if e.config.id = id then { e with enabled := enabled } else e
  | .deleteDevice _ _ id => l.filter fun e => e.config.id ≠ id
  | _ => l

/-- What a report says of a device that is there. -/
def Entered.reported (snmp : SnmpDevice) (e : Entered) : Entered :=
  { e with
    config := { e.config with
      type := snmp.device.type.getD e.config.type
      snmpVersion := snmp.device.snmpVersion.getD e.config.snmpVersion } }

/-- A device that nobody has entered, polled by the agent that reports it. -/
def TelemetryReport.discovers (r : TelemetryReport) (ip : String) (snmp : SnmpDevice) : Entered where
  orgId := r.agent.orgId
  pollerHostId := some r.agent.hostId
  enabled := true
  config := {
    id := r.draw (.device (r.agent.orgId, ip))
    ipAddress := ip
    type := snmp.device.type.getD .other
    pollIntervalSec := 60
    snmpVersion := snmp.device.snmpVersion.getD .v2c
    snmpPort := 161
    snmpTimeoutMs := 3000
    snmpRetries := 1
    snmpCommunity := none
    snmpV3 := ⟨none, none, none, none, none, none, none⟩ }

def TelemetryReport.entersDevice (r : TelemetryReport) (l : List Entered) (snmp : SnmpDevice) : List Entered :=
  (platform.inet snmp.device.ipAddress).elim l fun ip =>
    match l.find? fun e => e.orgId == r.agent.orgId && e.config.ipAddress == ip with
    | none => l ++ [r.discovers ip snmp]
    | some known => l.map fun e => if e.config.id = known.config.id then e.reported snmp else e

def Writer.enters (writer : Writer) (l : List Entered) : List Entered :=
  match writer with
  | .report r => (r.payload.snmpDevices.getD []).foldl (r.entersDevice platform) l
  | _ => l

/-! ## Under encryption -/

theorem decryptField_encrypt (iv : Crypto.Token) (secret : Option String) (id : Nat) (field : String) :
    decryptField platform ((truthy secret).map fun secret =>
      encryptSecret platform.gcm iv secret (deviceSecretAad (platform.idText id) field)) id field = some (truthy secret) := by
  unfold decryptField
  cases truthy secret with
  | none => rfl
  | some secret =>
      have hne := encryptSecret_ne_empty platform.gcm iv secret (deviceSecretAad (platform.idText id) field)
      rw [Option.map_some, truthy, Option.filter_some, if_pos (by simpa using hne)]
      simp only [decryptSecret_encryptSecret, Option.map_some]

/-- A secret that is entered again replaces the old one; otherwise that is kept. -/
theorem decryptField_orElse (iv : Crypto.Token) (secret old clear : Option String) (id : Nat) (field : String)
    (hold : decryptField platform old id field = some clear) :
    decryptField platform ((truthy secret).map (fun secret =>
      encryptSecret platform.gcm iv secret (deviceSecretAad (platform.idText id) field)) <|> old) id field =
        some (truthy secret <|> clear) := by
  have hnew := decryptField_encrypt platform iv secret id field
  cases hs : truthy secret with
  | none => exact hold
  | some text =>
      rw [hs] at hnew
      exact hnew

theorem entered_row (input : DeviceInput) (ivs : DeviceIvs) (ip : String) (orgId : Nat) (draws : Draws) :
    (input.row platform ivs ip orgId draws).entered? platform = some (input.entered draws.id ip orgId) := by
  simp only [NetworkDevice.entered?, pollerDeviceConfig, DeviceInput.row, credentialFields, decryptField_encrypt]
  rfl

theorem entered_edit (input : DeviceInput) (ivs : DeviceIvs) (ip : String) {device : NetworkDevice} {e : Entered}
    (h : device.entered? platform = some e) :
    (input.edit platform ivs ip device).entered? platform = some (input.reentered ip e) := by
  simp only [NetworkDevice.entered?, pollerDeviceConfig, Option.bind_eq_bind, Option.map_eq_some_iff,
    Option.bind_eq_some_iff] at h
  obtain ⟨config, ⟨community, hcommunity, authKey, hauthKey, privKey, hprivKey, hconfig⟩, rfl⟩ := h
  obtain rfl := Option.some.inj hconfig
  simp only [NetworkDevice.entered?, pollerDeviceConfig, DeviceInput.edit, credentialFields,
    decryptField_orElse platform _ _ _ _ _ _ hcommunity, decryptField_orElse platform _ _ _ _ _ _ hauthKey,
    decryptField_orElse platform _ _ _ _ _ _ hprivKey]
  rfl

theorem entered_enabled {device : NetworkDevice} {e : Entered} (h : device.entered? platform = some e) (enabled : Bool) :
    ({ device with enabled := enabled } : NetworkDevice).entered? platform = some { e with enabled := enabled } := by
  simp only [NetworkDevice.entered?, Option.map_eq_some_iff] at h ⊢
  obtain ⟨config, hconfig, rfl⟩ := h
  exact ⟨config, hconfig, rfl⟩

/-! ## One change after another -/

/-- The settings hold what was entered for the device of this id. -/
def Holds (id : Nat) (m : Key → Option Row) (e : Option Entered) : Prop :=
  (m (.device, id) = none ∧ e = none) ∨
    ∃ device x, m (.device, id) = some (.device device) ∧ device.id = id ∧ device.entered? platform = some x ∧ e = some x

/-- The settings hold what was entered, and no device besides. -/
structure Held (m : Key → Option Row) (l : List Entered) : Prop where
  nodup : (l.map fun e => e.config.id).Nodup
  holds : ∀ id, Holds platform id m (l.find? fun e => e.config.id == id)

variable {platform} {allowPrivateTargets : Bool} {id : Nat} {m : Key → Option Row} {e : Option Entered}

/-- A device outlives all rows that are no hosts. -/
theorem without_device {k : Key} {device : NetworkDevice} (hdevice : k ≠ (.device, device.id)) (hhost : k.1 ≠ .host) :
    schema.without k (.device device) = some (.device device) := by
  refine Schema.without_of_unrelated (fun h => hdevice h.symm) fun hk => ?_
  have hk' : k ∈ refTo .host device.pollerHostId := hk
  simp only [refTo, Option.mem_toList, Option.map_eq_some_iff] at hk'
  obtain ⟨_, -, rfl⟩ := hk'
  exact hhost rfl

/-- Changes of other rows leave it alone. -/
theorem Holds.apply_other (h : Holds platform id m e) {c : Change Row Key} (hdevice : changeKey c ≠ (.device, id))
    (hhost : ∀ k, c = .drop k → k.1 ≠ .host) : Holds platform id (schema.apply c m) e := by
  have hne : (Kind.device, id) ≠ changeKey c := Ne.symm hdevice
  cases c with
  | put r =>
      have hm : schema.apply (.put r) m (.device, id) = m (.device, id) := Function.update_of_ne hne _ _
      unfold Holds
      rwa [hm]
  | edit k f =>
      have hm : schema.apply (.edit k f) m (.device, id) = m (.device, id) := Function.update_of_ne hne _ _
      unfold Holds
      rwa [hm]
  | drop k =>
      have hm : schema.apply (.drop k) m (.device, id) = (m (.device, id)).bind (schema.without k) := rfl
      unfold Holds
      rw [hm]
      rcases h with ⟨hnone, he⟩ | ⟨device, x, hsome, hid, hx, he⟩
      · exact .inl ⟨by rw [hnone]; rfl, he⟩
      · refine .inr ⟨device, x, ?_, hid, hx, he⟩
        rw [hsome, Option.bind_some, without_device (hid ▸ hdevice) (hhost k rfl)]

/-- A host is not deleted. -/
theorem asks_drop {request : Request} {a : Asked} (h : request.asks platform allowPrivateTargets = some a) (k : Key)
    (hk : a.change = .drop k) : k.1 ≠ .host := by
  have hkey := asks_key h
  rw [hk, changeKey] at hkey
  subst hkey
  cases request <;> first | cases h | obtain ⟨-, c, hc, rfl⟩ := ask_eq_some h
  case registerHost =>
    obtain ⟨-, hc⟩ := Option.ite_none_right_eq_some.mp hc
    obtain rfl := Option.some.inj hc
    cases hk
  case rotateHostSecret | setHostEnabled =>
    obtain rfl := Option.some.inj hc
    cases hk
  all_goals exact nofun

theorem Holds.edit {f : NetworkDevice → NetworkDevice} {g : Entered → Entered} (hid : ∀ device, (f device).id = device.id)
    (hf : ∀ device x, device.entered? platform = some x → (f device).entered? platform = some (g x))
    (h : Holds platform id m e) : Holds platform id (schema.apply (networkDevice.edit id f) m) (e.map g) := by
  have hm : schema.apply (networkDevice.edit id f) m (.device, id) = (m (.device, id)).map fun r =>
      ((networkDevice.read r).map fun x => (networkDevice.row (f x)).settings).getD r := Function.update_self _ _ _
  unfold Holds
  rw [hm]
  rcases h with ⟨hnone, rfl⟩ | ⟨device, x, hsome, hdevice, hx, rfl⟩
  · exact .inl ⟨by rw [hnone]; rfl, rfl⟩
  · refine .inr ⟨f device, g x, ?_, (hid device).trans hdevice, hf device x hx, rfl⟩
    rw [hsome]
    rfl

/-! ## A list of what was entered -/

section Lists
variable {l : List Entered}

theorem find_of_mem (h : (l.map fun e => e.config.id).Nodup) {x : Entered} (hx : x ∈ l) :
    (l.find? fun e => e.config.id == x.config.id) = some x := by
  cases hf : l.find? fun e => e.config.id == x.config.id with
  | none => simpa using List.find?_eq_none.mp hf x hx
  | some y =>
      have hid : y.config.id = x.config.id := by simpa using List.find?_some hf
      rw [List.inj_on_of_nodup_map h (List.mem_of_find?_eq_some hf) hx hid]

theorem find_map {g : Entered → Entered} (hg : ∀ e, (g e).config.id = e.config.id) (id id' : Nat) :
    ((l.map fun e => if e.config.id = id then g e else e).find? fun e => e.config.id == id') =
      if id = id' then (l.find? fun e => e.config.id == id').map g else l.find? fun e => e.config.id == id' := by
  induction l with
  | nil => simp
  | cons e l ih =>
      rw [List.map_cons]
      by_cases hid' : e.config.id = id'
      · have hid₁ : (if e.config.id = id then g e else e).config.id = id' := by
          split <;> simp [hg, hid']
        rw [List.find?_cons_of_pos (by simpa using hid₁), List.find?_cons_of_pos (by simpa using hid')]
        by_cases hid : id = id'
        · rw [if_pos (hid'.trans hid.symm), if_pos hid, Option.map_some]
        · rw [if_neg fun h => hid (h.symm.trans hid'), if_neg hid]
      · have hid₁ : (if e.config.id = id then g e else e).config.id ≠ id' := by
          split <;> simp [hg, hid']
        rw [List.find?_cons_of_neg (by simpa using hid₁), List.find?_cons_of_neg (by simpa using hid'), ih]

theorem map_ids {g : Entered → Entered} (hg : ∀ e, (g e).config.id = e.config.id) (id : Nat) :
    ((l.map fun e => if e.config.id = id then g e else e).map fun e => e.config.id) = l.map fun e => e.config.id := by
  rw [List.map_map]
  refine List.map_congr_left fun e _ => ?_
  simp only [Function.comp]
  split <;> simp [hg]

end Lists

namespace Held

variable {l : List Entered}

theorem edit (h : Held platform m l) {f : NetworkDevice → NetworkDevice} {g : Entered → Entered}
    (hid : ∀ device, (f device).id = device.id) (hg : ∀ e, (g e).config.id = e.config.id)
    (hf : ∀ device x, device.entered? platform = some x → (f device).entered? platform = some (g x)) (id : Nat) :
    Held platform (schema.apply (networkDevice.edit id f) m) (l.map fun e => if e.config.id = id then g e else e) := by
  refine ⟨by rw [map_ids hg]; exact h.nodup, fun id' => ?_⟩
  rw [find_map hg]
  split
  · subst id'
    exact (h.holds id).edit hid hf
  · rename_i hne
    exact (h.holds id').apply_other (fun hk => hne (congrArg Prod.snd hk)) fun _ hk => by cases hk

theorem put (h : Held platform m l) {device : NetworkDevice} {x : Entered} (hx : device.entered? platform = some x)
    (hid : x.config.id = device.id) (hnew : m (.device, device.id) = none) :
    Held platform (schema.apply (networkDevice.put device) m) (l ++ [x]) := by
  have hnone : (l.find? fun e => e.config.id == device.id) = none := by
    rcases h.holds device.id with ⟨-, he⟩ | ⟨_, _, hsome, -⟩
    · exact he
    · rw [hnew] at hsome
      cases hsome
  refine ⟨?_, fun id => ?_⟩
  · rw [List.map_append, List.map_singleton]
    refine List.Nodup.append h.nodup (List.nodup_singleton _) fun k hk hk' => ?_
    obtain ⟨e, he, rfl⟩ := List.mem_map.mp hk
    have hne := List.find?_eq_none.mp hnone e he
    simp [List.mem_singleton.mp hk', hid] at hne
  · rw [List.find?_append]
    by_cases hd : device.id = id
    · subst hd
      rw [hnone]
      exact .inr ⟨device, x, Function.update_self _ _ _, rfl, hx, by simp [hid]⟩
    · have hskip : ([x].find? fun e => e.config.id == id) = none := by simp [hid, hd]
      rw [hskip, Option.or_none]
      exact (h.holds id).apply_other (fun hk => hd (congrArg Prod.snd hk)) fun _ hk => by cases hk

theorem drop (h : Held platform m l) (id : Nat) :
    Held platform (schema.apply (networkDevice.drop id) m) (l.filter fun e => e.config.id ≠ id) := by
  refine ⟨h.nodup.sublist (List.filter_sublist.map _), fun id' => ?_⟩
  by_cases hid : id = id'
  · subst hid
    have hnone : ((l.filter fun e => e.config.id ≠ id).find? fun e => e.config.id == id) = none := by
      simp [List.find?_eq_none]
    refine .inl ⟨?_, hnone⟩
    show (m (.device, id)).bind (schema.without (.device, id)) = none
    rcases h.holds id with ⟨hnone, -⟩ | ⟨device, x, hsome, rfl, -, -⟩
    · rw [hnone]
      rfl
    · rw [hsome, Option.bind_some]
      exact if_pos rfl
  · have hsame : ((l.filter fun e => e.config.id ≠ id).find? fun e => e.config.id == id') =
        l.find? fun e => e.config.id == id' := by
      rw [List.find?_filter]
      refine List.find?_congr fun e _ => ?_
      by_cases he : e.config.id = id' <;> simp [he, Ne.symm hid]
    rw [hsame]
    refine (h.holds id').apply_other (c := networkDevice.drop id) (fun hk => hid (congrArg Prod.snd hk)) ?_
    rintro k hk
    obtain rfl := Change.drop.inj hk
    show Kind.device ≠ .host
    decide

/-- Changes of rows that are no devices. -/
theorem other (h : Held platform m l) {c : Change Row Key} (hc : (changeKey c).1 ≠ .device)
    (hhost : ∀ k, c = .drop k → k.1 ≠ .host) : Held platform (schema.apply c m) l :=
  ⟨h.nodup, fun id => (h.holds id).apply_other (fun hk => hc (congrArg Prod.fst hk)) hhost⟩

end Held

theorem entered_id {device : NetworkDevice} {x : Entered} (h : device.entered? platform = some x) :
    x.config.id = device.id ∧ x.config.ipAddress = device.ipAddress ∧ x.orgId = device.orgId := by
  simp only [NetworkDevice.entered?, pollerDeviceConfig, Option.bind_eq_bind, Option.map_eq_some_iff,
    Option.bind_eq_some_iff] at h
  obtain ⟨config, ⟨_, _, _, _, _, _, hconfig⟩, rfl⟩ := h
  obtain rfl := Option.some.inj hconfig
  exact ⟨rfl, rfl, rfl⟩

/-! ## The rows of the devices -/

section Rows
variable {l : List Entered} {t u : Db} {device : NetworkDevice} {x : Entered}

theorem settings_device (hkeys : (t.rows.map schema.key).Nodup) (id : Nat) :
    schema.settings Row.settings t.rows (.device, id) = some (.device device) ↔
      Row.device device ∈ t.rows ∧ device.id = id := by
  constructor
  · intro h
    obtain ⟨r, hr, hset⟩ := Option.map_eq_some_iff.mp h
    obtain ⟨hmem, hk⟩ := (Schema.rowAt_eq_some hkeys).mp hr
    obtain ⟨device', rfl⟩ := networkDevice.row_of_key (congrArg Prod.fst hk)
    obtain rfl : device' = device := Row.device.inj hset
    exact ⟨hmem, congrArg Prod.snd hk⟩
  · rintro ⟨hmem, rfl⟩
    exact Schema.settings_of_mem hkeys hmem

theorem Held.of_mem (hkeys : (t.rows.map schema.key).Nodup) (h : Held platform (schema.settings Row.settings t.rows) l)
    (hmem : Row.device device ∈ t.rows) : ∃ x ∈ l, device.entered? platform = some x := by
  have hset := (settings_device hkeys device.id).mpr ⟨hmem, rfl⟩
  rcases h.holds device.id with ⟨hnone, -⟩ | ⟨device', x, hsome, -, hx, he⟩
  · rw [hset] at hnone
    cases hnone
  · obtain rfl := Row.device.inj (Option.some.inj (hset.symm.trans hsome))
    exact ⟨x, List.mem_of_find?_eq_some he, hx⟩

theorem Held.mem_iff (hkeys : (t.rows.map schema.key).Nodup) (h : Held platform (schema.settings Row.settings t.rows) l) :
    x ∈ l ↔ ∃ device, Row.device device ∈ t.rows ∧ device.entered? platform = some x := by
  constructor
  · intro hx
    rcases h.holds x.config.id with ⟨-, he⟩ | ⟨device, y, hsome, -, hy, he⟩
    · rw [find_of_mem h.nodup hx] at he
      cases he
    · obtain rfl := Option.some.inj ((find_of_mem h.nodup hx).symm.trans he)
      exact ⟨device, ((settings_device hkeys _).mp hsome).1, hy⟩
  · rintro ⟨device, hmem, hx⟩
    obtain ⟨y, hy, hx'⟩ := h.of_mem hkeys hmem
    rwa [← Option.some.inj (hx'.symm.trans hx)]

/-! ## Requests and reports -/

theorem Held.request (h : Held platform m l) {request : Request} {a : Asked}
    (ha : request.asks platform allowPrivateTargets = some a) (hnew : ∀ r, a.change = .put r → m r.key = none) :
    Held platform (schema.apply a.change m) (request.enters platform l) := by
  have hother : a.action.kind ≠ .device → Held platform (schema.apply a.change m) l := fun hkind =>
    h.other (by rw [asks_key ha]; exact hkind) (asks_drop ha)
  cases request <;> first | cases ha | obtain ⟨-, c, hc, rfl⟩ := ask_eq_some ha
  case registerDevice actor draws ivs input =>
    obtain ⟨ip, hip, rfl⟩ := Option.map_eq_some_iff.mp hc
    rw [Request.enters, hip]
    exact h.put (entered_row platform input ivs ip actor.orgId draws) rfl (hnew _ rfl)
  case updateDevice actor draws ivs id input =>
    obtain ⟨ip, hip, rfl⟩ := Option.map_eq_some_iff.mp hc
    rw [Request.enters, hip]
    exact h.edit (f := input.edit platform ivs ip) (g := input.reentered ip) (fun _ => rfl) (fun _ => rfl)
      (fun _ _ hx => entered_edit platform input ivs ip hx) id
  case setDeviceEnabled actor draws id enabled =>
    obtain rfl := Option.some.inj hc
    exact h.edit (f := fun d => { d with enabled := enabled }) (g := fun e => { e with enabled := enabled }) (fun _ => rfl)
      (fun _ => rfl) (fun _ _ hx => entered_enabled platform hx enabled) id
  case deleteDevice actor draws id =>
    obtain rfl := Option.some.inj hc
    exact h.drop id
  all_goals exact hother (by simp)

/-- What other writers do to rows that are no devices. -/
theorem Held.wrote {kinds : List Kind} (hkinds : Kind.device ∉ kinds) (hs : schema.Sound t.rows t.drawn)
    (h : Held platform (schema.settings Row.settings t.rows) l) (hwrote : Wrote kinds t u) :
    Held platform (schema.settings Row.settings u.rows) l := by
  induction hwrote with
  | refl => exact h
  | write hwrote _ hdoes hquiet hkind hwrite ih =>
      rw [writeRow_settings (hwrote.minded hs).sound hdoes hwrite]
      refine ih.other (fun hk => hkinds (hk ▸ hkind)) ?_
      rintro k rfl
      exact hquiet.elim

theorem entered_discovered (r : TelemetryReport) (ip : String) (snmp : SnmpDevice) :
    (discoveredDevice r ip snmp).entered? platform = some (r.discovers ip snmp) := rfl

theorem entered_refreshed (snmp : SnmpDevice) (h : device.entered? platform = some x) :
    (refreshedDevice snmp device).entered? platform = some (x.reported snmp) := by
  simp only [NetworkDevice.entered?, pollerDeviceConfig, Option.bind_eq_bind, Option.map_eq_some_iff,
    Option.bind_eq_some_iff] at h ⊢
  obtain ⟨config, ⟨community, hcommunity, authKey, hauthKey, privKey, hprivKey, hconfig⟩, rfl⟩ := h
  obtain rfl := Option.some.inj hconfig
  exact ⟨_, ⟨community, hcommunity, authKey, hauthKey, privKey, hprivKey, rfl⟩, rfl⟩

section At
variable {orgId : Nat} {ip : String}

theorem Held.find_none (hs : schema.Sound t.rows t.drawn) (h : Held platform (schema.settings Row.settings t.rows) l)
    (hfind : networkDevice.findFirst t (fun d => d.orgId == orgId && d.ipAddress == ip) = none) :
    (l.find? fun e => e.orgId == orgId && e.config.ipAddress == ip) = none := by
  refine List.find?_eq_none.mpr fun e he => ?_
  obtain ⟨device, hmem, hx⟩ := (h.mem_iff hs.nodup).mp he
  obtain ⟨-, hdip, hdorg⟩ := entered_id hx
  have hno := List.find?_eq_none.mp hfind device (networkDevice.mem_all.mpr hmem)
  rwa [hdip, hdorg]

theorem Held.find_some (hs : schema.Sound t.rows t.drawn) (h : Held platform (schema.settings Row.settings t.rows) l)
    {device : NetworkDevice}
    (hfind : networkDevice.findFirst t (fun d => d.orgId == orgId && d.ipAddress == ip) = some device) :
    ∃ known, (l.find? fun e => e.orgId == orgId && e.config.ipAddress == ip) = some known ∧
      known.config.id = device.id := by
  obtain ⟨hmem, hat⟩ := networkDevice.findFirst_eq_some hfind
  obtain ⟨e, he, hx⟩ := h.of_mem hs.nodup hmem
  obtain ⟨-, heip, heorg⟩ := entered_id hx
  have hsome : (l.find? fun e => e.orgId == orgId && e.config.ipAddress == ip).isSome = true :=
    List.find?_isSome.mpr ⟨e, he, by rwa [heip, heorg]⟩
  obtain ⟨known, hknown⟩ := Option.isSome_iff_exists.mp hsome
  obtain ⟨device', hmem', hx'⟩ := (h.mem_iff hs.nodup).mp (List.mem_of_find?_eq_some hknown)
  obtain ⟨hid, hkip, hkorg⟩ := entered_id hx'
  have hat' := List.find?_some hknown
  simp only [hkip, hkorg, Bool.and_eq_true, beq_iff_eq] at hat hat'
  refine ⟨known, hknown, ?_⟩
  -- two devices of an organization at one address would clash
  by_contra hne
  have hapart := hs.apart _ hmem _ hmem' fun hk => hne (hid.trans (congrArg Prod.snd hk))
  simp [schema, Row.clash, networkDevice, hat.1, hat.2, hat'.1, hat'.2] at hapart

end At

/-- A device that an agent reports. -/
theorem Held.snmpDevice {r : TelemetryReport} {snmp : SnmpDevice} (hs : schema.Sound t.rows t.drawn)
    (h : Held platform (schema.settings Row.settings t.rows) l) (hwrite : r.ingestSnmpDevice platform t snmp = some u) :
    Held platform (schema.settings Row.settings u.rows) (r.entersDevice platform l snmp) := by
  obtain ⟨ip, hip, hwrite⟩ := Option.bind_eq_some_iff.mp hwrite
  rw [TelemetryReport.entersDevice, hip, Option.elim_some]
  unfold Model.upsert at hwrite
  split at hwrite
  · rename_i hfind
    rw [h.find_none hs hfind, writeRow_settings hs (networkDevice.does_create _) hwrite]
    obtain ⟨hnew, -⟩ := Schema.fresh_cons (writeRow_eq_some hwrite).1
    exact h.put (entered_discovered r ip snmp) rfl (settings_of_not_drawn hs (hnew _ rfl))
  · rename_i device hfind
    obtain ⟨known, hknown, hid⟩ := h.find_some hs hfind
    rw [hknown, writeRow_settings hs (networkDevice.does_update (f := refreshedDevice snmp) (g := refreshedDevice snmp)
      (fun _ => rfl) fun y => ⟨y, rfl, rfl⟩) hwrite]
    dsimp only
    rw [hid]
    exact h.edit (f := refreshedDevice snmp) (g := Entered.reported snmp) (fun _ => rfl) (fun _ => rfl)
      (fun _ _ hx => entered_refreshed snmp hx) device.id

theorem Held.devices {r : TelemetryReport} {snmps : List SnmpDevice} (hs : schema.Sound t.rows t.drawn)
    (hknown : Known schema r.agent.orgId (.host, r.agent.hostId) t)
    (h : Held platform (schema.settings Row.settings t.rows) l)
    (hwrite : snmps.foldlM (r.ingestSnmpDevice platform) t = some u) :
    Held platform (schema.settings Row.settings u.rows) (snmps.foldl (r.entersDevice platform) l) := by
  induction snmps generalizing t l with
  | nil =>
      cases hwrite
      exact h
  | cons snmp snmps ih =>
      simp only [List.foldlM_cons, Option.bind_eq_bind, Option.bind_eq_some_iff] at hwrite
      obtain ⟨v, hv, hwrite⟩ := hwrite
      have hmind := (TelemetryReport.ingestSnmpDevice_wrote hs hknown .refl hv).minded hs
      exact ih hmind.sound (hmind.known hknown) (h.snmpDevice hs hv) hwrite

end Rows

end Devices

/-! ## The poller -/

/-- What the devices of a database hold. -/
def enteredIn {URL : Type} (platform : Platform URL) (s : Db) : List Entered :=
  (networkDevice.all s).filterMap fun device => device.entered? platform

/-- What has been entered after these moves. -/
def entered {URL : Type} (platform : Platform URL) (requests : Nat → Request) (l : List Entered)
    (ms : List (Move Nat Writer)) :
    List Entered :=
  ms.foldl (fun l m => match m with
    | .call i => (requests i).enters platform l
    | .write writer => writer.enters platform l) l

/-- A function that fails nowhere on a list. -/
theorem exists_mapM {α β : Type} {f : α → Option β} {l : List α} (h : ∀ x ∈ l, ∃ y, f x = some y) :
    ∃ ys, l.mapM f = some ys ∧ List.Forall₂ (fun x y => f x = some y) l ys := by
  induction l with
  | nil => exact ⟨[], rfl, .nil⟩
  | cons x l ih =>
      obtain ⟨y, hy⟩ := h x List.mem_cons_self
      obtain ⟨ys, hys, hall⟩ := ih fun z hz => h z (List.mem_cons_of_mem _ hz)
      refine ⟨y :: ys, ?_, .cons hy hall⟩
      rw [List.mapM_cons, hy, hys]
      rfl

theorem mem_of_forall₂ {α β : Type} {f : α → Option β} {l : List α} {ys : List β}
    (h : List.Forall₂ (fun x y => f x = some y) l ys) {y : β} : y ∈ ys ↔ ∃ x ∈ l, f x = some y := by
  induction h with
  | nil => simp
  | @cons x z l ys hz hall ih =>
      simp only [List.mem_cons, ih, exists_eq_or_imp, hz, Option.some.injEq]
      exact or_congr_left eq_comm

theorem map_of_forall₂ {α β γ : Type} {f : α → Option β} {g : β → γ} {v : α → γ} {l : List α} {ys : List β}
    (h : List.Forall₂ (fun x y => f x = some y) l ys) (hg : ∀ x y, f x = some y → g y = v x) : ys.map g = l.map v := by
  induction h with
  | nil => rfl
  | cons hz _ ih => rw [List.map_cons, List.map_cons, ih, hg _ _ hz]

section Runs
variable {URL : Type} {platform : Platform URL} {metricText : MetricType → String} {allowPrivateTargets : Bool}
  {org : Nat → Nat} {requests : Nat → Request} {faults : Nat → Option Nat} {s t : Db} {c : System}

/-- To begin with. -/
theorem held_enteredIn (hs : schema.Sound s.rows s.drawn)
    (hdecipher : ∀ device, Row.device device ∈ s.rows → ∃ x, device.entered? platform = some x) :
    Held platform (schema.settings Row.settings s.rows) (enteredIn platform s) := by
  have hmem : ∀ x, x ∈ enteredIn platform s ↔ ∃ device, Row.device device ∈ s.rows ∧ device.entered? platform = some x := by
    intro x
    simp only [enteredIn, List.mem_filterMap, networkDevice.mem_all]
    rfl
  have hnodup : ((enteredIn platform s).map fun e => e.config.id).Nodup := by
    have hids : (enteredIn platform s).map (fun e => e.config.id) =
        ((networkDevice.all s).filter fun device => (device.entered? platform).isSome).map fun device => device.id := by
      rw [enteredIn, List.map_filterMap, ← List.filterMap_eq_map, List.filterMap_filter]
      refine List.filterMap_congr fun device _ => ?_
      cases hx : device.entered? platform with
      | none => rfl
      | some x => simp [(entered_id hx).1]
    rw [hids]
    exact networkDevice.nodup_ids hs.nodup _
  refine ⟨hnodup, fun id => ?_⟩
  cases hset : schema.settings Row.settings s.rows (.device, id) with
  | none =>
      refine .inl ⟨hset, List.find?_eq_none.mpr fun x hx hid => ?_⟩
      obtain ⟨device, hdevice, hx⟩ := (hmem x).mp hx
      have hsome := (settings_device hs.nodup id).mpr ⟨hdevice, (entered_id hx).1.symm.trans (eq_of_beq hid)⟩
      rw [hset] at hsome
      cases hsome
  | some r =>
      obtain ⟨device, rfl⟩ := networkDevice.row_of_key (congrArg Prod.fst (key_settings hset))
      obtain ⟨hdevice, rfl⟩ := (settings_device hs.nodup id).mp hset
      obtain ⟨x, hx⟩ := hdecipher device hdevice
      refine .inr ⟨device, x, hset, rfl, hx, ?_⟩
      rw [← (entered_id hx).1]
      exact find_of_mem hnodup ((hmem x).mpr ⟨device, hdevice, hx⟩)

theorem held_of_evolves (hs : schema.Sound s.rows s.drawn) {l : List Entered} {ms : List (Move Nat Writer)}
    (hl : Held platform (schema.settings Row.settings s.rows) l)
    (h : Evolves schema Row.settings (fun i => (requests i).effect platform allowPrivateTargets) (Writer.apply platform) s
      ms t) : Held platform (schema.settings Row.settings t.rows) (entered platform requests l ms) := by
  induction h with
  | refl => exact hl
  | idle _ _ _ hset _ ih => rwa [hset]
  | call hbefore _ _ hchange hnew _ hset _ _ ih =>
      obtain ⟨a, ha, rfl⟩ := Option.map_eq_some_iff.mp hchange
      rw [hset, entered, List.foldl_append]
      exact ih.request ha fun r hr => settings_of_not_drawn (hbefore.sound hs) (hnew r hr)
  | @write _ _ _ writer hbefore _ hwrite ih =>
      have hsound := hbefore.sound hs
      rw [entered, List.foldl_append]
      cases writer with
      | report r =>
          obtain ⟨s₁, s₂, h₁, hknown, hdevices, h₂, h₃⟩ := TelemetryReport.wrote hsound hwrite
          have hs₁ := (h₁.minded hsound).sound
          exact ((ih.wrote (by simp) hsound h₁).devices hs₁ hknown hdevices).wrote (by simp) (h₂.minded hs₁).sound h₃
      | provisionHost => exact ih.wrote (by simp) hsound (Writer.wrote_provisionHost hwrite)
      | claimDueChecks => exact ih.wrote (by simp) hsound (Writer.wrote_claimDueChecks hsound hwrite)
      | recordResult => exact ih.wrote (by simp) hsound (Writer.wrote_recordResult hsound hwrite)

/-- What the poller of a host is given where the database holds what was entered. -/
theorem Held.poller {t : Db} {l : List Entered} (hs : schema.Sound t.rows t.drawn)
    (h : Held platform (schema.settings Row.settings t.rows) l) (i orgId pollerHostId : Nat) :
    ∃ configs, (listDevicesForPoller platform orgId pollerHostId).exec schema.sem i t = some (t, .ok configs) ∧
      (configs.map PollerDeviceConfig.id).Nodup ∧
      ∀ config, config ∈ configs ↔ ∃ e ∈ l, e.config = config ∧ e.orgId = orgId ∧ e.pollerHostId = some pollerHostId ∧
        e.enabled = true := by
  let rows := orderBy platform.collate (fun d => d.name) (networkDevice.findMany t fun d =>
    d.orgId == orgId && d.pollerHostId == some pollerHostId && d.enabled)
  have hrows : ∀ device, device ∈ rows ↔ Row.device device ∈ t.rows ∧ device.orgId = orgId ∧
      device.pollerHostId = some pollerHostId ∧ device.enabled = true := by
    intro device
    simp only [rows, mem_orderBy, Model.findMany, List.mem_filter, networkDevice.mem_all, Bool.and_eq_true, beq_iff_eq,
      and_assoc]
    rfl
  have hconfig : ∀ {device : NetworkDevice} {config : PollerDeviceConfig}, pollerDeviceConfig platform device = some config →
      device.entered? platform = some ⟨device.orgId, device.pollerHostId, device.enabled, config⟩ := by
    intro device config h
    rw [NetworkDevice.entered?, h]
    rfl
  obtain ⟨configs, hconfigs, hall⟩ := exists_mapM (f := pollerDeviceConfig platform) (l := rows) fun device hdevice => by
    obtain ⟨x, -, hx⟩ := h.of_mem hs.nodup ((hrows device).mp hdevice).1
    obtain ⟨config, hc, -⟩ := Option.map_eq_some_iff.mp hx
    exact ⟨config, hc⟩
  refine ⟨configs, ?_, ?_, fun config => ?_⟩
  · simp only [listDevicesForPoller, Relational.read, Prog.exec, Schema.sem, Option.bind_some]
    rw [hconfigs]
    rfl
  · rw [map_of_forall₂ (v := fun d => d.id) hall fun _ _ h => (entered_id (hconfig h)).1]
    exact ((perm_orderBy _ _ _).map _).nodup_iff.mpr (networkDevice.nodup_ids hs.nodup _)
  · rw [mem_of_forall₂ hall]
    constructor
    · rintro ⟨device, hdevice, hc⟩
      obtain ⟨hmem, ho, hpoller, henabled⟩ := (hrows device).mp hdevice
      exact ⟨_, (h.mem_iff hs.nodup).mpr ⟨device, hmem, hconfig hc⟩, rfl, ho, hpoller, henabled⟩
    · rintro ⟨x, hx, rfl, ho, hpoller, henabled⟩
      obtain ⟨device, hmem, hdevice⟩ := (h.mem_iff hs.nodup).mp hx
      obtain ⟨config, hc, rfl⟩ := Option.map_eq_some_iff.mp hdevice
      exact ⟨device, (hrows device).mpr ⟨hmem, ho, hpoller, henabled⟩, hc⟩

/-- Asked in any state that requests and other writers lead to, where the credentials to begin with decipher. -/
theorem poller_gets_what_was_entered (horg : ∀ i, (requests i).orgId = org i) (hs : schema.Sound s.rows s.drawn)
    (hdecipher : ∀ device, Row.device device ∈ s.rows → ∃ x, device.entered? platform = some x)
    {run : List (Move Nat Writer)} (h : (start platform metricText allowPrivateTargets requests faults s).moves schema.sem
      (Writer.apply platform) run = some c) :
    ∃ ms, TookEffect (fun i => (requests i).effect platform allowPrivateTargets) s run c ms ∧
      ∀ (i orgId pollerHostId : Nat), ∃ configs,
        (listDevicesForPoller platform orgId pollerHostId).exec schema.sem i c.store = some (c.store, .ok configs) ∧
        (configs.map PollerDeviceConfig.id).Nodup ∧
        ∀ config, config ∈ configs ↔ ∃ e ∈ entered platform requests (enteredIn platform s) ms, e.config = config ∧
          e.orgId = orgId ∧ e.pollerHostId = some pollerHostId ∧ e.enabled = true := by
  obtain ⟨ms, hevolves, heffect⟩ := evolves settings_blanks (writers_mind platform) (start_sat (s := s) horg)
    (start_settles (s := s)) hs h
  have hheld := held_of_evolves hs (held_enteredIn hs hdecipher) hevolves
  exact ⟨ms, heffect, hheld.poller (hevolves.sound hs)⟩

/-- What the poller of host 7 is told of a device, in part. -/
def toldPoller (c : System) : List (Nat × Telemetry.DeviceType × Nat × Option String) :=
  ((networkDevice.all c.store).filterMap (pollerDeviceConfig plain)).map fun config =>
    (config.id, config.type, config.snmpPort, config.snmpCommunity)

theorem poller_gets_what_was_entered_watched : ∃ c ms,
    watched.moves schema.sem (Writer.apply plain) [.call 0, .call 0, .call 0, .call 1, .call 1, .call 1, .call 1,
      .write (.report polledReport)] = some c ∧
    toldPoller c = [(10, .switch, 1161, some "public"), (30, .ups, 161, none)] ∧
    TookEffect (fun i => (watching i).effect plain false) pollingDb [.call 0, .call 0, .call 0, .call 1, .call 1, .call 1,
      .call 1, .write (.report polledReport)] c ms ∧
    ∃ configs, (listDevicesForPoller plain 1 7).exec schema.sem 0 c.store = some (c.store, .ok configs) ∧
      ∀ config, config ∈ configs ↔ ∃ e ∈ entered plain watching (enteredIn plain pollingDb) ms, e.config = config ∧
        e.orgId = 1 ∧ e.pollerHostId = some 7 ∧ e.enabled = true := by
  have hruns : (watched.moves schema.sem (Writer.apply plain) [.call 0, .call 0, .call 0, .call 1, .call 1, .call 1, .call 1,
      .write (.report polledReport)]).map toldPoller =
      some [(10, .switch, 1161, some "public"), (30, .ups, 161, none)] := by decide +kernel
  obtain ⟨c, hc, htold⟩ := Option.map_eq_some_iff.mp hruns
  have horg : ∀ i, (watching i).orgId = 1 := by
    intro i
    rcases i with _ | _ | _ | i <;> rfl
  have hnone : ∀ device, Row.device device ∈ pollingDb.rows → ∃ x, device.entered? plain = some x := by
    simp [pollingDb]
  obtain ⟨ms, heffect, hpoller⟩ := poller_gets_what_was_entered horg pollingDb_sound hnone hc
  obtain ⟨configs, hexec, -, hconfigs⟩ := hpoller 0 1 7
  exact ⟨c, ms, hc, htold, heffect, configs, hexec, hconfigs⟩

end Runs

end IkelyaneMonitor.Tenancy
