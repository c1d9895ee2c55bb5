import IkelyaneMonitor.Agent.SnmpRows
import IkelyaneMonitor.Telemetry.Payload
import IkelyaneMonitor.Telemetry.Schemas

/-!
# Polled devices on the wire

* `PollerDevice`, `pollerConfig` : what the platform hands out, and what the agent makes of it;
* `Ordinary` : what the device has to say of itself and of its interfaces for its entry to be taken;
* `poll_accepted_iff` : the entry of a poll is taken exactly when the device was reached and is ordinary;
* `unreachable_rejected` : a device that cannot be reached is not.
-/

namespace IkelyaneMonitor.Telemetry
open Wire Replay Agent.Snmp

/-! ## What is handed out -/

/-- `toLowerCase`, as the agent gets it. -/
def DeviceType.lower : DeviceType → String
  | .router => "router"
  | .switch => "switch"
  | .firewall => "firewall"
  | .ap => "ap"
  | .ups => "ups"
  | .bmc => "bmc"
  | .other => "other"

def SnmpVersion.lower : SnmpVersion → String
  | .v1 => "v1"
  | .v2c => "v2c"
  | .v3 => "v3"

def SecurityLevel.name : SecurityLevel → String
  | .noAuthNoPriv => "NO_AUTH_NO_PRIV"
  | .authNoPriv => "AUTH_NO_PRIV"
  | .authPriv => "AUTH_PRIV"

def AuthProtocol.name : AuthProtocol → String
  | .md5 => "MD5"
  | .sha => "SHA"
  | .sha224 => "SHA224"
  | .sha256 => "SHA256"
  | .sha384 => "SHA384"
  | .sha512 => "SHA512"

def PrivProtocol.name : PrivProtocol → String
  | .des => "DES"
  | .aes => "AES"
  | .aes192 => "AES192"
  | .aes256 => "AES256"

/-- `PollerDeviceConfig` (`modules/network/devices.ts`). An address is checked with `isIP` when it is stored, in a column that
holds nothing else. -/
structure PollerDevice (isIp : List Char → Bool) where
  id : String
  ipAddress : String
  type : DeviceType
  pollIntervalSec : Int
  snmpVersion : SnmpVersion
  snmpPort : Int
  snmpTimeoutMs : Int
  snmpRetries : Int
  snmpCommunity : Option String
  username : Option String
  securityLevel : Option SecurityLevel
  authProtocol : Option AuthProtocol
  authKey : Option String
  privProtocol : Option PrivProtocol
  privKey : Option String
  contextName : Option String
  isIp_ipAddress : isIp ipAddress.toList = true

variable {isIp : List Char → Bool}

/-- The answer of `GET /api/v1/poller-config`, decoded by the agent: `null` leaves a field empty. -/
def pollerConfig (d : PollerDevice isIp) : Device where
  id := d.id
  ipAddress := d.ipAddress
  type := d.type.lower
  pollIntervalSec := d.pollIntervalSec
  snmp := {
    version := d.snmpVersion.lower
    port := d.snmpPort
    timeoutMs := d.snmpTimeoutMs
    retries := d.snmpRetries
    community := d.snmpCommunity.getD ""
    v3 :=
      if d.snmpVersion = .v3 then
        some {
          username := d.username.getD ""
          securityLevel := (d.securityLevel.map SecurityLevel.name).getD ""
          authProtocol := (d.authProtocol.map AuthProtocol.name).getD ""
          authKey := d.authKey.getD ""
          privProtocol := (d.privProtocol.map PrivProtocol.name).getD ""
          privKey := d.privKey.getD ""
          contextName := d.contextName.getD "" }
      else none }

/-! ## Interfaces -/

section Interfaces

theorem accepts_status (v : Int) :
    (oneOf operStatuses).accepts (some (.str (decode (utf8 (ifStatusString v).toList)))) = true := by
  rw [decode_utf8]
  refine accepts_oneOf ?_
  unfold ifStatusString
  split_ifs <;> decide

/-- What an interface of the agent has to be for the schema. -/
theorem accepts_interface (i : Agent.Snmp.SnmpInterface) :
    snmpInterfaceSchema.accepts (some ((Json.record i.fields).map decode)) = true ↔
      (whole 0 2147483647).accepts (some (.num i.ifIndex)) = true ∧
      shortText.accepts (some (.str (decode i.name))) = true ∧
      (i.alias ≠ [] → (trimmed 0 255).accepts (some (.str (decode i.alias))) = true) ∧
      (∀ n ∈ i.speedMbps, (whole 0 100000000).accepts (some (.num (n : ℚ))) = true) ∧
      (utf8 i.adminStatus.toList ≠ [] → (oneOf operStatuses).accepts
        (some (.str (decode (utf8 i.adminStatus.toList)))) = true) ∧
      (oneOf operStatuses).accepts (some (.str (decode (utf8 i.operStatus.toList)))) = true ∧
      nonNegative.accepts (some (.num i.inBps)) = true ∧
      nonNegative.accepts (some (.num i.outBps)) = true ∧
      (∀ q ∈ i.utilizationPercent, percent.accepts (some (.num q)) = true) ∧
      (∀ q ∈ i.packetLossPercent, percent.accepts (some (.num q)) = true) ∧
      (∀ n ∈ i.inErrors, counter.accepts (some (.num (n : ℚ))) = true) ∧
      (∀ n ∈ i.outErrors, counter.accepts (some (.num (n : ℚ))) = true) ∧
      (∀ n ∈ i.crcErrors, counter.accepts (some (.num (n : ℚ))) = true) ∧
      (∀ n ∈ i.inDiscards, counter.accepts (some (.num (n : ℚ))) = true) ∧
      (∀ n ∈ i.outDiscards, counter.accepts (some (.num (n : ℚ))) = true) ∧
      (∀ q ∈ i.errorsPerSec, nonNegative.accepts (some (.num q)) = true) ∧
      (∀ q ∈ i.crcErrorsPerSec, nonNegative.accepts (some (.num q)) = true) := by
  rw [Json.map_record, snmpInterfaceSchema, Schema.accepts_record (by simp [SnmpInterface.fields])]
  simp only [List.forall_mem_cons, List.not_mem_nil, false_implies, implies_true, and_true, SnmpInterface.fields,
    List.map_cons, List.map_nil, List.lookup_cons, List.lookup_nil, String.reduceBEq, Option.join_some, Option.join_none,
    Option.map_some, Json.map, accepts_textField, accepts_numField, accepts_natField, Schema.accepts_optional_none, true_and]

section Rates
variable {fl : Rounding}

theorem rate_nonneg (cur prev : Nat) (seconds : ℚ) : 0 ≤ rate fl cur prev seconds := by
  unfold rate
  split
  · exact le_refl 0
  · rename_i h
    exact Agent.perSeconds_nonneg _ (by by_contra hs; exact h (.inl (not_lt.mp hs)))

theorem clampPercent_mem (v : ℚ) : 0 ≤ clampPercent v ∧ clampPercent v ≤ 100 := by
  unfold clampPercent
  split_ifs with hneg hbig
  · exact ⟨le_refl 0, by norm_num⟩
  · exact ⟨by norm_num, le_refl 100⟩
  · exact ⟨not_lt.mp hneg, not_lt.mp hbig⟩

/-- Rates apart, an interface is what its row gives without an earlier poll; the rates are in their ranges. -/
theorem toInterface_gauges (deviceIP : String) (r : IfRow) (now : Agent.Instant) (prev : Prev) :
    ∃ inBps outBps : ℚ, ∃ util errors crc : Option ℚ, 0 ≤ inBps ∧ 0 ≤ outBps ∧ (∀ q ∈ util, 0 ≤ q ∧ q ≤ 100) ∧
      (∀ q ∈ errors, 0 ≤ q) ∧ (∀ q ∈ crc, 0 ≤ q) ∧
      (toInterface fl deviceIP r now prev).1 =
        { r.gauges with
          inBps := inBps
          outBps := outBps
          utilizationPercent := util
          errorsPerSec := errors
          crcErrorsPerSec := crc } := by
  have hfirst : ∃ inBps outBps : ℚ, ∃ util errors crc : Option ℚ, 0 ≤ inBps ∧ 0 ≤ outBps ∧ (∀ q ∈ util, 0 ≤ q ∧ q ≤ 100) ∧
      (∀ q ∈ errors, 0 ≤ q) ∧ (∀ q ∈ crc, 0 ≤ q) ∧
      r.gauges =
        { r.gauges with
          inBps := inBps
          outBps := outBps
          utilizationPercent := util
          errorsPerSec := errors
          crcErrorsPerSec := crc } :=
    ⟨0, 0, none, none, none, le_refl 0, le_refl 0, fun _ => (nomatch ·), fun _ => (nomatch ·), fun _ => (nomatch ·), rfl⟩
  unfold toInterface
  split
  · exact hfirst
  · rename_i before _ _
    show ∃ inBps outBps : ℚ, ∃ util errors crc : Option ℚ, _
    dsimp only
    split
    · refine ⟨_, _, _, _, _, ?_, ?_, ?_, ?_, ?_, rfl⟩
      · exact fl.nonneg (mul_nonneg (rate_nonneg _ _ _) (by norm_num))
      · exact fl.nonneg (mul_nonneg (rate_nonneg _ _ _) (by norm_num))
      · intro q hq
        split at hq
        · cases hq
          exact clampPercent_mem _
        · cases hq
      · intro q hq
        cases hq
        exact fl.nonneg (add_nonneg (rate_nonneg _ _ _) (rate_nonneg _ _ _))
      · intro q hq
        obtain ⟨_, -, rfl⟩ := Option.map_eq_some_iff.mp hq
        exact rate_nonneg _ _ _
    · exact hfirst

/-- What the row of an interface has to hold for the schema. -/
structure PortRow (r : IfRow) : Prop where
  index : 0 ≤ r.index ∧ r.index ≤ 2147483647
  name : ¬ Blank (truncate (displayName r.name r.descr r.index) 255)
  speed : speedBps r.highSpeed r.speed / 1000000 ≤ 100000000
  inErrors : r.inErrors ≤ maxSafeInteger
  outErrors : r.outErrors ≤ maxSafeInteger
  inDiscards : r.inDiscards ≤ maxSafeInteger
  outDiscards : r.outDiscards ≤ maxSafeInteger
  crcErrors : r.crcErrors ≤ maxSafeInteger

theorem accepts_counter {n : Nat} : counter.accepts (some (.num (n : ℚ))) = true ↔ n ≤ maxSafeInteger := by
  have h := @accepts_whole 0 maxSafeInteger n
  rw [Int.cast_natCast] at h
  rw [counter, h]
  omega

theorem accepts_toInterface (deviceIP : String) (r : IfRow) (now : Agent.Instant) (prev : Prev) :
    snmpInterfaceSchema.accepts (some ((Json.record (toInterface fl deviceIP r now prev).1.fields).map decode)) = true ↔
      PortRow r := by
  obtain ⟨inBps, outBps, util, errors, crc, hin, hout, hutil, herrors, hcrc, heq⟩ :=
    @toInterface_gauges fl deviceIP r now prev
  have hlength : ∀ bytes : List UInt8, (truncate bytes 255).length ≤ 255 := fun bytes => List.length_take_le 255 bytes
  have hspeed : (∀ n ∈ r.gauges.speedMbps, (whole 0 100000000).accepts (some (.num (n : ℚ))) = true) ↔
      speedBps r.highSpeed r.speed / 1000000 ≤ 100000000 := by
    have hwhole : ∀ n : Nat, (whole 0 100000000).accepts (some (.num (n : ℚ))) = true ↔ n ≤ 100000000 := by
      intro n
      have h := @accepts_whole 0 100000000 n
      rw [Int.cast_natCast] at h
      rw [h]
      omega
    unfold IfRow.gauges
    dsimp only
    split
    · simp [hwhole]
    · rename_i hzero
      simp [Nat.eq_zero_of_not_pos hzero]
  have hcrcErrors : (∀ n ∈ r.gauges.crcErrors, n ≤ maxSafeInteger) ↔ r.crcErrors ≤ maxSafeInteger := by
    unfold IfRow.gauges
    dsimp only
    split
    · simp
    · rename_i hnone
      have hzero : r.crcErrors = 0 := Nat.eq_zero_of_not_pos fun h => hnone (.inl h)
      simp [hzero]
  have hname : shortText.accepts (some (.str (decode r.gauges.name))) = true ↔
      ¬ Blank (truncate (displayName r.name r.descr r.index) 255) := accepts_trimmed_iff (hlength _)
  have hpointer : ∀ {n : Nat}, n ≤ maxSafeInteger → ∀ m ∈ some n, m ≤ maxSafeInteger := by
    rintro n h m ⟨⟩
    exact h
  rw [heq, accepts_interface]
  simp only [accepts_counter, percent, accepts_within, accepts_nonNegative, accepts_whole, hname, hspeed, hcrcErrors]
  constructor
  · rintro ⟨hindex, hname, -, hspeed, -, -, -, -, -, -, hinErrors, houtErrors, hcrcErrors, hinDiscards, houtDiscards, -, -⟩
    exact ⟨hindex, hname, hspeed, hinErrors _ rfl, houtErrors _ rfl, hinDiscards _ rfl, houtDiscards _ rfl, hcrcErrors⟩
  · intro h
    exact ⟨h.index, h.name, fun _ => accepts_trimmed_of_le (hlength _), h.speed, fun _ => accepts_status _, accepts_status _,
      hin, hout, hutil, fun _ => (nomatch ·), hpointer h.inErrors, hpointer h.outErrors, h.crcErrors, hpointer h.inDiscards,
      hpointer h.outDiscards, herrors, hcrc⟩

end Rates

end Interfaces

/-! ## The device -/

section Device

/-- What the device says of itself has to be this for the schema. -/
theorem accepts_info (d : Agent.Snmp.SnmpDeviceInfo) :
    (snmpDeviceInfoSchema isIp).accepts (some ((Json.record d.fields).map decode)) = true ↔
      isIp (decode (utf8 d.ipAddress.toList)) = true ∧
      (d.name ≠ [] → shortText.accepts (some (.str (decode d.name))) = true) ∧
      (utf8 d.type.toList ≠ [] → (oneOf deviceTypes).accepts (some (.str (decode (utf8 d.type.toList)))) = true) ∧
      (d.sysName ≠ [] → shortText.accepts (some (.str (decode d.sysName))) = true) ∧
      (d.sysDescr ≠ [] → longText.accepts (some (.str (decode d.sysDescr))) = true) ∧
      (∀ q ∈ d.uptimeSeconds, nonNegative.accepts (some (.num q)) = true) ∧
      (utf8 d.snmpVersion.toList ≠ [] → (oneOf snmpVersions).accepts
        (some (.str (decode (utf8 d.snmpVersion.toList)))) = true) ∧
      (∀ q ∈ d.latencyMs, nonNegative.accepts (some (.num q)) = true) := by
  rw [Json.map_record, snmpDeviceInfoSchema, Schema.accepts_record (by simp [Agent.Snmp.SnmpDeviceInfo.fields])]
  simp only [List.forall_mem_cons, List.not_mem_nil, false_implies, implies_true, and_true, Agent.Snmp.SnmpDeviceInfo.fields,
    List.map_cons, List.map_nil, List.lookup_cons, List.lookup_nil, String.reduceBEq, Option.join_some, Option.join_none,
    Option.map_some, Json.map, Schema.accepts_str, accepts_textField, accepts_numField, Schema.accepts_optional_none,
    Schema.accepts_bool, true_and]

/-- `null` is not taken in the place of the interfaces. -/
theorem accepts_snmpDevice (d : Agent.Snmp.SnmpDevice) :
    (snmpDeviceSchema isIp).accepts (some d.json) = true ↔
      timestamp.accepts (some (.str (decode d.collectedAt))) = true ∧
      (snmpDeviceInfoSchema isIp).accepts (some ((Json.record d.device.fields).map decode)) = true ∧
      ∃ ifaces, d.interfaces = some ifaces ∧ ifaces.length ≤ 1024 ∧
        ∀ i ∈ ifaces, snmpInterfaceSchema.accepts (some ((Json.record i.fields).map decode)) = true := by
  rw [Agent.Snmp.SnmpDevice.json, Json.map_record, snmpDeviceSchema,
    Schema.accepts_record (by simp [Agent.Snmp.SnmpDevice.fields])]
  simp only [List.forall_mem_cons, List.not_mem_nil, false_implies, implies_true, and_true, Agent.Snmp.SnmpDevice.fields,
    List.map_cons, List.map_nil, List.lookup_cons, String.reduceBEq, Option.join_some, Option.map_some, Json.map,
    Schema.accepts_optional, Option.all_some]
  refine and_congr_right fun _ => and_congr_right fun _ => ?_
  cases d.interfaces with
  | none => simp [Json.map, Schema.accepts]
  | some ifaces =>
      rw [Option.elim_some, Json.map, Json.mapItems_eq, Schema.accepts_arr]
      simp

end Device

/-! ## A device that answers -/

/-- The name that the device gave last. -/
def sysName (a : Answers) : List UInt8 :=
  (a.system.filter fun pdu => pdu.name = oidSysName).getLast?.elim [] fun pdu => truncate (pduString pdu) 255

section Reachable
variable {fl : Rounding} {toBigInt : Value → Option Int}

/-- What the loop over the first answer keeps. -/
structure SystemInfo (device : Device) (info : Agent.Snmp.SnmpDeviceInfo) : Prop where
  ipAddress : info.ipAddress = device.ipAddress
  type : info.type = device.type
  snmpVersion : info.snmpVersion = device.snmp.version
  name : info.name.length ≤ 255
  same : info.sysName = info.name
  sysDescr : info.sysDescr.length ≤ 2000
  uptimeSeconds : ∀ q ∈ info.uptimeSeconds, 0 ≤ q
  latencyMs : ∀ q ∈ info.latencyMs, 0 ≤ q

theorem SystemInfo.setSystem {device : Device} {info : Agent.Snmp.SnmpDeviceInfo} (h : SystemInfo device info) (pdu : Pdu) :
    SystemInfo device (setSystem fl toBigInt info pdu) := by
  unfold Agent.Snmp.setSystem
  split_ifs
  · exact { h with sysDescr := List.length_take_le 2000 _ }
  · exact { h with name := List.length_take_le 255 _, same := rfl }
  · refine { h with uptimeSeconds := ?_ }
    intro q hq
    cases hq
    exact fl.nonneg (div_nonneg (fl.nonneg (Nat.cast_nonneg _)) (by norm_num))
  · exact h

theorem SystemInfo.foldl {device : Device} {info : Agent.Snmp.SnmpDeviceInfo} (h : SystemInfo device info)
    (system : List Pdu) : SystemInfo device (system.foldl (Agent.Snmp.setSystem fl toBigInt) info) := by
  induction system generalizing info with
  | nil => exact h
  | cons pdu system ih => exact ih (h.setSystem pdu)

theorem systemInfo_reachable (device : Device) (a : Answers) : SystemInfo device (reachable fl toBigInt device a) := by
  refine SystemInfo.foldl ⟨rfl, rfl, rfl, Nat.zero_le _, rfl, Nat.zero_le _, ?_, ?_⟩ a.system
  · intro q hq
    cases hq
  intro q hq
  cases hq
  exact fl.nonneg (div_nonneg (fl.nonneg (Nat.cast_nonneg _)) (by norm_num))

theorem name_setSystem (info : Agent.Snmp.SnmpDeviceInfo) (pdu : Pdu) : (setSystem fl toBigInt info pdu).name =
    if pdu.name = oidSysName then truncate (pduString pdu) 255 else info.name := by
  unfold Agent.Snmp.setSystem
  by_cases hdescr : pdu.name = oidSysDescr
  · have hne : pdu.name ≠ oidSysName := by
      rw [hdescr]
      decide
    rw [if_pos hdescr, if_neg hne]
  · rw [if_neg hdescr]
    split_ifs <;> rfl

theorem name_foldl (info : Agent.Snmp.SnmpDeviceInfo) (system : List Pdu) :
    (system.foldl (setSystem fl toBigInt) info).name =
      (system.filter fun pdu => pdu.name = oidSysName).getLast?.elim info.name fun pdu => truncate (pduString pdu) 255 := by
  induction system generalizing info with
  | nil => rfl
  | cons pdu system ih =>
      rw [List.foldl_cons, ih, name_setSystem]
      by_cases hname : pdu.name = oidSysName
      · rw [if_pos hname, List.filter_cons_of_pos (by simpa using hname), List.getLast?_cons]
        cases (system.filter fun pdu => pdu.name = oidSysName).getLast? <;> rfl
      · rw [if_neg hname, List.filter_cons_of_neg (by simpa using hname)]

end Reachable

/-! ## What is taken -/

section Accepted
variable (toBigInt : Value → Option Int)

/-- An interface whose index, name, speed and counters are in the bounds of the schema. -/
structure OrdinaryPort (a : Answers) (index : Int) : Prop where
  range : 0 ≤ index ∧ index ≤ 2147483647
  name : ¬ Blank (truncate (a.text index) 255)
  speed : a.speed toBigInt index / 1000000 ≤ 100000000
  inErrors : a.counter toBigInt colIfInErrors index ≤ maxSafeInteger
  outErrors : a.counter toBigInt colIfOutErrors index ≤ maxSafeInteger
  inDiscards : a.counter toBigInt colIfInDiscards index ≤ maxSafeInteger
  outDiscards : a.counter toBigInt colIfOutDiscards index ≤ maxSafeInteger
  crcErrors : a.crcErrors toBigInt index ≤ maxSafeInteger

/-- The name of the device is not of white space, and it has at most 1024 interfaces, all of them ordinary. -/
structure Ordinary (a : Answers) : Prop where
  sysName : sysName a ≠ [] → ¬ Blank (sysName a)
  few : a.indices.length ≤ 1024
  ports : ∀ index ∈ a.indices, OrdinaryPort toBigInt a index

variable {toBigInt} {fl : Rounding} {order : MapOrder} {a : Answers}

theorem portRow_iff {r : IfRow} (h : Says toBigInt a r) : PortRow r ↔ OrdinaryPort toBigInt a r.index := by
  obtain ⟨hname, hspeed, hinErrors, houtErrors, hinDiscards, houtDiscards, hcrcErrors⟩ := h
  constructor
  · rintro ⟨hr₁, hr₂, hr₃, hr₄, hr₅, hr₆, hr₇, hr₈⟩
    rw [hname] at hr₂
    rw [hspeed] at hr₃
    exact ⟨hr₁, hr₂, hr₃, hinErrors ▸ hr₄, houtErrors ▸ hr₅, hinDiscards ▸ hr₆, houtDiscards ▸ hr₇, hcrcErrors ▸ hr₈⟩
  · rintro ⟨hr₁, hr₂, hr₃, hr₄, hr₅, hr₆, hr₇, hr₈⟩
    rw [← hname] at hr₂
    rw [← hspeed] at hr₃
    exact ⟨hr₁, hr₂, hr₃, hinErrors ▸ hr₄, houtErrors ▸ hr₅, hinDiscards ▸ hr₆, houtDiscards ▸ hr₇, hcrcErrors ▸ hr₈⟩

theorem accepts_toInterfaces (deviceIP : String) (now : Agent.Instant) (rows : List IfRow) (prev : Prev) :
    (toInterfaces fl deviceIP now rows prev).1.length = rows.length ∧
      ((∀ i ∈ (toInterfaces fl deviceIP now rows prev).1,
          snmpInterfaceSchema.accepts (some ((Json.record i.fields).map decode)) = true) ↔ ∀ r ∈ rows, PortRow r) := by
  induction rows generalizing prev with
  | nil => exact ⟨rfl, by simp [toInterfaces]⟩
  | cons r rows ih =>
      obtain ⟨hlength, hports⟩ := ih (toInterface fl deviceIP r now prev).2
      refine ⟨congrArg (· + 1) hlength, ?_⟩
      show (∀ i ∈ (toInterface fl deviceIP r now prev).1 :: _, _) ↔ _
      rw [List.forall_mem_cons, List.forall_mem_cons, accepts_toInterface, hports]

/-- The interfaces of a device are taken when there are not too many and each is ordinary. -/
theorem accepts_pollInterfaces (deviceIP : String) (now : Agent.Instant) (prev : Prev) :
    ((pollInterfaces fl toBigInt order deviceIP now a prev).1.length ≤ 1024 ∧
      ∀ i ∈ (pollInterfaces fl toBigInt order deviceIP now a prev).1,
        snmpInterfaceSchema.accepts (some ((Json.record i.fields).map decode)) = true) ↔
      a.indices.length ≤ 1024 ∧ ∀ index ∈ a.indices, OrdinaryPort toBigInt a index := by
  have hperm := order.perm (ifRows toBigInt a)
  obtain ⟨hlength, hports⟩ := @accepts_toInterfaces fl deviceIP now (order.visit (ifRows toBigInt a)) prev
  rw [pollInterfaces, hlength, hports, hperm.length_eq, length_ifRows]
  refine and_congr_right fun _ => ?_
  constructor
  · intro h index hindex
    obtain ⟨r, hr, rfl⟩ := List.mem_map.mp (mem_indices.mpr hindex)
    exact (portRow_iff (says_of_mem hr)).mp (h r (hperm.mem_iff.mpr hr))
  · intro h r hr
    have hrow := hperm.mem_iff.mp hr
    exact (portRow_iff (says_of_mem hrow)).mpr (h r.index (mem_indices.mp (List.mem_map_of_mem hrow)))

theorem accepts_lower {value : String} {values : List String} (h : value ∈ values) :
    (oneOf values).accepts (some (.str (decode (utf8 value.toList)))) = true := by
  rw [decode_utf8]
  exact accepts_oneOf h

theorem type_mem (d : PollerDevice isIp) : (pollerConfig d).type ∈ deviceTypes := by
  show d.type.lower ∈ deviceTypes
  cases d.type <;> decide

theorem version_mem (d : PollerDevice isIp) : (pollerConfig d).snmp.version ∈ snmpVersions := by
  show d.snmpVersion.lower ∈ snmpVersions
  cases d.snmpVersion <;> decide

theorem accepts_reachable (d : PollerDevice isIp) :
    (snmpDeviceInfoSchema isIp).accepts
        (some ((Json.record (reachable fl toBigInt (pollerConfig d) a).fields).map decode)) = true ↔
      (sysName a ≠ [] → ¬ Blank (sysName a)) := by
  have h := @systemInfo_reachable fl toBigInt (pollerConfig d) a
  have hname : (reachable fl toBigInt (pollerConfig d) a).name = sysName a := name_foldl _ a.system
  have hip : isIp (decode (utf8 (pollerConfig d).ipAddress.toList)) = true := by
    rw [decode_utf8]
    exact d.isIp_ipAddress
  have hshort : shortText.accepts (some (.str (decode (sysName a)))) = true ↔ ¬ Blank (sysName a) :=
    accepts_trimmed_iff (hname ▸ h.name)
  rw [accepts_info, h.same, hname, h.ipAddress, h.type, h.snmpVersion, hshort]
  simp only [accepts_nonNegative]
  constructor
  · rintro ⟨-, hblank, -⟩
    exact hblank
  · intro hblank
    exact ⟨hip, hblank, fun _ => accepts_lower (type_mem d), hblank, fun _ => accepts_text_of_le h.sysDescr, h.uptimeSeconds,
      fun _ => accepts_lower (version_mem d), h.latencyMs⟩

/-- Without an answer the entry has no interfaces, not even an empty list of them. -/
theorem poll_failed {gosnmp : Params → Session} {device : Device} (now : Agent.Instant) (prev : Prev)
    (h : ∀ params a, buildParams device = .ok params → gosnmp params ≠ .answered a) :
    (poll fl toBigInt order gosnmp device now prev).1 = ⟨now.format, unreachable device, none⟩ := by
  unfold poll
  cases hparams : buildParams device with
  | error e => rfl
  | ok params =>
      cases hsession : gosnmp params with
      | connectFailed => simp only [hsession]
      | getFailed => simp only [hsession]
      | answered a => exact absurd hsession (h params a hparams)

theorem poll_answered {gosnmp : Params → Session} {device : Device} (now : Agent.Instant) (prev : Prev) {params : Params}
    (hparams : buildParams device = .ok params) (hsession : gosnmp params = .answered a) :
    (poll fl toBigInt order gosnmp device now prev).1 =
      ⟨now.format, reachable fl toBigInt device a,
        some (pollInterfaces fl toBigInt order device.ipAddress now a prev).1⟩ := by
  unfold poll
  simp only [hparams, hsession]

/-- The entry of a poll is taken exactly when the device was reached and what it answers is ordinary. -/
theorem poll_accepted_iff (d : PollerDevice isIp) (gosnmp : Params → Session) (now : Agent.Instant) (prev : Prev) :
    (snmpDeviceSchema isIp).accepts (some (poll fl toBigInt order gosnmp (pollerConfig d) now prev).1.json) = true ↔
      ∃ params a, buildParams (pollerConfig d) = .ok params ∧ gosnmp params = .answered a ∧ Ordinary toBigInt a := by
  have htime := accepts_format now
  by_cases hreached : ∃ params a, buildParams (pollerConfig d) = .ok params ∧ gosnmp params = .answered a
  · obtain ⟨params, a, hparams, hsession⟩ := hreached
    rw [poll_answered now prev hparams hsession, accepts_snmpDevice, accepts_reachable]
    simp only [htime, true_and, Option.some.injEq, exists_eq_left', accepts_pollInterfaces]
    constructor
    · rintro ⟨hname, hfew, hports⟩
      exact ⟨params, a, hparams, hsession, hname, hfew, hports⟩
    · rintro ⟨params', a', hparams', hsession', hordinary⟩
      rw [hparams] at hparams'
      cases hparams'
      rw [hsession] at hsession'
      cases hsession'
      exact ⟨hordinary.sysName, hordinary.few, hordinary.ports⟩
  · rw [poll_failed now prev fun params a hparams hsession => hreached ⟨params, a, hparams, hsession⟩, accepts_snmpDevice]
    constructor
    · rintro ⟨-, -, _, hnone, -⟩
      cases hnone
    · rintro ⟨params, a, hparams, hsession, -⟩
      exact absurd ⟨params, a, hparams, hsession⟩ hreached

end Accepted

/-! ## A switch -/

def isLan (l : List Char) : Bool := l == "192.0.2.7".toList

def labSwitch : PollerDevice isLan where
  id := "d1"
  ipAddress := "192.0.2.7"
  type := .switch
  pollIntervalSec := 60
  snmpVersion := .v2c
  snmpPort := 161
  snmpTimeoutMs := 3000
  snmpRetries := 1
  snmpCommunity := some "public"
  username := none
  securityLevel := none
  authProtocol := none
  authKey := none
  privProtocol := none
  privKey := none
  contextName := none
  isIp_ipAddress := rfl

def bigInt : Value → Option Int
  | .number n => some n
  | _ => some 0

def inOrder : MapOrder := ⟨id, List.Perm.refl⟩

def noon : Agent.Instant := Agent.noon 0

/-- One port, with 3 errors. -/
def switchAnswers : Answers where
  latency := 2000000
  system := [⟨oidSysDescr, .value, .octets [83, 119]⟩, ⟨oidSysUpTime, .value, .number 4200⟩,
    ⟨oidSysName, .value, .octets [115, 119, 49]⟩]
  ifTable := [⟨".1.3.6.1.2.1.2.2.1.2.1", .value, .octets [103, 105, 49]⟩,
    ⟨".1.3.6.1.2.1.2.2.1.5.1", .value, .number 1000000000⟩, ⟨".1.3.6.1.2.1.2.2.1.8.1", .value, .number 1⟩,
    ⟨".1.3.6.1.2.1.2.2.1.14.1", .value, .number 3⟩]
  ifXTable := []
  fcsErrors := []

/-- A switch that does not answer: its entry is not taken. -/
theorem unreachable_rejected :
    ¬ (snmpDeviceSchema isLan).accepts
      (some (poll .exact bigInt inOrder (fun _ => .connectFailed) (pollerConfig labSwitch) noon
        fun _ => none).1.json) = true := by
  have hsilent : ∀ params a, buildParams (pollerConfig labSwitch) = .ok params → Session.connectFailed ≠ .answered a := by
    intro params a _
    exact Session.noConfusion
  rw [poll_failed noon _ hsilent, accepts_snmpDevice]
  rintro ⟨-, -, _, hnone, -⟩
  cases hnone

/-- A switch that answers: its entry is taken. -/
theorem switch_accepted : (snmpDeviceSchema isLan).accepts
    (some (poll .exact bigInt inOrder (fun _ => .answered switchAnswers) (pollerConfig labSwitch) noon
      fun _ => none).1.json) = true := by
  have hindices : switchAnswers.indices = [1] := by decide
  refine (poll_accepted_iff labSwitch _ noon _).mpr ⟨_, switchAnswers, rfl, rfl, by decide, by rw [hindices]; decide, ?_⟩
  rw [hindices]
  intro index hindex
  rw [List.mem_singleton.mp hindex]
  exact ⟨by decide, by decide, by decide, by decide, by decide, by decide, by decide, by decide⟩

end IkelyaneMonitor.Telemetry
