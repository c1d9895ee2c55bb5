import IkelyaneMonitor.Agent.Sample
import IkelyaneMonitor.Replay.Upsert

/-!
# Polling network equipment (`agent/internal/snmp`)

* `buildParams` : the session of a device, or what is wrong with its credentials;
* `pollInterfaces` : the three walks, row by row, and `toInterface`, the rates since the previous poll;
* `poll` : one device, whatever becomes of the session.

What the SNMP library does is a parameter: the outcome of a session, with the variables of the answer and of each walk down to
where it ends or breaks off, and the number in a value. The order in which a map is gone through is a parameter as well.
-/

namespace IkelyaneMonitor.Agent.Snmp
open Wire Replay

/-! ## The session -/

inductive AuthProtocol where
  | md5 | sha | sha224 | sha256 | sha384 | sha512
  deriving DecidableEq, Repr

inductive PrivProtocol where
  | des | aes | aes192 | aes256
  deriving DecidableEq, Repr

inductive SecurityLevel where
  | noAuthNoPriv | authNoPriv | authPriv
  deriving DecidableEq, Repr

def authProtocols : List (String × AuthProtocol) :=
  [("MD5", .md5), ("SHA", .sha), ("SHA224", .sha224), ("SHA256", .sha256), ("SHA384", .sha384), ("SHA512", .sha512)]

def privProtocols : List (String × PrivProtocol) :=
  [("DES", .des), ("AES", .aes), ("AES192", .aes192), ("AES256", .aes256)]

def securityLevels : List (String × SecurityLevel) :=
  [("NO_AUTH_NO_PRIV", .noAuthNoPriv), ("AUTH_NO_PRIV", .authNoPriv), ("AUTH_PRIV", .authPriv)]

structure SnmpV3 where
  username : String
  securityLevel : String
  authProtocol : String
  authKey : String
  privProtocol : String
  privKey : String
  contextName : String
  deriving DecidableEq, Repr

structure SnmpSettings where
  version : String
  port : Int
  timeoutMs : Int
  retries : Int
  community : String
  v3 : Option SnmpV3
  deriving DecidableEq, Repr

structure Device where
  id : String
  ipAddress : String
  type : String
  pollIntervalSec : Int
  snmp : SnmpSettings
  deriving DecidableEq, Repr

/-- `UsmSecurityParameters`. -/
structure Usm where
  userName : String
  auth : Option (AuthProtocol × String)
  priv : Option (PrivProtocol × String)
  deriving DecidableEq, Repr

inductive Credentials where
  | v1 (community : String)
  | v2c (community : String)
  | v3 (msgFlags : SecurityLevel) (usm : Usm) (contextName : String)
  deriving DecidableEq, Repr

structure Params where
  target : String
  port : Nat
  /-- Nanoseconds. -/
  timeout : Int
  retries : Int
  credentials : Credentials
  deriving DecidableEq, Repr

inductive ParamsError where
  | noV3Credentials
  | securityLevel (got : String)
  | authProtocol (got : String)
  | privProtocol (got : String)
  | version (got : String)
  deriving DecidableEq, Repr

def usmCredentials (v3 : SnmpV3) : Except ParamsError Credentials := do
  let some msgFlags := securityLevels.lookup v3.securityLevel | throw (.securityLevel v3.securityLevel)
  let auth ←
    if msgFlags = .authNoPriv ∨ msgFlags = .authPriv then
      match authProtocols.lookup v3.authProtocol with
      | none => throw (.authProtocol v3.authProtocol)
      | some proto => pure (some (proto, v3.authKey))
    else pure none
  let priv ←
    if msgFlags = .authPriv then
      match privProtocols.lookup v3.privProtocol with
      | none => throw (.privProtocol v3.privProtocol)
      | some proto => pure (some (proto, v3.privKey))
    else pure none
  return .v3 msgFlags ⟨v3.username, auth, priv⟩ v3.contextName

def credentials (snmp : SnmpSettings) : Except ParamsError Credentials :=
  match snmp.version with
  | "v1" => .ok (.v1 snmp.community)
  | "v2c" => .ok (.v2c snmp.community)
  | "v3" =>
      match snmp.v3 with
      | none => .error .noV3Credentials
      | some v3 => usmCredentials v3
  | version => .error (.version version)

/-- The port is cut to 16 bits, the timeout to the 64 of a duration. -/
def buildParams (device : Device) : Except ParamsError Params := do
  let creds ← credentials device.snmp
  return {
    target := device.ipAddress
    port := (device.snmp.port % 2 ^ 16).toNat
    timeout := (device.snmp.timeoutMs * 10 ^ 6).bmod (2 ^ 64)
    retries := device.snmp.retries
    credentials := creds }

/-! ## Variables -/

/-- The value of a variable by its Go type: `[]byte`, `string`, one of the integers, or another. -/
inductive Value where
  | octets (bytes : List UInt8)
  | text (bytes : List UInt8)
  | number (n : Int)
  | other
  deriving DecidableEq, Repr

/-- The types that the agent tells apart. -/
inductive PduType where
  | noSuchObject | noSuchInstance | endOfMibView | value
  deriving DecidableEq, Repr

structure Pdu where
  name : String
  type : PduType
  value : Value
  deriving DecidableEq, Repr

/-- What a device answers, from the time that its answer took to the variables of each walk. -/
structure Answers where
  /-- Nanoseconds. -/
  latency : Nat
  system : List Pdu
  ifTable : List Pdu
  ifXTable : List Pdu
  fcsErrors : List Pdu
  deriving DecidableEq, Repr

inductive Session where
  | connectFailed
  | getFailed
  | answered (answers : Answers)
  deriving DecidableEq, Repr

def pduString (pdu : Pdu) : List UInt8 :=
  match pdu.value with
  | .octets bytes => bytes
  | .text bytes => bytes
  | _ => []

/-- `gosnmp.ToBigInt` gives the number; what is not there or not a `uint64` counts as zero. -/
def pduUint (toBigInt : Value → Option Int) (pdu : Pdu) : Nat :=
  match pdu.type with
  | .noSuchObject | .noSuchInstance | .endOfMibView => 0
  | .value =>
      match toBigInt pdu.value with
      | none => 0
      | some n => if 0 ≤ n ∧ n < 2 ^ 64 then n.toNat else 0

def truncate (s : List UInt8) (max : Nat) : List UInt8 := s.take max

/-! ## Object identifiers -/

def oidSysDescr : String := ".1.3.6.1.2.1.1.1.0"
def oidSysUpTime : String := ".1.3.6.1.2.1.1.3.0"
def oidSysName : String := ".1.3.6.1.2.1.1.5.0"

def oidIfTable : String := ".1.3.6.1.2.1.2.2.1"
def colIfDescr : Int := 2
def colIfSpeed : Int := 5
def colIfAdminStatus : Int := 7
def colIfOperStatus : Int := 8
def colIfInOctets : Int := 10
def colIfInDiscards : Int := 13
def colIfInErrors : Int := 14
def colIfOutOctets : Int := 16
def colIfOutDiscards : Int := 19
def colIfOutErrors : Int := 20

def oidIfXTable : String := ".1.3.6.1.2.1.31.1.1.1"
def colIfName : Int := 1
def colIfHCInOctets : Int := 6
def colIfHCOutOctets : Int := 10
def colIfHighSpeed : Int := 15
def colIfAlias : Int := 18

def oidDot3StatsFCSErrors : String := ".1.3.6.1.2.1.10.7.2.1.3"

/-- What follows `base` and a dot. -/
def below (oid base : String) : Option (List Char) :=
  if (base.toList ++ ['.']).isPrefixOf oid.toList then some (oid.toList.drop (base.toList.length + 1)) else none

def tableIndex (oid base : String) : Option (Int × Int) := do
  let rest ← below oid base
  let (column, index) ← cut '.' rest
  return (← parseInt64 column, ← parseInt64 index)

def singleIndex (oid base : String) : Option Int := do
  parseInt64 (← below oid base)

example : tableIndex ".1.3.6.1.2.1.2.2.1.10.5" oidIfTable = some (10, 5) := by decide

/-! ## The rows -/

structure IfRow where
  index : Int
  descr : List UInt8 := []
  name : List UInt8 := []
  «alias» : List UInt8 := []
  speed : Nat := 0
  highSpeed : Nat := 0
  adminStatus : Int := 0
  operStatus : Int := 0
  inOctets : Nat := 0
  outOctets : Nat := 0
  hcInOctets : Nat := 0
  hcOutOctets : Nat := 0
  inErrors : Nat := 0
  outErrors : Nat := 0
  inDiscards : Nat := 0
  outDiscards : Nat := 0
  crcErrors : Nat := 0
  hasHCCounters : Bool := false
  deriving DecidableEq, Repr

/-- A variable in a table: its column, its row and itself. -/
structure Cell where
  column : Int
  index : Int
  pdu : Pdu
  deriving DecidableEq, Repr

/-- The variables of a walk that are in the table; the others are passed over. -/
def cells (base : String) (walk : List Pdu) : List Cell :=
  walk.filterMap fun pdu => (tableIndex pdu.name base).map fun place => ⟨place.1, place.2, pdu⟩

section Rows
variable (toBigInt : Value → Option Int)

/-- `int(pduUint(pdu))`. -/
def pduInt (pdu : Pdu) : Int := (pduUint toBigInt pdu : Int).bmod (2 ^ 64)

/-- The callback of the walk over `ifTable`. -/
def setIfTable (c : Cell) (r : IfRow) : IfRow :=
  if c.column = colIfDescr then { r with descr := pduString c.pdu }
  else if c.column = colIfSpeed then { r with speed := pduUint toBigInt c.pdu }
  else if c.column = colIfAdminStatus then { r with adminStatus := pduInt toBigInt c.pdu }
  else if c.column = colIfOperStatus then { r with operStatus := pduInt toBigInt c.pdu }
  else if c.column = colIfInOctets then { r with inOctets := pduUint toBigInt c.pdu }
  else if c.column = colIfOutOctets then { r with outOctets := pduUint toBigInt c.pdu }
  else if c.column = colIfInErrors then { r with inErrors := pduUint toBigInt c.pdu }
  else if c.column = colIfOutErrors then { r with outErrors := pduUint toBigInt c.pdu }
  else if c.column = colIfInDiscards then { r with inDiscards := pduUint toBigInt c.pdu }
  else if c.column = colIfOutDiscards then { r with outDiscards := pduUint toBigInt c.pdu }
  else r

/-- The callback of the walk over `ifXTable`. -/
def setIfXTable (c : Cell) (r : IfRow) : IfRow :=
  if c.column = colIfName then { r with name := pduString c.pdu }
  else if c.column = colIfAlias then { r with «alias» := pduString c.pdu }
  else if c.column = colIfHighSpeed then { r with highSpeed := pduUint toBigInt c.pdu }
  else if c.column = colIfHCInOctets then { r with hcInOctets := pduUint toBigInt c.pdu, hasHCCounters := true }
  else if c.column = colIfHCOutOctets then { r with hcOutOctets := pduUint toBigInt c.pdu, hasHCCounters := true }
  else r

/-- The callback of the walk over the frame check sequence errors, for rows that are there. -/
def setFcsErrors (rows : List IfRow) (pdu : Pdu) : List IfRow :=
  match singleIndex pdu.name oidDot3StatsFCSErrors with
  | none => rows
  | some idx => rows.map fun r => if r.index = idx then { r with crcErrors := pduUint toBigInt pdu } else r

/-- The map of the rows after the three walks, in the order in which they were first seen. -/
def ifRows (a : Answers) : List IfRow :=
  let rows := upsertAll IfRow.index (fun idx => { index := idx }) Cell.index (setIfTable toBigInt)
    (cells oidIfTable a.ifTable) []
  let rows := upsertAll IfRow.index (fun idx => { index := idx }) Cell.index (setIfXTable toBigInt)
    (cells oidIfXTable a.ifXTable) rows
  a.fcsErrors.foldl (setFcsErrors toBigInt) rows

end Rows

/-! ## Interfaces -/

/-- The previous poll's counters of an interface. -/
structure IfState where
  nanos : Int
  inOctets : Nat
  outOctets : Nat
  inErrors : Nat
  outErrors : Nat
  crcErrors : Nat
  deriving DecidableEq, Repr

/-- The counters of every interface that was polled, by the text of its key. -/
abbrev Prev : Type := String → Option IfState

def Prev.swap (prev : Prev) (key : String) (next : IfState) : Option IfState × Prev :=
  (prev key, fun k => if k = key then some next else prev k)

def ifStatusString (v : Int) : String :=
  if v = 1 then "up" else if v = 2 then "down" else if v = 3 then "testing" else "unknown"

def clampPercent (v : ℚ) : ℚ := if v < 0 then 0 else if 100 < v then 100 else v

structure SnmpInterface where
  ifIndex : Int
  name : List UInt8
  «alias» : List UInt8
  speedMbps : Option Nat := none
  adminStatus : String
  operStatus : String
  inBps : ℚ := 0
  outBps : ℚ := 0
  utilizationPercent : Option ℚ := none
  packetLossPercent : Option ℚ := none
  inErrors : Option Nat := none
  outErrors : Option Nat := none
  crcErrors : Option Nat := none
  inDiscards : Option Nat := none
  outDiscards : Option Nat := none
  errorsPerSec : Option ℚ := none
  crcErrorsPerSec : Option ℚ := none
  deriving DecidableEq

/-- `ifHighSpeed` is in millions of bits per second; the product is cut to 64 bits. -/
def speedBps (highSpeed speed : Nat) : Nat :=
  if highSpeed * 1000000 % 2 ^ 64 = 0 then speed else highSpeed * 1000000 % 2 ^ 64

/-- The first that is not empty of `ifName`, `ifDescr` and a name made of the index. -/
def displayName (name descr : List UInt8) (index : Int) : List UInt8 :=
  if name ≠ [] then name else if descr ≠ [] then descr else utf8 ("if" ++ index.repr).toList

section Rates
variable (fl : Rounding)

def rate (cur prev : Nat) (seconds : ℚ) : ℚ :=
  if seconds ≤ 0 ∨ cur < prev then 0 else perSeconds fl (cur - prev) seconds

/-- What does not depend on an earlier poll. -/
def IfRow.gauges (r : IfRow) : SnmpInterface where
  ifIndex := r.index
  name := truncate (displayName r.name r.descr r.index) 255
  «alias» := truncate r.alias 255
  speedMbps := if 0 < speedBps r.highSpeed r.speed then some (speedBps r.highSpeed r.speed / 1000000) else none
  adminStatus := ifStatusString r.adminStatus
  operStatus := ifStatusString r.operStatus
  inErrors := some r.inErrors
  outErrors := some r.outErrors
  -- a port that the walk never reached does not have zero errors
  crcErrors := if 0 < r.crcErrors ∨ r.hasHCCounters then some r.crcErrors else none
  inDiscards := some r.inDiscards
  outDiscards := some r.outDiscards

/-- `inOctets`, `outOctets`: the counters of 64 bits where there are some. -/
def IfRow.octets (r : IfRow) : Nat × Nat :=
  if r.hasHCCounters then (r.hcInOctets, r.hcOutOctets) else (r.inOctets, r.outOctets)

def IfRow.withRates (r : IfRow) (prev : IfState) (seconds : ℚ) : SnmpInterface :=
  let inBps := fl.round (rate fl r.octets.1 prev.inOctets seconds * 8)
  let outBps := fl.round (rate fl r.octets.2 prev.outOctets seconds * 8)
  let speed := speedBps r.highSpeed r.speed
  { r.gauges with
    inBps := inBps
    outBps := outBps
    errorsPerSec := some (fl.round (rate fl r.inErrors prev.inErrors seconds + rate fl r.outErrors prev.outErrors seconds))
    crcErrorsPerSec := r.gauges.crcErrors.map fun _ => rate fl r.crcErrors prev.crcErrors seconds
    utilizationPercent :=
      if 0 < speed then
        some (clampPercent (fl.round (fl.round (fl.round (fl.round (inBps + outBps) / 2) / fl.round speed) * 100)))
      else none }

def interfaceKey (deviceIP : String) (index : Int) : String := deviceIP ++ "|" ++ index.repr

def toInterface (deviceIP : String) (r : IfRow) (now : Instant) (prev : Prev) : SnmpInterface × Prev :=
  match prev.swap (interfaceKey deviceIP r.index)
    ⟨now.nanos, r.octets.1, r.octets.2, r.inErrors, r.outErrors, r.crcErrors⟩ with
  | (none, prev) => (r.gauges, prev)
  | (some before, prev) =>
      let seconds := floatSeconds fl (now.nanos - before.nanos)
      (if 0 < seconds then r.withRates fl before seconds else r.gauges, prev)

def toInterfaces (deviceIP : String) (now : Instant) : List IfRow → Prev → List SnmpInterface × Prev
  | [], prev => ([], prev)
  | r :: rows, prev =>
      let first := toInterface fl deviceIP r now prev
      let rest := toInterfaces deviceIP now rows first.2
      (first.1 :: rest.1, rest.2)

end Rates

/-! ## One device -/

structure SnmpDeviceInfo where
  ipAddress : String
  name : List UInt8 := []
  type : String
  sysName : List UInt8 := []
  sysDescr : List UInt8 := []
  uptimeSeconds : Option ℚ := none
  snmpVersion : String
  reachable : Bool
  latencyMs : Option ℚ := none
  deriving DecidableEq

structure SnmpDevice where
  collectedAt : List UInt8
  device : SnmpDeviceInfo
  /-- `none` is the nil slice. -/
  interfaces : Option (List SnmpInterface)
  deriving DecidableEq

/-- An order in which the rows of a map are gone through. -/
structure MapOrder where
  visit : List IfRow → List IfRow
  perm : ∀ rows, (visit rows).Perm rows

section Poll
variable (fl : Rounding) (toBigInt : Value → Option Int) (order : MapOrder)

/-- The loop over the variables of the first answer. -/
def setSystem (info : SnmpDeviceInfo) (pdu : Pdu) : SnmpDeviceInfo :=
  if pdu.name = oidSysDescr then { info with sysDescr := truncate (pduString pdu) 2000 }
  else if pdu.name = oidSysName then
    { info with name := truncate (pduString pdu) 255, sysName := truncate (pduString pdu) 255 }
  else if pdu.name = oidSysUpTime then
    -- hundredths of a second
    { info with uptimeSeconds := some (fl.round (fl.round (pduUint toBigInt pdu) / 100)) }
  else info

/-- `info`, before the device is asked. -/
def unreachable (device : Device) : SnmpDeviceInfo where
  ipAddress := device.ipAddress
  type := device.type
  snmpVersion := device.snmp.version
  reachable := false

def reachable (device : Device) (a : Answers) : SnmpDeviceInfo :=
  a.system.foldl (setSystem fl toBigInt)
    { unreachable device with reachable := true, latencyMs := some (fl.round (fl.round a.latency / 10 ^ 6)) }

def pollInterfaces (deviceIP : String) (now : Instant) (a : Answers) (prev : Prev) : List SnmpInterface × Prev :=
  toInterfaces fl deviceIP now (order.visit (ifRows toBigInt a)) prev

def poll (gosnmp : Params → Session) (device : Device) (now : Instant) (prev : Prev) : SnmpDevice × Prev :=
  let failed : SnmpDevice := ⟨now.format, unreachable device, none⟩
  match buildParams device with
  | .error _ => (failed, prev)
  | .ok params =>
      match gosnmp params with
      | .connectFailed => (failed, prev)
      | .getFailed => (failed, prev)
      | .answered a =>
          let (interfaces, prev) := pollInterfaces fl toBigInt order device.ipAddress now a prev
          (⟨now.format, reachable fl toBigInt device a, some interfaces⟩, prev)

end Poll

/-! ## As JSON -/

def SnmpInterface.fields (i : SnmpInterface) : List (String × Option (Json (List UInt8) ℚ)) :=
  [("ifIndex", some (.num i.ifIndex)),
    ("name", some (.str i.name)),
    ("alias", textField i.alias),
    ("speedMbps", natField i.speedMbps),
    ("adminStatus", textField (utf8 i.adminStatus.toList)),
    ("operStatus", some (.str (utf8 i.operStatus.toList))),
    ("inBps", some (.num i.inBps)),
    ("outBps", some (.num i.outBps)),
    ("utilizationPercent", numField i.utilizationPercent),
    ("packetLossPercent", numField i.packetLossPercent),
    ("inErrors", natField i.inErrors),
    ("outErrors", natField i.outErrors),
    ("crcErrors", natField i.crcErrors),
    ("inDiscards", natField i.inDiscards),
    ("outDiscards", natField i.outDiscards),
    ("errorsPerSec", numField i.errorsPerSec),
    ("crcErrorsPerSec", numField i.crcErrorsPerSec)]

def SnmpDeviceInfo.fields (d : SnmpDeviceInfo) : List (String × Option (Json (List UInt8) ℚ)) :=
  [("ipAddress", some (.str (utf8 d.ipAddress.toList))),
    ("name", textField d.name),
    ("type", textField (utf8 d.type.toList)),
    ("sysName", textField d.sysName),
    ("sysDescr", textField d.sysDescr),
    ("uptimeSeconds", numField d.uptimeSeconds),
    ("snmpVersion", textField (utf8 d.snmpVersion.toList)),
    ("reachable", some (.bool d.reachable)),
    ("latencyMs", numField d.latencyMs)]

/-- A nil slice is written as `null`. -/
def SnmpDevice.fields (d : SnmpDevice) : List (String × Option (Json (List UInt8) ℚ)) :=
  [("collectedAt", some (.str d.collectedAt)),
    ("device", some (Json.record d.device.fields)),
    ("interfaces", some (d.interfaces.elim .null fun ifaces => .arr (ifaces.map fun i => Json.record i.fields)))]

/-- The entry as the server reads it. -/
def SnmpDevice.json (d : SnmpDevice) : Json (List Char) ℚ := (Json.record d.fields).map decode

end IkelyaneMonitor.Agent.Snmp
