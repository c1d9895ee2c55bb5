import IkelyaneMonitor.Agent.Collect
import IkelyaneMonitor.Telemetry.SnmpDevices

/-!
# Host samples on the wire

The collector keeps percentages, rates and the number of addresses in their ranges; nothing else is cut to what the schema
takes.

* `Fits` : a text of a length that the schema takes;
* `accepts_inventory`, `accepts_disk`, ... : what each part of a sample has to be for the schema;
* `hostIPAddresses_eq` : the first 32 addresses;
* `OrdinaryHost`, `OrdinaryReadings` : what gopsutil has to return for the sample to be taken;
* `sample_accepted_iff` : a sample is taken exactly then; `many_sensors_rejected` : a machine with 65 sensors.
-/

namespace IkelyaneMonitor.Telemetry
open Wire Agent.Collect
open Agent.Snmp (rate clampPercent)

/-! ## Fields -/

/-- Trimmed, the text has this many UTF-16 units. -/
def Fits (low high : Nat) (bytes : List UInt8) : Prop :=
  low ≤ units (trimWith Text.isSpace (decode bytes)) ∧ units (trimWith Text.isSpace (decode bytes)) ≤ high

section Fields
variable {inner item : Schema ℚ} {max : Nat}

theorem accepts_fits {low high : Nat} {l : List UInt8} :
    (trimmed low high).accepts (some (.str (decode l))) = true ↔ Fits low high l := accepts_trimmed

theorem accepts_countField {n : Int} :
    (Schema.optional inner).accepts ((countField n).map (Json.map decode)) = true ↔
      (n ≠ 0 → inner.accepts (some (.num (n : ℚ))) = true) := by
  rw [Schema.accepts_optional_iff, countField]
  by_cases h : n = 0
  · simp [h]
  · simp [h, Json.map]

theorem accepts_listField {items : List (Json (List UInt8) ℚ)} :
    (Schema.optional (.array max item)).accepts ((Agent.listField items).map (Json.map decode)) = true ↔
      items.length ≤ max ∧ ∀ j ∈ items, item.accepts (some (j.map decode)) = true := by
  rw [Schema.accepts_optional_iff, Agent.listField]
  by_cases h : items = []
  · simp [h]
  · rw [if_neg h, Option.map_some, Json.map, Json.mapItems_eq]
    simp [Schema.accepts_arr]

theorem accepts_recordField {α : Type} {part : Option α} {write : α → Json (List UInt8) ℚ} :
    (Schema.optional inner).accepts ((part.map write).map (Json.map decode)) = true ↔
      ∀ a ∈ part, inner.accepts (some ((write a).map decode)) = true := by
  rw [Schema.accepts_optional_iff]
  cases part <;> simp

theorem accepts_bytes {n : Nat} : bytes.accepts (some (.num (n : ℚ))) = true ↔ n ≤ maxSafeInteger := accepts_counter

/-- A count that is left out when it is zero. -/
theorem accepts_count {high n : Int} :
    (n ≠ 0 → (whole 1 high).accepts (some (.num (n : ℚ))) = true) ↔ n = 0 ∨ 1 ≤ n ∧ n ≤ high := by
  rw [accepts_whole]
  exact or_iff_not_imp_left.symm

theorem accepts_size {n : Nat} :
    (((n : Int)) ≠ 0 → bytes.accepts (some (.num (((n : Int)) : ℚ))) = true) ↔ n ≤ maxSafeInteger := by
  rw [Int.cast_natCast, accepts_bytes]
  constructor
  · intro h
    by_cases hn : n = 0
    · omega
    · exact h (by omega)
  · exact fun h _ => h

end Fields

/-! ## The parts of a sample -/

section Parts
variable {isIp : List Char → Bool}

theorem accepts_inventory (inv : Inventory) :
    (hostInventorySchema isIp).accepts (some ((Json.record inv.fields).map decode)) = true ↔
      (oneOf osFamilies).accepts (some (.str (decode (utf8 inv.osFamily.toList)))) = true ∧
      (inv.osName ≠ [] → Fits 1 255 inv.osName) ∧
      (inv.osVersion ≠ [] → Fits 1 255 inv.osVersion) ∧
      (inv.kernelVersion ≠ [] → Fits 1 255 inv.kernelVersion) ∧
      (inv.arch ≠ [] → Fits 1 32 inv.arch) ∧
      (inv.cpuModel ≠ [] → Fits 1 255 inv.cpuModel) ∧
      (inv.cpuCores = 0 ∨ 1 ≤ inv.cpuCores ∧ inv.cpuCores ≤ 4096) ∧
      (inv.cpuThreads = 0 ∨ 1 ≤ inv.cpuThreads ∧ inv.cpuThreads ≤ 8192) ∧
      (inv.cpuFrequencyMhz = 0 ∨ 1 ≤ inv.cpuFrequencyMhz ∧ inv.cpuFrequencyMhz ≤ 20000) ∧
      inv.memoryTotalBytes ≤ maxSafeInteger ∧
      inv.diskTotalBytes ≤ maxSafeInteger ∧
      (inv.ipAddresses.length ≤ 32 ∧ ∀ ip ∈ inv.ipAddresses, isIp (decode ip) = true) ∧
      (inv.macAddress ≠ [] → Fits 0 64 inv.macAddress) ∧
      (inv.virtualization ≠ [] → Fits 0 64 inv.virtualization) ∧
      (inv.agentVersion ≠ [] → Fits 0 64 inv.agentVersion) := by
  rw [Json.map_record, hostInventorySchema, Schema.accepts_record (by simp [Inventory.fields])]
  simp only [List.forall_mem_cons, List.not_mem_nil, false_implies, implies_true, and_true, Inventory.fields, List.map_cons,
    List.map_nil, List.lookup_cons, List.lookup_nil, String.reduceBEq, Option.join_some, Option.join_none, Option.map_some,
    Json.map, shortText, accepts_textField, accepts_countField, accepts_listField, accepts_fits, accepts_count, accepts_size,
    Schema.accepts_optional_none, true_and, List.length_map, List.forall_mem_map, Schema.accepts_str]

theorem accepts_cpu (cpu : CPU) :
    cpuSchema.accepts (some ((Json.record cpu.fields).map decode)) = true ↔
      (0 ≤ cpu.usagePercent ∧ cpu.usagePercent ≤ 100) ∧ ∀ avg ∈ cpu.loadAverage1m, 0 ≤ avg := by
  rw [Json.map_record, cpuSchema, Schema.accepts_record (by simp [CPU.fields])]
  simp only [List.forall_mem_cons, List.not_mem_nil, false_implies, implies_true, and_true, CPU.fields, List.map_cons,
    List.map_nil, List.lookup_cons, String.reduceBEq, Option.join_some, Option.map_some, Json.map, percent, accepts_within,
    accepts_numField, accepts_nonNegative]

theorem accepts_memory (memory : Memory) :
    memorySchema.accepts (some ((Json.record memory.fields).map decode)) = true ↔
      (∀ q ∈ memory.usedPercent, 0 ≤ q ∧ q ≤ 100) ∧ (∀ n ∈ memory.usedBytes, n ≤ maxSafeInteger) ∧
      ∀ q ∈ memory.swapUsedPercent, 0 ≤ q ∧ q ≤ 100 := by
  rw [Json.map_record, memorySchema, Schema.accepts_record (by simp [Memory.fields])]
  simp only [List.forall_mem_cons, List.not_mem_nil, false_implies, implies_true, and_true, Memory.fields, List.map_cons,
    List.map_nil, List.lookup_cons, String.reduceBEq, Option.join_some, percent, accepts_within, accepts_numField,
    accepts_natField, accepts_bytes]

theorem accepts_disk (disk : Disk) :
    diskSchema.accepts (some ((Json.record disk.fields).map decode)) = true ↔
      Fits 1 255 disk.mount ∧ (disk.device ≠ [] → Fits 1 128 disk.device) ∧
      (∀ q ∈ disk.usedPercent, 0 ≤ q ∧ q ≤ 100) ∧ (∀ n ∈ disk.usedBytes, n ≤ maxSafeInteger) ∧
      (∀ q ∈ disk.readIops, 0 ≤ q) ∧ (∀ q ∈ disk.writeIops, 0 ≤ q) ∧ (∀ q ∈ disk.readBps, 0 ≤ q) ∧
      ∀ q ∈ disk.writeBps, 0 ≤ q := by
  rw [Json.map_record, diskSchema, Schema.accepts_record (by simp [Disk.fields])]
  simp only [List.forall_mem_cons, List.not_mem_nil, false_implies, implies_true, and_true, Disk.fields, List.map_cons,
    List.map_nil, List.lookup_cons, String.reduceBEq, Option.join_some, Option.map_some, Json.map, percent, accepts_within,
    accepts_textField, accepts_numField, accepts_natField, accepts_bytes, accepts_fits, accepts_nonNegative]

theorem accepts_network (nic : Network) :
    networkSchema.accepts (some ((Json.record nic.fields).map decode)) = true ↔
      Fits 1 128 nic.name ∧ 0 ≤ nic.inBps ∧ 0 ≤ nic.outBps := by
  rw [Json.map_record, networkSchema, Schema.accepts_record (by simp [Network.fields])]
  simp only [List.forall_mem_cons, List.not_mem_nil, false_implies, implies_true, and_true, Network.fields, List.map_cons,
    List.map_nil, List.lookup_cons, String.reduceBEq, Option.join_some, Option.map_some, Json.map, accepts_fits,
    accepts_nonNegative]

theorem accepts_temperature (t : Agent.Collect.Temperature) :
    temperatureSchema.accepts (some ((Json.record t.fields).map decode)) = true ↔
      Fits 1 128 t.sensor ∧ -100 ≤ t.celsius ∧ t.celsius ≤ 300 := by
  rw [Json.map_record, temperatureSchema, Schema.accepts_record (by simp [Agent.Collect.Temperature.fields])]
  simp only [List.forall_mem_cons, List.not_mem_nil, false_implies, implies_true, and_true, Agent.Collect.Temperature.fields,
    List.map_cons, List.map_nil, List.lookup_cons, String.reduceBEq, Option.join_some, Option.map_some, Json.map,
    accepts_fits, accepts_within]

theorem accepts_system (sys : System) :
    (systemMetricsSchema isIp).accepts (some sys.json) = true ↔
      timestamp.accepts (some (.str (decode sys.collectedAt))) = true ∧
      (∀ inv ∈ sys.inventory, (hostInventorySchema isIp).accepts (some ((Json.record inv.fields).map decode)) = true) ∧
      (∀ cpu ∈ sys.cpu, cpuSchema.accepts (some ((Json.record cpu.fields).map decode)) = true) ∧
      (∀ memory ∈ sys.memory, memorySchema.accepts (some ((Json.record memory.fields).map decode)) = true) ∧
      (sys.disks.length ≤ 64 ∧
        ∀ disk ∈ sys.disks, diskSchema.accepts (some ((Json.record disk.fields).map decode)) = true) ∧
      (sys.network.length ≤ 64 ∧
        ∀ nic ∈ sys.network, networkSchema.accepts (some ((Json.record nic.fields).map decode)) = true) ∧
      (∀ n ∈ sys.processCount, n ≤ 10000000) ∧
      (∀ q ∈ sys.uptimeSeconds, 0 ≤ q) ∧
      (sys.temperatures.length ≤ 64 ∧
        ∀ t ∈ sys.temperatures, temperatureSchema.accepts (some ((Json.record t.fields).map decode)) = true) ∧
      ∀ q ∈ sys.powerWatts, 0 ≤ q ∧ q ≤ 1000000 := by
  have hcount : ∀ n : Nat, (whole 0 10000000).accepts (some (.num (n : ℚ))) = true ↔ n ≤ 10000000 := by
    intro n
    have h := @accepts_whole 0 10000000 n
    rw [Int.cast_natCast] at h
    rw [h]
    omega
  rw [System.json, Json.map_record, systemMetricsSchema, Schema.accepts_record (by simp [System.fields])]
  simp only [List.forall_mem_cons, List.not_mem_nil, false_implies, implies_true, and_true, System.fields, List.map_cons,
    List.map_nil, List.lookup_cons, String.reduceBEq, Option.join_some, Option.map_some, Json.map, accepts_recordField,
    accepts_listField, accepts_natField, accepts_numField, accepts_nonNegative, accepts_within, hcount, List.length_map,
    List.forall_mem_map]

end Parts

/-! ## What the collector keeps in range -/

/-- The addresses of the interfaces that are reported. -/
def addresses (ifaces : List InterfaceStat) : List (List UInt8) :=
  (ifaces.filter fun iface => !(isLoopbackName iface.name || isVirtualInterfaceName iface.name)).flatMap fun iface =>
    (iface.addrs.map withoutLength).filter fun ip => ip ≠ []

theorem addAddresses_eq (toAdd : List (List UInt8)) {addrs : List (List UInt8)} (h : addrs.length < 32) :
    addAddresses toAdd addrs =
      if (addrs ++ (toAdd.map withoutLength).filter fun ip => ip ≠ []).length < 32 then
        (addrs ++ (toAdd.map withoutLength).filter fun ip => ip ≠ [], false)
      else ((addrs ++ (toAdd.map withoutLength).filter fun ip => ip ≠ []).take 32, true) := by
  induction toAdd generalizing addrs with
  | nil => simp [addAddresses, h]
  | cons a toAdd ih =>
      rw [addAddresses, List.map_cons]
      by_cases hempty : withoutLength a = []
      · rw [List.filter_cons_of_neg (by simpa using hempty), if_neg (not_not.mpr hempty), if_neg (by omega), ih h]
      · have hsplit : addrs ++ withoutLength a :: ((toAdd.map withoutLength).filter fun ip => ip ≠ []) =
            (addrs ++ [withoutLength a]) ++ (toAdd.map withoutLength).filter fun ip => ip ≠ [] := by
          rw [List.append_assoc, List.singleton_append]
        rw [List.filter_cons_of_pos (by simpa using hempty), if_pos hempty, hsplit]
        have hlength : (addrs ++ [withoutLength a]).length = addrs.length + 1 := List.length_append
        by_cases hfull : 32 ≤ (addrs ++ [withoutLength a]).length
        · have hexact : (addrs ++ [withoutLength a]).length = 32 := by omega
          rw [if_pos hfull, if_neg (by rw [List.length_append]; omega), List.take_left' hexact]
        · rw [if_neg hfull, ih (by omega)]

theorem addInterfaces_eq (ifaces : List InterfaceStat) {addrs : List (List UInt8)} (h : addrs.length < 32) :
    addInterfaces ifaces addrs = (addrs ++ addresses ifaces).take 32 := by
  induction ifaces generalizing addrs with
  | nil =>
      rw [addInterfaces, addresses, List.filter_nil, List.flatMap_nil, List.append_nil, List.take_of_length_le h.le]
  | cons iface ifaces ih =>
      rw [addInterfaces]
      by_cases hskip : (isLoopbackName iface.name || isVirtualInterfaceName iface.name) = true
      · rw [if_pos hskip, ih h, addresses, addresses, List.filter_cons_of_neg (by simp [hskip])]
      · have hcons : addresses (iface :: ifaces) =
            ((iface.addrs.map withoutLength).filter fun ip => ip ≠ []) ++ addresses ifaces := by
          rw [addresses, List.filter_cons_of_pos (by simpa using hskip), List.flatMap_cons]
          rfl
        rw [if_neg hskip, addAddresses_eq iface.addrs h, hcons, ← List.append_assoc]
        by_cases hfew : (addrs ++ (iface.addrs.map withoutLength).filter fun ip => ip ≠ []).length < 32
        · rw [if_pos hfew]
          exact ih hfew
        · rw [if_neg hfew]
          exact (List.take_append_of_le_length (by omega)).symm

/-- Of all addresses, the first 32 are reported. -/
theorem hostIPAddresses_eq (interfaces : Option (List InterfaceStat)) :
    hostIPAddresses interfaces = (addresses (interfaces.getD [])).take 32 := by
  cases interfaces with
  | none => rfl
  | some ifaces => exact addInterfaces_eq ifaces (by decide)

theorem accepts_osFamily (goos : List UInt8) :
    (oneOf osFamilies).accepts (some (.str (decode (utf8 (osFamily goos).toList)))) = true := by
  rw [decode_utf8]
  refine accepts_oneOf ?_
  unfold osFamily
  split_ifs <;> decide

section Rates
variable {fl : Rounding}

/-- A disk is taken when its names are and its size is, whatever its counters. -/
theorem accepts_diskOf (prev : Option DiskSample) (g : Readings) (p : PartitionStat) (usage : UsageStat) :
    diskSchema.accepts (some ((Json.record (diskOf fl prev g p usage).fields).map decode)) = true ↔
      Fits 1 255 p.mountpoint ∧ (deviceName p.device ≠ [] → Fits 1 128 (deviceName p.device)) ∧
      usage.used ≤ maxSafeInteger := by
  have hpercent : ∀ q ∈ some (clampPercent usage.usedPercent), 0 ≤ q ∧ q ≤ 100 := by
    rintro q ⟨⟩
    exact clampPercent_mem _
  have hrate : ∀ cur before seconds, ∀ q ∈ some (rate fl cur before seconds), 0 ≤ q := by
    rintro cur before seconds q ⟨⟩
    exact rate_nonneg cur before seconds
  have hnone : ∀ q ∈ (none : Option ℚ), 0 ≤ q := fun _ => (nomatch ·)
  have hused : (∀ n ∈ some usage.used, n ≤ maxSafeInteger) ↔ usage.used ≤ maxSafeInteger := by simp
  rw [accepts_disk]
  unfold diskOf
  dsimp only
  split
  · rw [hused]
    exact ⟨fun h => ⟨h.1, h.2.1, h.2.2.2.1⟩, fun h => ⟨h.1, h.2.1, hpercent, h.2.2, hnone, hnone, hnone, hnone⟩⟩
  · rw [hused]
    exact ⟨fun h => ⟨h.1, h.2.1, h.2.2.2.1⟩, fun h => ⟨h.1, h.2.1, hpercent, h.2.2, hrate _ _ _, hrate _ _ _, hrate _ _ _,
      hrate _ _ _⟩⟩

theorem accepts_networkOf (prev : Option NetSample) (now : Agent.Instant) (ctr : NetCounters) :
    networkSchema.accepts (some ((Json.record (networkOf fl prev now ctr).fields).map decode)) = true ↔
      Fits 1 128 ctr.name := by
  have hbits : ∀ cur before seconds, 0 ≤ fl.round (rate fl cur before seconds * 8) :=
    fun cur before seconds => fl.nonneg (mul_nonneg (rate_nonneg cur before seconds) (by norm_num))
  rw [accepts_network]
  unfold networkOf
  split
  · exact and_iff_left ⟨le_refl 0, le_refl 0⟩
  · split
    · exact and_iff_left ⟨hbits _ _ _, hbits _ _ _⟩
    · exact and_iff_left ⟨le_refl 0, le_refl 0⟩

end Rates

/-! ## What the readings have to be -/

/-- What the host has to be for its inventory to be taken. A count or a frequency of zero is left out. -/
structure OrdinaryHost (isIp : List Char → Bool) (int : ℚ → Int) (agentVersion : List UInt8) (g : Readings)
    (hostInfo : HostInfo) :
    Prop where
  osName : hostInfo.platform ≠ [] → Fits 1 255 hostInfo.platform
  osVersion : hostInfo.platformVersion ≠ [] → Fits 1 255 hostInfo.platformVersion
  kernelVersion : hostInfo.kernelVersion ≠ [] → Fits 1 255 hostInfo.kernelVersion
  arch : hostInfo.kernelArch ≠ [] → Fits 1 32 hostInfo.kernelArch
  cpuModel : ∀ info ∈ g.cpuInfo.head?, info.modelName ≠ [] → Fits 1 255 info.modelName
  cpuCores : 0 ≤ g.physicalCount ∧ g.physicalCount ≤ 4096
  cpuThreads : 0 ≤ g.logicalCount ∧ g.logicalCount ≤ 8192
  cpuFrequencyMhz : ∀ info ∈ g.cpuInfo.head?, 0 ≤ int info.mhz ∧ int info.mhz ≤ 20000
  memoryTotalBytes : ∀ vmem ∈ g.totalMemory, vmem.total ≤ maxSafeInteger
  diskTotalBytes : totalBytes (g.partitions.getD []) ≤ maxSafeInteger
  ipAddresses : ∀ ip ∈ (addresses (g.interfaces.getD [])).take 32, isIp (decode ip) = true
  virtualization : hostInfo.virtualizationSystem ≠ [] → Fits 0 64 hostInfo.virtualizationSystem
  agentVersion : agentVersion ≠ [] → Fits 0 64 agentVersion

/-- What is read in a cycle has to be this for the sample to be taken. -/
structure OrdinaryReadings (isIp : List Char → Bool) (int : ℚ → Int) (c : Collector) (g : Readings) : Prop where
  host : c.due g.now = true → ∀ hostInfo ∈ g.hostInfo, OrdinaryHost isIp int c.agentVersion g hostInfo
  loadAverage : ∀ percent rest, g.percents = some (percent :: rest) → ∀ avg ∈ g.loadAverage, 0 ≤ avg
  memory : ∀ vmem ∈ g.virtualMemory, vmem.used ≤ maxSafeInteger
  fewDisks : (mounted (g.partitions.getD [])).length ≤ 64
  disks : ∀ p ∈ mounted (g.partitions.getD []), Fits 1 255 p.1.mountpoint ∧
    (deviceName p.1.device ≠ [] → Fits 1 128 (deviceName p.1.device)) ∧ p.2.used ≤ maxSafeInteger
  fewNics : (reportedNics (g.netCounters.getD [])).length ≤ 64
  nics : ∀ ctr ∈ reportedNics (g.netCounters.getD []), Fits 1 128 ctr.name
  fewProcesses : ∀ n ∈ g.pids, n ≤ 10000000
  fewSensors : (reportedSensors (g.temperatures.getD [])).length ≤ 64
  sensors : ∀ t ∈ reportedSensors (g.temperatures.getD []), Fits 1 128 t.sensorKey ∧ -100 ≤ t.temperature ∧
    t.temperature ≤ 300

section Samples
variable {isIp : List Char → Bool} (fl : Rounding) (int : ℚ → Int)

/-- The inventory with the disks counted in. -/
def fullInventory (c : Collector) (g : Readings) : Option Inventory :=
  (inventory int c g).map fun inv => { inv with diskTotalBytes := totalBytes (g.partitions.getD []) }

theorem collect_sample (c : Collector) (g : Readings) :
    (collect fl int c g).1 = {
      collectedAt := g.now.format
      inventory := fullInventory int c g
      cpu := collectCPU g
      memory := collectMemory g
      disks := (mounted (g.partitions.getD [])).map fun p => diskOf fl c.prevDisk g p.1 p.2
      network := (reportedNics (g.netCounters.getD [])).map (networkOf fl c.prevNet g.now)
      processCount := g.pids
      uptimeSeconds := g.uptime.map fun hostInfo => fl.round hostInfo.uptime
      temperatures := (reportedSensors (g.temperatures.getD [])).map fun t => ⟨t.sensorKey, t.temperature⟩
      powerWatts := none } := by
  have hzero : ∀ inv ∈ inventory int c g, inv.diskTotalBytes = 0 := by
    intro inv hinv
    unfold inventory at hinv
    split at hinv
    · obtain ⟨hostInfo, -, rfl⟩ := Option.map_eq_some_iff.mp hinv
      rfl
    · cases hinv
  have hinventory : ∀ total, total = totalBytes (g.partitions.getD []) →
      (if 0 < total then (inventory int c g).map fun inv => { inv with diskTotalBytes := total } else inventory int c g) =
        fullInventory int c g := by
    rintro total rfl
    split
    · rfl
    · rename_i hnone
      rw [fullInventory, Nat.eq_zero_of_not_pos hnone]
      cases hinv : inventory int c g with
      | none => rfl
      | some inv => rw [Option.map_some, ← hzero inv hinv]
  have hdisks : ∀ c' : Collector, c'.prevDisk = c.prevDisk →
      (((collectDisks fl c' g).1.map Prod.snd).getD 0 = totalBytes (g.partitions.getD []) ∧
        ((collectDisks fl c' g).1.map Prod.fst).getD [] =
          (mounted (g.partitions.getD [])).map fun p => diskOf fl c.prevDisk g p.1 p.2) ∧
        (collectDisks fl c' g).2.prevNet = c'.prevNet := by
    intro c' hprev
    unfold collectDisks
    cases g.partitions with
    | none => exact ⟨⟨rfl, rfl⟩, rfl⟩
    | some partitions =>
        rw [hprev]
        exact ⟨⟨rfl, rfl⟩, rfl⟩
  have hnetwork : ∀ c' : Collector, c'.prevNet = c.prevNet → (collectNetwork fl c' g).1.getD [] =
      (reportedNics (g.netCounters.getD [])).map (networkOf fl c.prevNet g.now) := by
    intro c' hprev
    unfold collectNetwork
    cases g.netCounters with
    | none => rfl
    | some counters =>
        rw [hprev]
        rfl
  have hdue : ∀ c' : Collector, c' = (if (inventory int c g).isSome then { c with lastInventoryAt := some g.now.nanos }
    else c) →
      c'.prevDisk = c.prevDisk ∧ c'.prevNet = c.prevNet := by
    rintro c' rfl
    split <;> exact ⟨rfl, rfl⟩
  obtain ⟨hprevDisk, hprevNet⟩ := hdue _ rfl
  obtain ⟨⟨htotal, hlist⟩, hkept⟩ := hdisks _ hprevDisk
  have hnics := hnetwork _ (hkept.trans hprevNet)
  simp only [collect, hlist, hnics, hinventory _ htotal]

variable {fl int}

theorem accepts_inventoryOf {c : Collector} {g : Readings} {hostInfo : HostInfo} :
    (hostInventorySchema isIp).accepts (some ((Json.record
      ({ inventoryOf int c g hostInfo with diskTotalBytes := totalBytes (g.partitions.getD []) } : Inventory).fields).map
        decode)) = true ↔ OrdinaryHost isIp int c.agentVersion g hostInfo := by
  have hcount : ∀ n high : Int, 0 ≤ high → (n = 0 ∨ 1 ≤ n ∧ n ≤ high ↔ 0 ≤ n ∧ n ≤ high) := by omega
  have hmodel : ((g.cpuInfo.head?.map CpuInfo.modelName).getD [] ≠ [] →
      Fits 1 255 ((g.cpuInfo.head?.map CpuInfo.modelName).getD [])) ↔
        ∀ info ∈ g.cpuInfo.head?, info.modelName ≠ [] → Fits 1 255 info.modelName := by
    cases g.cpuInfo.head? <;> simp
  have hmemory : (g.totalMemory.map VirtualMemory.total).getD 0 ≤ maxSafeInteger ↔
      ∀ vmem ∈ g.totalMemory, vmem.total ≤ maxSafeInteger := by
    cases g.totalMemory <;> simp
  have hfrequency : (0 ≤ (g.cpuInfo.head?.map fun info => int info.mhz).getD 0 ∧
      (g.cpuInfo.head?.map fun info => int info.mhz).getD 0 ≤ 20000) ↔
        ∀ info ∈ g.cpuInfo.head?, 0 ≤ int info.mhz ∧ int info.mhz ≤ 20000 := by
    cases g.cpuInfo.head? <;> simp
  have hlength : ((addresses (g.interfaces.getD [])).take 32).length ≤ 32 := List.length_take_le _ _
  rw [accepts_inventory, inventoryOf, hcount _ _ (by decide), hcount _ _ (by decide), hcount _ _ (by decide), hmodel, hmemory,
    hfrequency, hostIPAddresses_eq]
  constructor
  · rintro ⟨-, hname, hversion, hkernel, harch, hmodel, hcores, hthreads, hfrequency, hmemory, hdisks, ⟨-, hips⟩, -,
      hvirtual, hagent⟩
    exact ⟨hname, hversion, hkernel, harch, hmodel, hcores, hthreads, hfrequency, hmemory, hdisks, hips, hvirtual, hagent⟩
  · intro h
    exact ⟨accepts_osFamily _, h.osName, h.osVersion, h.kernelVersion, h.arch, h.cpuModel, h.cpuCores, h.cpuThreads,
      h.cpuFrequencyMhz, h.memoryTotalBytes, h.diskTotalBytes, ⟨hlength, h.ipAddresses⟩, fun hne => absurd rfl hne,
      h.virtualization, h.agentVersion⟩

theorem accepts_fullInventory {c : Collector} {g : Readings} :
    (∀ inv ∈ fullInventory int c g, (hostInventorySchema isIp).accepts (some ((Json.record inv.fields).map decode)) = true) ↔
      (c.due g.now = true → ∀ hostInfo ∈ g.hostInfo, OrdinaryHost isIp int c.agentVersion g hostInfo) := by
  unfold fullInventory inventory
  by_cases hdue : c.due g.now = true
  · rw [if_pos hdue, Option.map_map]
    cases g.hostInfo with
    | none => simp
    | some hostInfo =>
        simp only [Option.map_some, Option.mem_some_iff, forall_eq', Function.comp_apply, accepts_inventoryOf]
        exact ⟨fun h _ => h, fun h => h hdue⟩
  · rw [if_neg hdue]
    exact ⟨fun _ h => absurd h hdue, fun _ inv hinv => (nomatch hinv)⟩

theorem accepts_collectCPU {g : Readings} :
    (∀ cpu ∈ collectCPU g, cpuSchema.accepts (some ((Json.record cpu.fields).map decode)) = true) ↔
      ∀ percent rest, g.percents = some (percent :: rest) → ∀ avg ∈ g.loadAverage, 0 ≤ avg := by
  unfold collectCPU
  split
  · rename_i percent rest hpercents
    have hcpu : (∀ cpu ∈ some (⟨clampPercent percent, g.loadAverage⟩ : CPU),
        cpuSchema.accepts (some ((Json.record cpu.fields).map decode)) = true) ↔ ∀ avg ∈ g.loadAverage, 0 ≤ avg := by
      simp only [Option.mem_some_iff, forall_eq', accepts_cpu]
      exact and_iff_right (clampPercent_mem percent)
    rw [hcpu]
    exact ⟨fun h _ _ _ => h, fun h => h _ _ hpercents⟩
  · rename_i hnone
    exact ⟨fun _ percent rest h => absurd h (hnone percent rest), fun _ cpu hcpu => (nomatch hcpu)⟩

theorem accepts_collectMemory {g : Readings} :
    (∀ memory ∈ collectMemory g, memorySchema.accepts (some ((Json.record memory.fields).map decode)) = true) ↔
      ∀ vmem ∈ g.virtualMemory, vmem.used ≤ maxSafeInteger := by
  unfold collectMemory
  cases g.virtualMemory with
  | none => simp
  | some vmem =>
      have hused : 0 ≤ clampPercent vmem.usedPercent ∧ clampPercent vmem.usedPercent ≤ 100 := clampPercent_mem _
      have hswap : ∀ q ∈ (g.swapMemory.filter fun swap => 0 < swap.total).map fun swap => clampPercent swap.usedPercent,
          0 ≤ q ∧ q ≤ 100 := by
        intro q hq
        obtain ⟨swap, -, rfl⟩ := Option.map_eq_some_iff.mp hq
        exact clampPercent_mem _
      simp only [Option.map_some, Option.mem_some_iff, forall_eq', accepts_memory]
      exact ⟨fun h => h.2.1, fun h => ⟨hused, h, hswap⟩⟩

/-- A sample that is collected is taken exactly when the readings are ordinary. -/
theorem sample_accepted_iff (isIp : List Char → Bool) (fl : Rounding) (int : ℚ → Int) (c : Collector) (g : Readings) :
    (systemMetricsSchema isIp).accepts (some (collect fl int c g).1.json) = true ↔ OrdinaryReadings isIp int c g := by
  have htime := accepts_format g.now
  have huptime : ∀ q ∈ g.uptime.map fun hostInfo => fl.round hostInfo.uptime, 0 ≤ q := by
    intro q hq
    obtain ⟨hostInfo, -, rfl⟩ := Option.map_eq_some_iff.mp hq
    exact fl.nonneg (Nat.cast_nonneg _)
  have hpower : ∀ q ∈ (none : Option ℚ), 0 ≤ q ∧ q ≤ 1000000 := by
    intro q hq
    cases hq
  rw [collect_sample, accepts_system]
  simp only [htime, true_and, accepts_fullInventory, accepts_collectCPU, accepts_collectMemory, List.length_map,
    List.forall_mem_map, accepts_diskOf, accepts_networkOf, accepts_temperature]
  constructor
  · rintro ⟨hhost, hload, hmemory, ⟨hfewDisks, hdisks⟩, ⟨hfewNics, hnics⟩, hprocesses, -, ⟨hfewSensors, hsensors⟩, -⟩
    exact ⟨hhost, hload, hmemory, hfewDisks, hdisks, hfewNics, hnics, hprocesses, hfewSensors, hsensors⟩
  · intro h
    exact ⟨h.host, h.loadAverage, h.memory, ⟨h.fewDisks, h.disks⟩, ⟨h.fewNics, h.nics⟩, h.fewProcesses, huptime,
      ⟨h.fewSensors, h.sensors⟩, hpower⟩

end Samples

/-! ## A machine with many sensors -/

/-- Each core has its own. -/
def coreSensors (cores : Nat) : List TemperatureStat :=
  (List.range cores).map fun core => ⟨utf8 ("coretemp_core_" ++ core.repr).toList, 40⟩

def machine (cores : Nat) : Readings where
  now := Agent.noon 0
  hostInfo := none
  cpuInfo := []
  logicalCount := 0
  physicalCount := 0
  totalMemory := none
  interfaces := none
  percents := none
  loadAverage := none
  virtualMemory := none
  swapMemory := none
  partitions := none
  ioCounters := none
  netCounters := none
  temperatures := some (coreSensors cores)
  uptime := none
  pids := none

theorem reportedSensors_coreSensors (cores : Nat) : reportedSensors (coreSensors cores) = coreSensors cores := by
  have hkept : ∀ t ∈ coreSensors cores, decide (t.sensorKey ≠ [] ∧ t.temperature ≠ 0) = true := by
    intro t ht
    obtain ⟨core, -, rfl⟩ := List.mem_map.mp ht
    simp [utf8]
  exact List.filter_eq_self.mpr hkept

/-- With more than 64 sensors, nothing of the sample is taken. -/
theorem many_sensors_rejected : ¬ (systemMetricsSchema isLan).accepts
    (some (collect .exact (fun q => q.num.tdiv q.den) (new (utf8 "1.0.0".toList)) (machine 65)).1.json) = true := by
  rw [collect_sample, accepts_system]
  rintro ⟨-, -, -, -, -, -, -, -, ⟨hfew, -⟩, -⟩
  have hlength : (reportedSensors (coreSensors 65)).length = 65 := by
    rw [reportedSensors_coreSensors, coreSensors, List.length_map, List.length_range]
  rw [List.length_map] at hfew
  have hmany : (reportedSensors (coreSensors 65)).length ≤ 64 := hfew
  omega

end IkelyaneMonitor.Telemetry
