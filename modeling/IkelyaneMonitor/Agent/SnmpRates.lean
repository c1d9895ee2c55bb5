import Mathlib
import IkelyaneMonitor.Agent.SnmpRows
import IkelyaneMonitor.Replay.Latest

/-!
# The rates of a device against its counters

* `Reading` : what a walk makes of a counter: all of it, its lower 32 bits, or zero where it was not reached;
* `Overshoots` : the pairs of readings whose difference is more than the increase (`gain_le_iff`);
* `Truthful` : the answers of a device with these counters, each walk down to anywhere; `reads_of_mem` : the readings of a
  row;
* `prevAfter_key` : after any polls, the state of an interface is of the last poll that read it;
* `rates_le` : no rate is above the increase in every run without such a pair, as a walk cut short may make one
  (`rates_spike`).
-/

namespace IkelyaneMonitor.Agent.Snmp
open Wire Replay

/-! ## Readings of a counter -/

inductive Reading where
  | missing | low | full
  deriving DecidableEq, Repr

def Reading.value : Reading → Nat → Nat
  | .missing, _ => 0
  | .low, n => n % 2 ^ 32
  | .full, n => n

/-- The counter went from `x` to `y`, and the readings from `before` to `after` by more. -/
def Overshoots : Reading → Reading → Nat → Nat → Prop
  | .low, .full, x, _ => 2 ^ 32 ≤ x
  | .missing, .full, x, _ => 0 < x
  | .missing, .low, x, y => y - x < y % 2 ^ 32
  | _, _, _, _ => False

instance : (before after : Reading) → (x y : Nat) → Decidable (Overshoots before after x y)
  | .low, .full, x, _ => inferInstanceAs (Decidable (2 ^ 32 ≤ x))
  | .missing, .full, x, _ => inferInstanceAs (Decidable (0 < x))
  | .missing, .low, x, y => inferInstanceAs (Decidable (y - x < y % 2 ^ 32))
  | .missing, .missing, _, _ | .low, .missing, _, _ | .low, .low, _, _ | .full, _, _, _ => inferInstanceAs (Decidable False)

/-- The difference of two readings is within the increase, but for these pairs. -/
theorem gain_le_iff {x y : Nat} (h : x ≤ y) (before after : Reading) :
    after.value y - before.value x ≤ y - x ↔ ¬ Overshoots before after x y := by
  have hx := Nat.div_add_mod x (2 ^ 32)
  have hy := Nat.div_add_mod y (2 ^ 32)
  have hdiv : x / 2 ^ 32 ≤ y / 2 ^ 32 := Nat.div_le_div_right h
  cases before <;> cases after <;>
    simp only [Reading.value, Overshoots, not_false_eq_true, iff_true, not_le, not_lt] <;> omega

/-! ## What a device answers -/

structure Counters where
  inOctets : Nat
  outOctets : Nat
  inErrors : Nat
  outErrors : Nat
  crcErrors : Nat

/-- None of the counters has gone back. -/
structure Counters.Le (x y : Counters) : Prop where
  inOctets : x.inOctets ≤ y.inOctets
  outOctets : x.outOctets ≤ y.outOctets
  inErrors : x.inErrors ≤ y.inErrors
  outErrors : x.outErrors ≤ y.outErrors
  crcErrors : x.crcErrors ≤ y.crcErrors

structure Readings where
  inOctets : Reading
  outOctets : Reading
  inErrors : Reading
  outErrors : Reading
  crcErrors : Reading
  deriving DecidableEq, Repr

/-- The walk came to the column of the interface. -/
def reached (base : String) (column index : Int) (walk : List Pdu) (r : Reading) : Reading :=
  if (lastCell base column index walk).isSome then r else .missing

namespace Answers
variable (a : Answers) (index : Int)

def hasHC : Bool :=
  (lastCell oidIfXTable colIfHCInOctets index a.ifXTable).isSome ||
    (lastCell oidIfXTable colIfHCOutOctets index a.ifXTable).isSome

/-- One counter of 64 bits is enough for both to be taken as such. -/
def readings : Readings where
  inOctets :=
    if a.hasHC index then reached oidIfXTable colIfHCInOctets index a.ifXTable .full
    else reached oidIfTable colIfInOctets index a.ifTable .low
  outOctets :=
    if a.hasHC index then reached oidIfXTable colIfHCOutOctets index a.ifXTable .full
    else reached oidIfTable colIfOutOctets index a.ifTable .low
  inErrors := reached oidIfTable colIfInErrors index a.ifTable .low
  outErrors := reached oidIfTable colIfOutErrors index a.ifTable .low
  crcErrors := if (lastFcs index a.fcsErrors).isSome then .low else .missing

end Answers

section Truthful
variable (toBigInt : Value → Option Int)

/-- The variables of a column have the values of a counter. -/
def Tells (base : String) (column : Int) (walk : List Pdu) (counter : Int → Nat) : Prop :=
  ∀ pdu ∈ walk, ∀ index, tableIndex pdu.name base = some (column, index) → pduUint toBigInt pdu = counter index

/-- The answers of a device whose interfaces have these counters, wherever each walk stops: those of 32 bits are the lower
part of those of 64. -/
structure Truthful (a : Answers) (truth : Int → Counters) : Prop where
  inOctets : Tells toBigInt oidIfTable colIfInOctets a.ifTable fun index => (truth index).inOctets % 2 ^ 32
  outOctets : Tells toBigInt oidIfTable colIfOutOctets a.ifTable fun index => (truth index).outOctets % 2 ^ 32
  inErrors : Tells toBigInt oidIfTable colIfInErrors a.ifTable fun index => (truth index).inErrors % 2 ^ 32
  outErrors : Tells toBigInt oidIfTable colIfOutErrors a.ifTable fun index => (truth index).outErrors % 2 ^ 32
  hcInOctets : Tells toBigInt oidIfXTable colIfHCInOctets a.ifXTable fun index => (truth index).inOctets
  hcOutOctets : Tells toBigInt oidIfXTable colIfHCOutOctets a.ifXTable fun index => (truth index).outOctets
  crcErrors : ∀ pdu ∈ a.fcsErrors, ∀ index, singleIndex pdu.name oidDot3StatsFCSErrors = some index →
    pduUint toBigInt pdu = (truth index).crcErrors % 2 ^ 32

end Truthful

/-! ## The readings of a row -/

section Rows
variable {toBigInt : Value → Option Int} {a : Answers} {truth : Int → Counters} {base : String} {column index : Int}
  {walk : List Pdu} {counter : Int → Nat} {r : IfRow}

/-- A column of full values. -/
theorem read_full (h : Tells toBigInt base column walk counter) :
    (lastCell base column index walk).elim 0 (pduUint toBigInt) =
      (reached base column index walk .full).value (counter index) := by
  unfold reached
  cases hlast : lastCell base column index walk with
  | none => rfl
  | some pdu =>
      obtain ⟨hmem, hplace⟩ := List.mem_filter.mp (List.mem_of_getLast? hlast)
      exact h pdu hmem index (of_decide_eq_true hplace)

/-- A column of values cut to 32 bits. -/
theorem read_low (h : Tells toBigInt base column walk fun index => counter index % 2 ^ 32) :
    (lastCell base column index walk).elim 0 (pduUint toBigInt) =
      (reached base column index walk .low).value (counter index) := by
  rw [read_full h]
  unfold reached
  split <;> rfl

theorem isSome_lastCell : (lastCell base column index walk).isSome = true ↔
    ∃ c ∈ cells base walk, c.index = index ∧ c.column = column := by
  unfold lastCell cells
  rw [List.getLast?_isSome]
  constructor
  · intro hne
    obtain ⟨pdu, hpdu⟩ := List.exists_mem_of_ne_nil _ hne
    obtain ⟨hmem, hplace⟩ := List.mem_filter.mp hpdu
    refine ⟨⟨column, index, pdu⟩, List.mem_filterMap.mpr ⟨pdu, hmem, ?_⟩, rfl, rfl⟩
    rw [of_decide_eq_true hplace]
    rfl
  · rintro ⟨c, hc, rfl, rfl⟩
    obtain ⟨pdu, hmem, hcell⟩ := List.mem_filterMap.mp hc
    obtain ⟨place, hplace, rfl⟩ := Option.map_eq_some_iff.mp hcell
    exact List.ne_nil_of_mem (List.mem_filter.mpr ⟨hmem, decide_eq_true hplace⟩)

theorem hasHC_walked (hr : walked toBigInt a index = some r) : r.hasHCCounters = a.hasHC index := by
  have hset : ∀ c r, (setIfXTable toBigInt c r).hasHCCounters =
      (if c.column = colIfHCInOctets ∨ c.column = colIfHCOutOctets then some true else none).getD r.hasHCCounters := by
    intro c r
    rw [setIfXTable_eq]
    dsimp only
    split <;> rfl
  have hkept : ∀ c r, (setIfTable toBigInt c r).hasHCCounters = r.hasHCCounters := fun c r => by rw [setIfTable_eq]
  have hview : r.hasHCCounters = ((walked toBigInt a index).getD { index := index }).hasHCCounters := by
    rw [hr, Option.getD_some]
  rw [hview, walked, view_ownRow hset, view_walk_kept hkept, Option.getD_none, Bool.eq_iff_iff, Answers.hasHC,
    Bool.or_eq_true, isSome_lastCell, isSome_lastCell]
  -- the last one of the two columns, if there is one
  cases hlast : (((cells oidIfXTable a.ifXTable).filter fun c => c.index = index).filterMap fun c =>
      if c.column = colIfHCInOctets ∨ c.column = colIfHCOutOctets then some true else none).getLast? with
  | none =>
      rw [List.getLast?_eq_none_iff, List.filterMap_eq_nil_iff] at hlast
      refine iff_of_false Bool.false_ne_true ?_
      have hnone : ∀ c ∈ cells oidIfXTable a.ifXTable, c.index = index →
          ¬ (c.column = colIfHCInOctets ∨ c.column = colIfHCOutOctets) := by
        intro c hc hindex hcolumn
        have h := hlast c (List.mem_filter.mpr ⟨hc, decide_eq_true hindex⟩)
        rw [if_pos hcolumn] at h
        cases h
      rintro (⟨c, hc, hindex, hcolumn⟩ | ⟨c, hc, hindex, hcolumn⟩)
      · exact hnone c hc hindex (.inl hcolumn)
      · exact hnone c hc hindex (.inr hcolumn)
  | some b =>
      obtain ⟨c, hc, hb⟩ := List.mem_filterMap.mp (List.mem_of_getLast? hlast)
      obtain ⟨hmem, hindex⟩ := List.mem_filter.mp hc
      split at hb
      · rename_i hcolumn
        obtain rfl := Option.some.inj hb
        refine iff_of_true rfl (hcolumn.imp ?_ ?_)
        · exact fun h => ⟨c, hmem, of_decide_eq_true hindex, h⟩
        · exact fun h => ⟨c, hmem, of_decide_eq_true hindex, h⟩
      · cases hb

/-- The row of an interface has these readings of its counters. -/
structure Reads (readings : Readings) (counters : Counters) (r : IfRow) : Prop where
  inOctets : r.octets.1 = readings.inOctets.value counters.inOctets
  outOctets : r.octets.2 = readings.outOctets.value counters.outOctets
  inErrors : r.inErrors = readings.inErrors.value counters.inErrors
  outErrors : r.outErrors = readings.outErrors.value counters.outErrors
  crcErrors : r.crcErrors = readings.crcErrors.value counters.crcErrors

theorem reads_of_mem (h : Truthful toBigInt a truth) (hr : r ∈ ifRows toBigInt a) :
    Reads (a.readings r.index) (truth r.index) r := by
  have hrows := says_of_mem hr
  generalize hk : r.index = index at hrows
  obtain ⟨r', hrow, rfl⟩ := walked_of_mem hr hk
  have hHC : r'.hasHCCounters = a.hasHC index := hasHC_walked hrow
  have hin : r'.inOctets = a.counter toBigInt colIfInOctets index :=
    view_ifTable hrow (fun c r => by rw [setIfTable_eq]) fun c r => by rw [setIfXTable_eq]
  have hout : r'.outOctets = a.counter toBigInt colIfOutOctets index :=
    view_ifTable hrow (fun c r => by rw [setIfTable_eq]) fun c r => by rw [setIfXTable_eq]
  have hhcin : r'.hcInOctets = (lastCell oidIfXTable colIfHCInOctets index a.ifXTable).elim 0 (pduUint toBigInt) :=
    view_ifXTable hrow (fun c r => by rw [setIfXTable_eq]) fun c r => by rw [setIfTable_eq]
  have hhcout : r'.hcOutOctets = (lastCell oidIfXTable colIfHCOutOctets index a.ifXTable).elim 0 (pduUint toBigInt) :=
    view_ifXTable hrow (fun c r => by rw [setIfXTable_eq]) fun c r => by rw [setIfTable_eq]
  refine ⟨?_, ?_, ?_, ?_, ?_⟩
  · show (if r'.hasHCCounters then (r'.hcInOctets, r'.hcOutOctets) else (r'.inOctets, r'.outOctets)).1 = _
    rw [Answers.readings, hHC]
    split
    · exact hhcin.trans (read_full h.hcInOctets)
    · exact hin.trans (read_low h.inOctets)
  · show (if r'.hasHCCounters then (r'.hcInOctets, r'.hcOutOctets) else (r'.inOctets, r'.outOctets)).2 = _
    rw [Answers.readings, hHC]
    split
    · exact hhcout.trans (read_full h.hcOutOctets)
    · exact hout.trans (read_low h.outOctets)
  · rw [hrows.inErrors, hk]
    exact read_low h.inErrors
  · rw [hrows.outErrors, hk]
    exact read_low h.outErrors
  · rw [hrows.crcErrors, hk, Answers.crcErrors, Answers.readings]
    cases hlast : lastFcs index a.fcsErrors with
    | none => rfl
    | some pdu =>
        obtain ⟨hmem, hplace⟩ := List.mem_filter.mp (List.mem_of_getLast? hlast)
        exact h.crcErrors pdu hmem index (of_decide_eq_true hplace)

end Rows

/-! ## One rate -/

/-- The rates of an interface are at most the increase of its counters by the seconds. -/
structure Bounded (before after : Counters) (seconds : ℚ) (i : SnmpInterface) : Prop where
  inBps : i.inBps ≤ (after.inOctets - before.inOctets) / seconds * 8
  outBps : i.outBps ≤ (after.outOctets - before.outOctets) / seconds * 8
  errorsPerSec : ∀ q ∈ i.errorsPerSec,
    q ≤ ((after.inErrors - before.inErrors) + (after.outErrors - before.outErrors)) / seconds
  crcErrorsPerSec : ∀ q ∈ i.crcErrorsPerSec, q ≤ (after.crcErrors - before.crcErrors) / seconds

/-- No counter of the interface was read in a way that makes its increase too large. -/
structure Level (before after : Readings) (x y : Counters) : Prop where
  inOctets : ¬ Overshoots before.inOctets after.inOctets x.inOctets y.inOctets
  outOctets : ¬ Overshoots before.outOctets after.outOctets x.outOctets y.outOctets
  inErrors : ¬ Overshoots before.inErrors after.inErrors x.inErrors y.inErrors
  outErrors : ¬ Overshoots before.outErrors after.outErrors x.outErrors y.outErrors
  crcErrors : ¬ Overshoots before.crcErrors after.crcErrors x.crcErrors y.crcErrors

/-- What is kept of a row for the next poll. -/
def IfRow.state (r : IfRow) (nanos : Int) : IfState :=
  ⟨nanos, r.octets.1, r.octets.2, r.inErrors, r.outErrors, r.crcErrors⟩

section Rate
variable {seconds : ℚ} {cur prev x y : Nat}

theorem rate_exact (hseconds : 0 < seconds) : rate .exact cur prev seconds = ((cur - prev : Nat) : ℚ) / seconds := by
  unfold rate
  split
  · rename_i h
    have hless : cur < prev := h.resolve_left (not_le.mpr hseconds)
    rw [Nat.sub_eq_zero_of_le hless.le, Nat.cast_zero, zero_div]
  · rfl

/-- Of two readings of a counter. -/
theorem rate_le {before after : Reading} (hseconds : 0 < seconds) (hxy : x ≤ y) (hprev : prev = before.value x)
    (hcur : cur = after.value y) (h : ¬ Overshoots before after x y) :
    rate .exact cur prev seconds ≤ ((y : ℚ) - x) / seconds := by
  have hgain := (gain_le_iff hxy before after).mpr h
  rw [← hprev, ← hcur] at hgain
  rw [rate_exact hseconds, ← Nat.cast_sub hxy]
  apply div_le_div_of_nonneg_right _ hseconds.le
  exact_mod_cast hgain

/-- Between two rows that read the same interface. -/
theorem bounded_withRates {before after : Readings} {x y : Counters} {r r' : IfRow} {nanos : Int} (hseconds : 0 < seconds)
    (hle : x.Le y) (hread : Reads before x r) (hread' : Reads after y r') (h : Level before after x y) :
    Bounded x y seconds (r'.withRates .exact (r.state nanos) seconds) := by
  have hin := rate_le hseconds hle.inOctets hread.inOctets hread'.inOctets h.inOctets
  have hout := rate_le hseconds hle.outOctets hread.outOctets hread'.outOctets h.outOctets
  have hinErrors := rate_le hseconds hle.inErrors hread.inErrors hread'.inErrors h.inErrors
  have houtErrors := rate_le hseconds hle.outErrors hread.outErrors hread'.outErrors h.outErrors
  constructor
  · exact mul_le_mul_of_nonneg_right hin (by norm_num)
  · exact mul_le_mul_of_nonneg_right hout (by norm_num)
  · intro q hq
    obtain rfl := Option.some.inj hq
    rw [add_div]
    exact add_le_add hinErrors houtErrors
  · intro q hq
    obtain ⟨_, -, rfl⟩ := Option.map_eq_some_iff.mp hq
    exact rate_le hseconds hle.crcErrors hread.crcErrors hread'.crcErrors h.crcErrors

end Rate

/-! ## The interfaces of a poll -/

section Interfaces
variable {fl : Rounding} {deviceIP deviceIP' : String} {index index' : Int} {now : Instant} {prev : Prev} {rows : List IfRow}
  {r : IfRow}

theorem bar_not_mem_repr (n : Int) : '|' ∉ n.repr.toList := by
  have hdigits : ∀ n : Nat, '|' ∉ n.repr.toList := fun n h => absurd (isDigit_of_mem_repr h) (by decide)
  cases n with
  | ofNat n => exact hdigits n
  | negSucc n =>
      rw [Int.repr, String.toList_append, List.mem_append, not_or]
      exact ⟨by decide, hdigits _⟩

/-- The key names the device and the interface. -/
theorem interfaceKey_injective (h : interfaceKey deviceIP index = interfaceKey deviceIP' index') :
    deviceIP = deviceIP' ∧ index = index' := by
  have hlists := congrArg (fun s => s.toList.reverse) h
  simp only [interfaceKey, String.toList_append, List.reverse_append] at hlists
  have htake := congrArg (List.takeWhile (· != '|')) hlists
  have hcut : ∀ (n : Int) (rest : List Char), (n.repr.toList.reverse ++ ("|".toList.reverse ++ rest)).takeWhile (· != '|') =
      n.repr.toList.reverse := by
    intro n rest
    rw [List.takeWhile_append_of_pos]
    · exact List.append_nil _
    · intro c hc
      rw [bne_iff_ne]
      rintro rfl
      exact bar_not_mem_repr n (List.mem_reverse.mp hc)
  rw [hcut, hcut] at htake
  have hindex : index = index' := repr_injective (String.toList_injective (List.reverse_injective htake))
  subst hindex
  have hrest := List.append_cancel_left (List.append_cancel_left hlists)
  exact ⟨String.toList_injective (List.reverse_injective hrest), rfl⟩

theorem toInterface_prev : (toInterface fl deviceIP r now prev).2 = fun k =>
    if k = interfaceKey deviceIP r.index then some (r.state now.nanos) else prev k := by
  unfold toInterface Prev.swap
  cases prev (interfaceKey deviceIP r.index) <;> rfl

/-- Only the state of the interface itself matters. -/
theorem toInterface_congr {prev' : Prev}
    (h : prev (interfaceKey deviceIP r.index) = prev' (interfaceKey deviceIP r.index)) :
    (toInterface fl deviceIP r now prev).1 = (toInterface fl deviceIP r now prev').1 := by
  unfold toInterface Prev.swap
  rw [h]
  cases prev' (interfaceKey deviceIP r.index) <;> rfl

/-- Each row has the rates since its own state. -/
theorem toInterfaces_fst (hnodup : (rows.map IfRow.index).Nodup) :
    (toInterfaces fl deviceIP now rows prev).1 = rows.map fun r => (toInterface fl deviceIP r now prev).1 := by
  induction rows generalizing prev with
  | nil => rfl
  | cons r rows ih =>
      obtain ⟨hnew, hnodup⟩ := List.nodup_cons.mp hnodup
      rw [toInterfaces, List.map_cons, ih hnodup]
      show _ :: _ = _ :: _
      congr 1
      apply List.map_congr_left
      intro r' hr'
      apply toInterface_congr
      rw [toInterface_prev]
      apply if_neg
      intro heq
      obtain ⟨-, hindex⟩ := interfaceKey_injective heq
      exact hnew (hindex ▸ List.mem_map_of_mem hr')

/-- Each row leaves its state. -/
theorem toInterfaces_snd (hnodup : (rows.map IfRow.index).Nodup) (key : String) :
    (toInterfaces fl deviceIP now rows prev).2 key =
      ((rows.find? fun r => interfaceKey deviceIP r.index = key).map fun r => r.state now.nanos).or (prev key) := by
  induction rows generalizing prev with
  | nil => rfl
  | cons r rows ih =>
      obtain ⟨hnew, hnodup⟩ := List.nodup_cons.mp hnodup
      rw [toInterfaces, ih hnodup, toInterface_prev]
      by_cases hkey : interfaceKey deviceIP r.index = key
      · have hnone : (rows.find? fun r => interfaceKey deviceIP r.index = key) = none := by
          rw [List.find?_eq_none]
          intro r' hr' heq
          obtain ⟨-, hindex⟩ := interfaceKey_injective ((of_decide_eq_true heq).trans hkey.symm)
          exact hnew (hindex ▸ List.mem_map_of_mem hr')
        simp [hnone, hkey]
      · simp only [List.find?_cons, decide_eq_false hkey, if_neg fun h => hkey (Eq.symm h)]

end Interfaces

/-! ## Polls one after another -/

/-- A poll, and the counters of the device at that time. -/
structure Polled where
  device : Device
  now : Instant
  gosnmp : Params → Session
  truth : Int → Counters

def Polled.answers? (e : Polled) : Option Answers :=
  match buildParams e.device with
  | .error _ => none
  | .ok params =>
      match e.gosnmp params with
      | .answered a => some a
      | _ => none

/-- The readings of an interface, none when the device did not answer. -/
def Polled.readings (e : Polled) (index : Int) : Readings :=
  (e.answers?.map fun a => a.readings index).getD ⟨.missing, .missing, .missing, .missing, .missing⟩

section Polls
variable (toBigInt : Value → Option Int) (order : MapOrder)

def Polled.run (e : Polled) (prev : Prev) : SnmpDevice × Prev := poll .exact toBigInt order e.gosnmp e.device e.now prev

/-- What the poller keeps after these polls. -/
def prevAfter (polls : List Polled) : Prev := polls.foldl (fun prev e => (e.run toBigInt order prev).2) fun _ => none

/-- The row of an interface of the device at an address. -/
def Polled.row? (e : Polled) (ipAddress : String) (index : Int) : Option IfRow :=
  if e.device.ipAddress = ipAddress then e.answers?.bind fun a => lookup IfRow.index index (ifRows toBigInt a) else none

/-- The last of the polls that read the interface. -/
def baseline (polls : List Polled) (ipAddress : String) (index : Int) : Option Polled :=
  (polls.filter fun e => (e.row? toBigInt ipAddress index).isSome).getLast?

/-- Each device answers with its counters, and these do not go back. -/
structure Setting (polls : List Polled) : Prop where
  truthful : ∀ e ∈ polls, ∀ a ∈ e.answers?, Truthful toBigInt a e.truth
  grow : polls.Pairwise fun e e' => e.device.ipAddress = e'.device.ipAddress → ∀ index, (e.truth index).Le (e'.truth index)

/-- No reading of an interface overshoots the one before. -/
def AllLevel (polls : List Polled) : Prop :=
  ∀ pre e post, polls = pre ++ e :: post → ∀ index before, baseline toBigInt pre e.device.ipAddress index = some before →
    Level (before.readings index) (e.readings index) (before.truth index) (e.truth index)

/-- No rates are reported. -/
structure Silent (i : SnmpInterface) : Prop where
  inBps : i.inBps = 0
  outBps : i.outBps = 0
  errorsPerSec : i.errorsPerSec = none
  crcErrorsPerSec : i.crcErrorsPerSec = none

variable {toBigInt order} {e before : Polled} {prev : Prev} {polls pre post : List Polled} {ipAddress : String} {index : Int}

theorem run_snd : (e.run toBigInt order prev).2 =
    (e.answers?.map fun a => (pollInterfaces .exact toBigInt order e.device.ipAddress e.now a prev).2).getD prev := by
  unfold Polled.run Polled.answers? poll
  cases buildParams e.device with
  | error _ => rfl
  | ok params =>
      dsimp only
      cases e.gosnmp params <;> rfl

theorem run_interfaces : (e.run toBigInt order prev).1.interfaces =
    e.answers?.map fun a => (pollInterfaces .exact toBigInt order e.device.ipAddress e.now a prev).1 := by
  unfold Polled.run Polled.answers? poll
  cases buildParams e.device with
  | error _ => rfl
  | ok params =>
      dsimp only
      cases e.gosnmp params <;> rfl

theorem nodup_visit (a : Answers) : ((order.visit (ifRows toBigInt a)).map IfRow.index).Nodup :=
  ((order.perm _).map IfRow.index).nodup_iff.mpr (nodup_ifRows a)

/-- The order of the rows does not matter to which one has an index. -/
theorem find?_visit (a : Answers) : ((order.visit (ifRows toBigInt a)).find? fun r =>
      interfaceKey ipAddress r.index = interfaceKey ipAddress index) = lookup IfRow.index index (ifRows toBigInt a) := by
  have hkey : (fun r : IfRow => decide (interfaceKey ipAddress r.index = interfaceKey ipAddress index)) =
      fun r => decide (r.index = index) := by
    funext r
    exact decide_eq_decide.mpr ⟨fun h => (interfaceKey_injective h).2, fun h => by rw [h]⟩
  rw [hkey]
  cases hrow : lookup IfRow.index index (ifRows toBigInt a) with
  | none =>
      rw [List.find?_eq_none]
      intro r hr
      exact List.find?_eq_none.mp hrow r ((order.perm _).mem_iff.mp hr)
  | some r =>
      have hmem := (order.perm (ifRows toBigInt a)).mem_iff.mpr (List.mem_of_find?_eq_some hrow)
      have hfound := lookup_of_mem (nodup_visit a) hmem
      rw [key_of_lookup hrow] at hfound
      exact hfound

/-- A poll that read the interface replaces its state. -/
theorem run_key : (e.run toBigInt order prev).2 (interfaceKey ipAddress index) =
    ((e.row? toBigInt ipAddress index).map fun r => r.state e.now.nanos).or (prev (interfaceKey ipAddress index)) := by
  rw [run_snd, Polled.row?]
  cases e.answers? with
  | none =>
      rw [Option.bind_none, ite_self]
      rfl
  | some a =>
      rw [Option.map_some, Option.getD_some, Option.bind_some, pollInterfaces, toInterfaces_snd (nodup_visit a)]
      split
      · rename_i hip
        rw [hip, find?_visit]
      · rename_i hip
        have hnone : ((order.visit (ifRows toBigInt a)).find? fun r =>
            interfaceKey e.device.ipAddress r.index = interfaceKey ipAddress index) = none := by
          rw [List.find?_eq_none]
          intro r _ heq
          exact hip (interfaceKey_injective (of_decide_eq_true heq)).1
        rw [hnone, Option.map_none]

/-- The state of an interface is of the last poll that read it. -/
theorem prevAfter_key (polls : List Polled) : prevAfter toBigInt order polls (interfaceKey ipAddress index) =
    (baseline toBigInt polls ipAddress index).bind fun e =>
      (e.row? toBigInt ipAddress index).map fun r => r.state e.now.nanos := by
  induction polls using List.reverseRecOn with
  | nil => rfl
  | append_singleton polls e ih =>
      have hstep : prevAfter toBigInt order (polls ++ [e]) = (e.run toBigInt order (prevAfter toBigInt order polls)).2 := by
        rw [prevAfter, List.foldl_append]
        rfl
      rw [hstep, run_key, ih, baseline, baseline, List.filter_append, List.getLast?_append]
      cases hrow : e.row? toBigInt ipAddress index with
      | none =>
          rw [List.filter_cons_of_neg (by simp [hrow])]
          rfl
      | some r =>
          rw [List.filter_cons_of_pos (by simp [hrow])]
          simp [hrow]

theorem mem_of_baseline (h : baseline toBigInt polls ipAddress index = some before) :
    before ∈ polls ∧ ∃ a r, before.answers? = some a ∧ before.device.ipAddress = ipAddress ∧ r ∈ ifRows toBigInt a ∧
      r.index = index ∧ before.row? toBigInt ipAddress index = some r := by
  obtain ⟨hmem, hsome⟩ := List.mem_filter.mp (List.mem_of_getLast? h)
  obtain ⟨r, hr⟩ := Option.isSome_iff_exists.mp hsome
  have hrow := hr
  unfold Polled.row? at hrow
  split at hrow
  · rename_i hip
    obtain ⟨a, ha, hlookup⟩ := Option.bind_eq_some_iff.mp hrow
    exact ⟨hmem, a, r, ha, hip, List.mem_of_find?_eq_some hlookup, key_of_lookup hlookup, hr⟩
  · cases hrow

end Polls

/-- **Rates and traffic.** Devices answer with counters that do not go back, each walk stopping anywhere. In every sequence of
polls in which no reading overshoots the one it is compared with, every rate of an interface is at most the increase of its
counters since that poll, by the seconds between the two. -/
theorem rates_le (toBigInt : Value → Option Int) (order : MapOrder) (polls : List Polled) (h : Setting toBigInt polls)
    (hlevel : AllLevel toBigInt polls) (pre : List Polled) (e : Polled) (post : List Polled)
    (hsplit : polls = pre ++ e :: post)
    (interfaces : List SnmpInterface) (i : SnmpInterface)
    (hreported : (e.run toBigInt order (prevAfter toBigInt order pre)).1.interfaces = some interfaces) (hi : i ∈ interfaces) :
    Silent i ∨ ∃ before, baseline toBigInt pre e.device.ipAddress i.ifIndex = some before ∧ before.now.nanos < e.now.nanos ∧
      Bounded (before.truth i.ifIndex) (e.truth i.ifIndex) (((e.now.nanos - before.now.nanos : Int) : ℚ) / 10 ^ 9) i := by
  rw [run_interfaces] at hreported
  obtain ⟨a, ha, rfl⟩ := Option.map_eq_some_iff.mp hreported
  rw [pollInterfaces, toInterfaces_fst (nodup_visit a)] at hi
  obtain ⟨r, hr, rfl⟩ := List.mem_map.mp hi
  have hmem : e ∈ polls := by
    rw [hsplit]
    exact List.mem_append_right _ List.mem_cons_self
  have hread := reads_of_mem (h.truthful e hmem a ha) ((order.perm _).mem_iff.mp hr)
  have hstate : prevAfter toBigInt order pre (interfaceKey e.device.ipAddress r.index) =
      (baseline toBigInt pre e.device.ipAddress r.index).bind fun e' =>
        (e'.row? toBigInt e.device.ipAddress r.index).map fun r' => r'.state e'.now.nanos := prevAfter_key pre
  unfold toInterface Prev.swap
  rw [hstate]
  cases hbaseline : baseline toBigInt pre e.device.ipAddress r.index with
  | none => exact .inl ⟨rfl, rfl, rfl, rfl⟩
  | some before =>
      obtain ⟨hbefore, a', r', ha', hip, hr', hindex, hrow⟩ := mem_of_baseline hbaseline
      rw [Option.bind_some, hrow]
      dsimp only [Option.map_some]
      split
      · rename_i hseconds
        have hseconds' : (0 : ℚ) < ((e.now.nanos - before.now.nanos : Int) : ℚ) / 10 ^ 9 := by
          rw [← floatSeconds_exact]
          exact hseconds
        have hpos : (0 : Int) < e.now.nanos - before.now.nanos := by
          have hmul := (div_pos_iff_of_pos_right (by norm_num)).mp hseconds'
          exact_mod_cast hmul
        have hbeforeMem : before ∈ polls := by
          rw [hsplit]
          exact List.mem_append_left _ hbefore
        have hread' := reads_of_mem (h.truthful before hbeforeMem a' ha') hr'
        rw [hindex] at hread'
        have hgrow := h.grow
        rw [hsplit, List.pairwise_append] at hgrow
        have hle := hgrow.2.2 before hbefore e List.mem_cons_self hip r.index
        have hpair := hlevel pre e post hsplit r.index before hbaseline
        rw [Polled.readings, Polled.readings, ha, ha', Option.map_some, Option.map_some, Option.getD_some,
          Option.getD_some] at hpair
        refine .inr ⟨before, hbaseline, by omega, ?_⟩
        show Bounded (before.truth r.index) (e.truth r.index) (((e.now.nanos - before.now.nanos : Int) : ℚ) / 10 ^ 9)
          (r.withRates .exact (r'.state before.now.nanos) (floatSeconds .exact (e.now.nanos - before.now.nanos)))
        rw [floatSeconds_exact]
        exact bounded_withRates hseconds' hle hread' hread hpair
      · exact .inl ⟨rfl, rfl, rfl, rfl⟩

/-! ## A switch with one port -/

def numbers : Value → Option Int
  | .number n => some n
  | _ => some 0

def firstSeen : MapOrder := ⟨id, List.Perm.refl⟩

def accessSwitch : Device := ⟨"s1", "10.0.0.7", "switch", 60, ⟨"v2c", 161, 2000, 1, "public", none⟩⟩

/-- The port has received so many octets; the walks stop after its name, or at their end. -/
def portPoll (minute octets : Nat) (whole : Bool) : Polled where
  device := accessSwitch
  now := noon minute
  gosnmp := fun _ => .answered {
    latency := 2000000
    system := []
    ifTable := ⟨".1.3.6.1.2.1.2.2.1.2.1", .value, .octets [103, 105, 49]⟩ ::
      if whole then [⟨".1.3.6.1.2.1.2.2.1.10.1", .value, .number ((octets % 2 ^ 32 : Nat) : Int)⟩] else []
    ifXTable := []
    fcsErrors := [] }
  truth := fun _ => ⟨octets, 0, 0, 0, 0⟩

theorem tells_of_all {toBigInt : Value → Option Int} {base : String} {column : Int} {walk : List Pdu} {counter : Int → Nat}
    (h : ∀ pdu ∈ walk, ∀ place ∈ tableIndex pdu.name base, place.1 = column → pduUint toBigInt pdu = counter place.2) :
    Tells toBigInt base column walk counter :=
  fun pdu hpdu index hplace => h pdu hpdu (column, index) hplace rfl

/-- The port receives 600 000 octets in the minute between two polls; the walk of the first is whole or not. -/
def twoPolls (whole : Bool) : List Polled := [portPoll 0 1000000000 whole, portPoll 1 1000600000 true]

theorem setting_twoPolls (whole : Bool) : Setting numbers (twoPolls whole) := by
  constructor
  · intro e he a ha
    cases whole
    all_goals
      rcases List.mem_pair.mp he with rfl | rfl
      all_goals
        obtain rfl := Option.some.inj ha
        exact ⟨tells_of_all (by decide +kernel), tells_of_all (by decide +kernel), tells_of_all (by decide +kernel),
          tells_of_all (by decide +kernel), tells_of_all (by decide +kernel), tells_of_all (by decide +kernel), nofun⟩
  · refine List.pairwise_pair.mpr fun _ _ => ?_
    show Counters.Le ⟨1000000000, 0, 0, 0, 0⟩ ⟨1000600000, 0, 0, 0, 0⟩
    constructor <;> decide

theorem allLevel_twoPolls : AllLevel numbers (twoPolls true) := by
  intro pre e post hsplit index before hbaseline
  obtain ⟨hmem, a, r, ha, -, hr, hindex, -⟩ := mem_of_baseline hbaseline
  cases pre with
  | nil => cases hmem
  | cons first pre =>
      obtain ⟨rfl, hrest⟩ := List.cons.inj hsplit
      cases pre with
      | cons second pre => simp at hrest
      | nil =>
          obtain ⟨rfl, -⟩ := List.cons.inj hrest
          obtain rfl := List.mem_singleton.mp hmem
          obtain rfl := Option.some.inj ha
          have hone : index ∈ [1] := hindex ▸ mem_indices.mp (List.mem_map_of_mem hr)
          obtain rfl := List.mem_singleton.mp hone
          constructor <;> decide +kernel

/-- What the second poll reports of the port. -/
def reported (inBps : ℚ) : SnmpInterface where
  ifIndex := 1
  name := [103, 105, 49]
  «alias» := []
  adminStatus := "unknown"
  operStatus := "unknown"
  inBps := inBps
  inErrors := some 0
  outErrors := some 0
  inDiscards := some 0
  outDiscards := some 0
  errorsPerSec := some 0

/-- The rates of the second poll are within the traffic since the first, or none are reported. -/
def WithinTraffic (whole : Bool) (i : SnmpInterface) : Prop :=
  Silent i ∨ ∃ before, baseline numbers [portPoll 0 1000000000 whole] "10.0.0.7" i.ifIndex = some before ∧
    before.now.nanos < (noon 1).nanos ∧
      Bounded (before.truth i.ifIndex) ⟨1000600000, 0, 0, 0, 0⟩ ((((noon 1).nanos - before.now.nanos : Int) : ℚ) / 10 ^ 9) i

/-- Both walks whole: 80 kbit/s. -/
theorem rates_le_whole : WithinTraffic true (reported 80000) :=
  rates_le numbers firstSeen (twoPolls true) (setting_twoPolls true) allLevel_twoPolls [portPoll 0 1000000000 true]
    (portPoll 1 1000600000 true) [] rfl [reported 80000] (reported 80000) (by decide +kernel) List.mem_cons_self

/-- **A false peak.** The walk of the first poll stops before the octets: the second reports all that the port ever received
as received within the minute, 133 Mbit/s. -/
theorem rates_spike : Setting numbers (twoPolls false) ∧
    ((portPoll 1 1000600000 true).run numbers firstSeen
        (prevAfter numbers firstSeen [portPoll 0 1000000000 false])).1.interfaces =
      some [reported (400240000 / 3)] ∧ ¬ WithinTraffic false (reported (400240000 / 3)) := by
  refine ⟨setting_twoPolls false, by decide +kernel, ?_⟩
  rintro (hsilent | ⟨before, hbaseline, -, hbounded⟩)
  · have hzero : (400240000 / 3 : ℚ) = 0 := hsilent.inBps
    norm_num at hzero
  · have hfirst : baseline numbers [portPoll 0 1000000000 false] "10.0.0.7" 1 = some (portPoll 0 1000000000 false) := rfl
    obtain rfl := Option.some.inj (hfirst.symm.trans hbaseline)
    have hrate : (400240000 / 3 : ℚ) ≤ ((1000600000 : Nat) - (1000000000 : Nat)) / (((60000000000 : Int) : ℚ) / 10 ^ 9) * 8 :=
      hbounded.inBps
    norm_num at hrate

end IkelyaneMonitor.Agent.Snmp
