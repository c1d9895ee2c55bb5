import Mathlib.Data.List.Dedup
import Mathlib.Data.List.Perm.Basic
import Mathlib.Tactic.SplitIfs
import IkelyaneMonitor.Agent.Snmp

/-!
# What a device says of its interfaces

* `lastCell`, `lastFcs` : the last variable of a column for an interface, in a walk;
* `Answers.indices` : the interfaces that the walks name;
* `Says` : what the variables say of an interface; `says_of_mem` : each row after the walks has just that.
-/

namespace IkelyaneMonitor.Agent.Snmp
open Wire Replay

/-! ## The last variable of a column -/

def lastCell (base : String) (column index : Int) (walk : List Pdu) : Option Pdu :=
  (walk.filter fun pdu => tableIndex pdu.name base = some (column, index)).getLast?

def lastFcs (index : Int) (walk : List Pdu) : Option Pdu :=
  (walk.filter fun pdu => singleIndex pdu.name oidDot3StatsFCSErrors = some index).getLast?

/-- The interfaces that the walks over the two tables name, each once. -/
def Answers.indices (a : Answers) : List Int :=
  ((cells oidIfTable a.ifTable).map Cell.index ++ (cells oidIfXTable a.ifXTable).map Cell.index).dedup

section Cells
variable {β : Type} {base : String} {column k : Int}

/-- The readings of a column for an interface, in the order of the walk. -/
theorem filterMap_cells (read : Pdu → β) (walk : List Pdu) :
    ((cells base walk).filter fun c => c.index = k).filterMap (fun c => if c.column = column then some (read c.pdu)
      else none) =
      (walk.filter fun pdu => tableIndex pdu.name base = some (column, k)).map read := by
  induction walk with
  | nil => rfl
  | cons pdu walk ih =>
      have hcells : cells base (pdu :: walk) =
          ((tableIndex pdu.name base).map fun place => (⟨place.1, place.2, pdu⟩ : Cell)).toList ++ cells base walk := by
        unfold cells
        cases h : tableIndex pdu.name base with
        | none => rw [List.filterMap_cons_none (by rw [h]; rfl)]; rfl
        | some place => rw [List.filterMap_cons_some (by rw [h]; rfl)]; rfl
      rw [hcells, List.filter_append, List.filterMap_append, ih]
      cases h : tableIndex pdu.name base with
      | none => rw [List.filter_cons_of_neg (by simp [h])]; rfl
      | some place =>
          obtain ⟨c, i⟩ := place
          by_cases hi : i = k <;> by_cases hc : c = column <;> simp [hi, hc, h]

variable {set : Cell → IfRow → IfRow} {view : IfRow → β} {read : Pdu → β} {walk : List Pdu}

/-- A field that the callback sets from one column has what the last variable of the column says. -/
theorem view_walk (h : ∀ c r, view (set c r) = if c.column = column then read c.pdu else view r) (row : Option IfRow) :
    view ((ownRow (fun idx => { index := idx }) Cell.index set k (cells base walk) row).getD { index := k }) =
      (lastCell base column k walk).elim (view (row.getD { index := k })) read := by
  have hreads : ∀ c r, view (set c r) = (if c.column = column then some (read c.pdu) else none).getD (view r) := by
    intro c r
    rw [h]
    split <;> rfl
  rw [view_ownRow hreads row, filterMap_cells, List.getLast?_map, lastCell]
  cases (walk.filter fun pdu => tableIndex pdu.name base = some (column, k)).getLast? <;> rfl

/-- A field that the callback leaves alone. -/
theorem view_walk_kept (h : ∀ c r, view (set c r) = view r) (row : Option IfRow) :
    view ((ownRow (fun idx => { index := idx }) Cell.index set k (cells base walk) row).getD { index := k }) =
      view (row.getD { index := k }) := by
  have hreads : ∀ c r, view (set c r) = ((fun _ => none : Cell → Option β) c).getD (view r) := h
  rw [view_ownRow hreads row, List.filterMap_none]
  rfl

end Cells

/-! ## What the callbacks set -/

section Callbacks
variable (toBigInt : Value → Option Int)

theorem setIfTable_eq (c : Cell) (r : IfRow) : setIfTable toBigInt c r =
    { r with
      descr := if c.column = colIfDescr then pduString c.pdu else r.descr
      speed := if c.column = colIfSpeed then pduUint toBigInt c.pdu else r.speed
      adminStatus := if c.column = colIfAdminStatus then pduInt toBigInt c.pdu else r.adminStatus
      operStatus := if c.column = colIfOperStatus then pduInt toBigInt c.pdu else r.operStatus
      inOctets := if c.column = colIfInOctets then pduUint toBigInt c.pdu else r.inOctets
      outOctets := if c.column = colIfOutOctets then pduUint toBigInt c.pdu else r.outOctets
      inErrors := if c.column = colIfInErrors then pduUint toBigInt c.pdu else r.inErrors
      outErrors := if c.column = colIfOutErrors then pduUint toBigInt c.pdu else r.outErrors
      inDiscards := if c.column = colIfInDiscards then pduUint toBigInt c.pdu else r.inDiscards
      outDiscards := if c.column = colIfOutDiscards then pduUint toBigInt c.pdu else r.outDiscards } := by
  unfold setIfTable colIfDescr colIfSpeed colIfAdminStatus colIfOperStatus colIfInOctets colIfOutOctets colIfInErrors
    colIfOutErrors colIfInDiscards colIfOutDiscards
  -- the columns are distinct: in the branch of one, the fields of the others stay
  iterate 10
    split
    · simp [*]
  simp [*]

theorem setIfXTable_eq (c : Cell) (r : IfRow) : setIfXTable toBigInt c r =
    { r with
      name := if c.column = colIfName then pduString c.pdu else r.name
      «alias» := if c.column = colIfAlias then pduString c.pdu else r.alias
      highSpeed := if c.column = colIfHighSpeed then pduUint toBigInt c.pdu else r.highSpeed
      hcInOctets := if c.column = colIfHCInOctets then pduUint toBigInt c.pdu else r.hcInOctets
      hcOutOctets := if c.column = colIfHCOutOctets then pduUint toBigInt c.pdu else r.hcOutOctets
      hasHCCounters := if c.column = colIfHCInOctets ∨ c.column = colIfHCOutOctets then true else r.hasHCCounters } := by
  unfold setIfXTable colIfName colIfAlias colIfHighSpeed colIfHCInOctets colIfHCOutOctets
  iterate 5
    split
    · simp [*]
  simp [*]

/-- The walk over the errors of the frame check sequence changes only these. -/
theorem lookup_setFcsErrors (k : Int) (walk : List Pdu) (rows : List IfRow) :
    lookup IfRow.index k (walk.foldl (setFcsErrors toBigInt) rows) =
      (lookup IfRow.index k rows).map fun r =>
        { r with crcErrors := (lastFcs k walk).elim r.crcErrors (pduUint toBigInt) } := by
  induction walk generalizing rows with
  | nil => exact Option.map_id'.symm
  | cons pdu walk ih =>
      rw [List.foldl_cons, ih, setFcsErrors, lastFcs, lastFcs]
      cases hi : singleIndex pdu.name oidDot3StatsFCSErrors with
      | none => rw [List.filter_cons_of_neg (by simp [hi])]
      | some i =>
          have hkey : ∀ r : IfRow, (if r.index = i then { r with crcErrors := pduUint toBigInt pdu } else r).index =
            r.index := by
            intro r
            split <;> rfl
          rw [lookup_map hkey, Option.map_map]
          cases hr : lookup IfRow.index k rows with
          | none => rfl
          | some r =>
              have hindex : r.index = k := key_of_lookup hr
              rw [Option.map_some, Option.map_some, Function.comp_apply, hindex]
              by_cases hik : i = k
              · subst hik
                rw [if_pos rfl, List.filter_cons_of_pos (by simp [hi]), List.getLast?_cons]
                cases (walk.filter _).getLast? <;> rfl
              · rw [if_neg fun h => hik h.symm, List.filter_cons_of_neg (by simp [hi, hik]), hindex]

theorem keys_setFcsErrors (walk : List Pdu) (rows : List IfRow) :
    (walk.foldl (setFcsErrors toBigInt) rows).map IfRow.index = rows.map IfRow.index := by
  induction walk generalizing rows with
  | nil => rfl
  | cons pdu walk ih =>
      rw [List.foldl_cons, ih, setFcsErrors]
      cases singleIndex pdu.name oidDot3StatsFCSErrors with
      | none => rfl
      | some i =>
          rw [List.map_map]
          refine List.map_congr_left fun r _ => ?_
          show (if r.index = i then { r with crcErrors := pduUint toBigInt pdu } else r).index = r.index
          split <;> rfl

end Callbacks

/-! ## The rows after the walks -/

section Rows
variable (toBigInt : Value → Option Int)

def Answers.text (a : Answers) (index : Int) : List UInt8 :=
  displayName ((lastCell oidIfXTable colIfName index a.ifXTable).elim [] pduString)
    ((lastCell oidIfTable colIfDescr index a.ifTable).elim [] pduString) index

/-- A counter or a gauge of `ifTable`. -/
def Answers.counter (a : Answers) (column index : Int) : Nat :=
  (lastCell oidIfTable column index a.ifTable).elim 0 (pduUint toBigInt)

def Answers.speed (a : Answers) (index : Int) : Nat :=
  speedBps ((lastCell oidIfXTable colIfHighSpeed index a.ifXTable).elim 0 (pduUint toBigInt))
    (a.counter toBigInt colIfSpeed index)

def Answers.crcErrors (a : Answers) (index : Int) : Nat := (lastFcs index a.fcsErrors).elim 0 (pduUint toBigInt)

/-- The row of an interface has what the variables say. -/
structure Says (a : Answers) (r : IfRow) : Prop where
  name : displayName r.name r.descr r.index = a.text r.index
  speed : speedBps r.highSpeed r.speed = a.speed toBigInt r.index
  inErrors : r.inErrors = a.counter toBigInt colIfInErrors r.index
  outErrors : r.outErrors = a.counter toBigInt colIfOutErrors r.index
  inDiscards : r.inDiscards = a.counter toBigInt colIfInDiscards r.index
  outDiscards : r.outDiscards = a.counter toBigInt colIfOutDiscards r.index
  crcErrors : r.crcErrors = a.crcErrors toBigInt r.index

variable {toBigInt} {a : Answers}

theorem index_setIfTable (c : Cell) (r : IfRow) : (setIfTable toBigInt c r).index = r.index := by rw [setIfTable_eq]

theorem index_setIfXTable (c : Cell) (r : IfRow) : (setIfXTable toBigInt c r).index = r.index := by rw [setIfXTable_eq]

theorem nodup_ifRows (a : Answers) : ((ifRows toBigInt a).map IfRow.index).Nodup := by
  rw [ifRows, keys_setFcsErrors]
  exact nodup_upsertAll (fun _ => rfl) index_setIfXTable (nodup_upsertAll (fun _ => rfl) index_setIfTable List.nodup_nil)

theorem mem_indices {k : Int} : k ∈ (ifRows toBigInt a).map IfRow.index ↔ k ∈ a.indices := by
  rw [ifRows, keys_setFcsErrors, mem_keys_upsertAll (fun _ => rfl) index_setIfXTable,
    mem_keys_upsertAll (fun _ => rfl) index_setIfTable, Answers.indices, List.mem_dedup, List.mem_append, List.map_nil]
  simp only [List.not_mem_nil, or_false]
  exact Or.comm

/-- As many rows as interfaces that are named. -/
theorem length_ifRows (a : Answers) : (ifRows toBigInt a).length = a.indices.length := by
  have hperm : ((ifRows toBigInt a).map IfRow.index).Perm a.indices :=
    (List.perm_ext_iff_of_nodup (nodup_ifRows a) (List.nodup_dedup _)).mpr fun _ => mem_indices
  rw [← hperm.length_eq, List.length_map]

variable (toBigInt) in
/-- What the walks over the two tables make of the row of an interface. -/
def walked (a : Answers) (k : Int) : Option IfRow :=
  ownRow (fun idx => { index := idx }) Cell.index (setIfXTable toBigInt) k (cells oidIfXTable a.ifXTable)
    (ownRow (fun idx => { index := idx }) Cell.index (setIfTable toBigInt) k (cells oidIfTable a.ifTable) none)

section Walked
variable {β : Type} {view : IfRow → β} {read : Pdu → β} {column k : Int} {r : IfRow}

theorem view_ifTable (hr : walked toBigInt a k = some r)
    (hset : ∀ c r, view (setIfTable toBigInt c r) = if c.column = column then read c.pdu else view r)
    (hkept : ∀ c r, view (setIfXTable toBigInt c r) = view r) :
    view r = (lastCell oidIfTable column k a.ifTable).elim (view { index := k }) read := by
  have hview : view r = view ((walked toBigInt a k).getD { index := k }) := by rw [hr, Option.getD_some]
  rw [hview, walked, view_walk_kept hkept, view_walk hset, Option.getD_none]

theorem view_ifXTable (hr : walked toBigInt a k = some r)
    (hset : ∀ c r, view (setIfXTable toBigInt c r) = if c.column = column then read c.pdu else view r)
    (hkept : ∀ c r, view (setIfTable toBigInt c r) = view r) :
    view r = (lastCell oidIfXTable column k a.ifXTable).elim (view { index := k }) read := by
  have hview : view r = view ((walked toBigInt a k).getD { index := k }) := by rw [hr, Option.getD_some]
  rw [hview, walked, view_walk hset, view_walk_kept hkept, Option.getD_none]

theorem view_walked_kept (hr : walked toBigInt a k = some r) (hT : ∀ c r, view (setIfTable toBigInt c r) = view r)
    (hX : ∀ c r, view (setIfXTable toBigInt c r) = view r) : view r = view { index := k } := by
  have hview : view r = view ((walked toBigInt a k).getD { index := k }) := by rw [hr, Option.getD_some]
  rw [hview, walked, view_walk_kept hX, view_walk_kept hT, Option.getD_none]

end Walked

/-- The third walk adds its errors to what the other two make of a row. -/
theorem walked_of_mem {r : IfRow} {k : Int} (hr : r ∈ ifRows toBigInt a) (hk : r.index = k) :
    ∃ r', walked toBigInt a k = some r' ∧
      { r' with crcErrors := (lastFcs k a.fcsErrors).elim r'.crcErrors (pduUint toBigInt) } = r := by
  have hlookup := lookup_of_mem (nodup_ifRows a) hr
  rw [hk, ifRows, lookup_setFcsErrors, lookup_upsertAll (fun _ => rfl) index_setIfXTable,
    lookup_upsertAll (fun _ => rfl) index_setIfTable] at hlookup
  exact Option.map_eq_some_iff.mp hlookup

theorem says_of_mem {r : IfRow} (hr : r ∈ ifRows toBigInt a) : Says toBigInt a r := by
  generalize hk : r.index = k
  obtain ⟨r', hrow, rfl⟩ := walked_of_mem hr hk
  have hname : r'.name = (lastCell oidIfXTable colIfName k a.ifXTable).elim [] pduString :=
    view_ifXTable hrow (fun c r => by rw [setIfXTable_eq]) fun c r => by rw [setIfTable_eq]
  have hdescr : r'.descr = (lastCell oidIfTable colIfDescr k a.ifTable).elim [] pduString :=
    view_ifTable hrow (fun c r => by rw [setIfTable_eq]) fun c r => by rw [setIfXTable_eq]
  have hhigh : r'.highSpeed = (lastCell oidIfXTable colIfHighSpeed k a.ifXTable).elim 0 (pduUint toBigInt) :=
    view_ifXTable hrow (fun c r => by rw [setIfXTable_eq]) fun c r => by rw [setIfTable_eq]
  have hspeed : r'.speed = a.counter toBigInt colIfSpeed k :=
    view_ifTable hrow (fun c r => by rw [setIfTable_eq]) fun c r => by rw [setIfXTable_eq]
  have hcrc : r'.crcErrors = 0 :=
    view_walked_kept hrow (fun c r => by rw [setIfTable_eq]) fun c r => by rw [setIfXTable_eq]
  have hindex : r'.index = k := hk
  refine ⟨?_, ?_, ?_, ?_, ?_, ?_, ?_⟩
  · show displayName r'.name r'.descr r'.index = a.text r'.index
    rw [hname, hdescr, hindex, Answers.text]
  · show speedBps r'.highSpeed r'.speed = a.speed toBigInt r'.index
    rw [hhigh, hspeed, hindex, Answers.speed]
  · show r'.inErrors = a.counter toBigInt colIfInErrors r'.index
    rw [hindex]
    exact view_ifTable hrow (fun c r => by rw [setIfTable_eq]) fun c r => by rw [setIfXTable_eq]
  · show r'.outErrors = a.counter toBigInt colIfOutErrors r'.index
    rw [hindex]
    exact view_ifTable hrow (fun c r => by rw [setIfTable_eq]) fun c r => by rw [setIfXTable_eq]
  · show r'.inDiscards = a.counter toBigInt colIfInDiscards r'.index
    rw [hindex]
    exact view_ifTable hrow (fun c r => by rw [setIfTable_eq]) fun c r => by rw [setIfXTable_eq]
  · show r'.outDiscards = a.counter toBigInt colIfOutDiscards r'.index
    rw [hindex]
    exact view_ifTable hrow (fun c r => by rw [setIfTable_eq]) fun c r => by rw [setIfXTable_eq]
  · show (lastFcs k a.fcsErrors).elim r'.crcErrors (pduUint toBigInt) = a.crcErrors toBigInt r'.index
    rw [hcrc, hindex, Answers.crcErrors]

end Rows

end IkelyaneMonitor.Agent.Snmp
