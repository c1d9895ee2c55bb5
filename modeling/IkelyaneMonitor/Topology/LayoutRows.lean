import Mathlib
import IkelyaneMonitor.Topology.Layout

/-!
# The rows and the positions of the layered layout

* `layersOf_eq` : without an empty layer between others the array of layers has no holes; `arrange_perm` : sorting a layer
  moves nodes within it only;
* `layout_rows` : row by row, the nodes by their layer, and the others in one last row;
* `layeredLayout_eq_some` : the position of a node is its row and its place there;
* `layout_breaks_cycles`, `layout_places_once` : what the layout is for.
-/

namespace IkelyaneMonitor.Topology
open Replay (groupBy members)

/-! ## The array of layers -/

section Array
variable {α : Type} [DecidableEq α]

/-- A layer of the array, where a hole is empty. -/
def layerAt (layers : List (Option (List α))) (depth : Nat) : List α := (layers[depth]?.join).getD []

omit [DecidableEq α] in
theorem length_pushLayer (id : α) (depth : Nat) (layers : List (Option (List α))) :
    (pushLayer id depth layers).length = max layers.length (depth + 1) := by
  induction depth generalizing layers with
  | zero => cases layers <;> simp [pushLayer]
  | succ depth ih =>
      cases layers with
      | nil => simp [pushLayer, ih]
      | cons row rows =>
          simp only [pushLayer, List.length_cons, ih]
          omega

omit [DecidableEq α] in
theorem layerAt_pushLayer (id : α) (depth k : Nat) (layers : List (Option (List α))) :
    layerAt (pushLayer id depth layers) k = layerAt layers k ++ if k = depth then [id] else [] := by
  unfold layerAt
  induction depth generalizing layers k with
  | zero => cases layers <;> cases k <;> simp [pushLayer]
  | succ depth ih =>
      cases layers with
      | nil =>
          cases k with
          | zero => simp [pushLayer]
          | succ k => simpa [pushLayer] using ih k []
      | cons row rows =>
          cases k with
          | zero => simp [pushLayer]
          | succ k => simpa [pushLayer] using ih k rows

variable {layer : α → Nat} {ids : List α}

omit [DecidableEq α] in
theorem layersOf_append (layer : α → Nat) (ids : List α) (id : α) :
    layersOf layer (ids ++ [id]) = pushLayer id (layer id) (layersOf layer ids) := by
  simp [layersOf]

omit [DecidableEq α] in
theorem layerAt_layersOf (layer : α → Nat) (ids : List α) (k : Nat) :
    layerAt (layersOf layer ids) k = ids.filter fun id => decide (layer id = k) := by
  induction ids using List.reverseRecOn with
  | nil => rfl
  | append_singleton ids id ih =>
      rw [layersOf_append, layerAt_pushLayer, ih, List.filter_append]
      by_cases hk : k = layer id
      · simp [hk]
      · simp [hk, Ne.symm hk]

omit [DecidableEq α] in
theorem length_layersOf_le {k : Nat} : (layersOf layer ids).length ≤ k ↔ ∀ id ∈ ids, layer id < k := by
  induction ids using List.reverseRecOn with
  | nil => simp [layersOf]
  | append_singleton ids id ih =>
      rw [layersOf_append, length_pushLayer, max_le_iff, ih]
      simp [or_imp, forall_and]

/-- Every layer below one that is used is used too. -/
def Filled (layer : α → Nat) (ids : List α) : Prop := ∀ id ∈ ids, ∀ k, layer id = k + 1 → ∃ p ∈ ids, layer p = k

omit [DecidableEq α] in
theorem Filled.exists_layer (h : Filled layer ids) {k : Nat} (hk : k < (layersOf layer ids).length) :
    ∃ p ∈ ids, layer p = k := by
  have hdown : ∀ d, (∃ id ∈ ids, layer id = d) → ∀ k ≤ d, ∃ id ∈ ids, layer id = k := by
    intro d
    induction d with
    | zero =>
        intro hused k hk
        obtain rfl := Nat.le_zero.mp hk
        exact hused
    | succ d ih =>
        intro hused k hk
        obtain ⟨id, hid, hlayer⟩ := hused
        rcases Nat.lt_or_eq_of_le hk with hlt | heq
        · exact ih (h id hid d hlayer) k (Nat.le_of_lt_succ hlt)
        · exact ⟨id, hid, heq ▸ hlayer⟩
  have hlong : ¬ (layersOf layer ids).length ≤ k := Nat.not_le_of_lt hk
  rw [length_layersOf_le] at hlong
  push Not at hlong
  obtain ⟨id, hid, hle⟩ := hlong
  exact hdown _ ⟨id, hid, rfl⟩ k hle

omit [DecidableEq α] in
/-- The array has no holes. -/
theorem Filled.layersOf_eq (h : Filled layer ids) : layersOf layer ids =
    ((List.range (layersOf layer ids).length).map fun k => ids.filter fun id => decide (layer id = k)).map some := by
  refine List.ext_getElem (by simp) fun k hk hk' => ?_
  rw [List.getElem_map, List.getElem_map, List.getElem_range]
  obtain ⟨p, hp, hlayer⟩ := h.exists_layer hk
  have hat := layerAt_layersOf layer ids k
  have hmem : p ∈ layerAt (layersOf layer ids) k := by
    rw [hat]
    simp [hp, hlayer]
  unfold layerAt at hat hmem
  rw [List.getElem?_eq_getElem hk] at hat hmem
  cases hrow : (layersOf layer ids)[k] with
  | none => simp [hrow] at hmem
  | some row =>
      rw [hrow] at hat
      exact congrArg some hat

end Array

/-! ## The order within the rows -/

section Arrange
variable {α : Type} [DecidableEq α]

theorem arrange_perm (parentsOf : α → List α) (rows : List (List α)) (order : α → Option ℚ) :
    ∃ rows', arrange parentsOf order (rows.map some) = rows'.map some ∧ List.Forall₂ List.Perm rows' rows := by
  induction rows generalizing order with
  | nil => exact ⟨[], rfl, .nil⟩
  | cons row rows ih =>
      have hperm : (((row.map fun id => (id, barycentre parentsOf order id)).mergeSort
          fun a b => scoreLe a.2 b.2).map Prod.fst).Perm row := by
        refine ((List.mergeSort_perm _ _).map Prod.fst).trans ?_
        have hfst : (Prod.fst ∘ fun id => (id, barycentre parentsOf order id)) = id := rfl
        rw [List.map_map, hfst, List.map_id]
      obtain ⟨rows', heq, hrows⟩ := ih (setOrder order (((row.map fun id => (id, barycentre parentsOf order id)).mergeSort
        fun a b => scoreLe a.2 b.2).map Prod.fst))
      refine ⟨_ :: rows', ?_, .cons hperm hrows⟩
      rw [List.map_cons, arrange, heq, List.map_cons]

end Arrange

/-! ## The rows -/

section Rows
variable {α : Type} [DecidableEq α] {nodeIds : List α} {edges : List (EdgeObject α)}

/-- The layers of the connected nodes. -/
def layerCount (nodeIds : List α) (edges : List (EdgeObject α)) : Nat :=
  (layersOf (layerOf nodeIds edges) (nodeIds.filter (connected (validEdges nodeIds edges)))).length

/-- The row of a node: its layer, or the last row for a node without edges. -/
def rowOf (nodeIds : List α) (edges : List (EdgeObject α)) (id : α) : Nat :=
  if connected (validEdges nodeIds edges) id then layerOf nodeIds edges id else layerCount nodeIds edges

theorem filled_connected (hnodup : nodeIds.Nodup) (edges : List (EdgeObject α)) :
    Filled (layerOf nodeIds edges) (nodeIds.filter (connected (validEdges nodeIds edges))) := by
  intro id hid k hlayer
  obtain ⟨p, hedge, hp⟩ := exists_layer_below hnodup hlayer
  exact ⟨p, List.mem_filter.mpr ⟨(mem_nodeIds_of_dag hedge).1, (connected_of_dag hedge).1⟩, hp⟩

theorem layerOf_lt_layerCount {id : α} (hid : id ∈ nodeIds) (hconnected : connected (validEdges nodeIds edges) id = true) :
    layerOf nodeIds edges id < layerCount nodeIds edges :=
  length_layersOf_le.mp (Nat.le_refl _) id (List.mem_filter.mpr ⟨hid, hconnected⟩)

/-- The rows of the connected nodes, and the row of the others. -/
theorem layoutRows_eq (hnodup : nodeIds.Nodup) (edges : List (EdgeObject α)) :
    ∃ rows : List (List α), layoutRows nodeIds edges = rows ++
        (if 0 < (nodeIds.filter fun id => !connected (validEdges nodeIds edges) id).length then
          [nodeIds.filter fun id => !connected (validEdges nodeIds edges) id] else []) ∧
      rows.length = layerCount nodeIds edges ∧
      ∀ (d : Nat) (row : List α), rows[d]? = some row →
        row.Perm ((nodeIds.filter (connected (validEdges nodeIds edges))).filter
        fun id => decide (layerOf nodeIds edges id = d)) := by
  have heq := (filled_connected hnodup edges).layersOf_eq
  obtain ⟨rows, harrange, hperm⟩ := arrange_perm (members (buildIndex (dagEdges nodeIds edges) .child))
    ((List.range (layerCount nodeIds edges)).map fun k => (nodeIds.filter (connected (validEdges nodeIds edges))).filter
      fun id => decide (layerOf nodeIds edges id = k)) fun _ => none
  refine ⟨rows, ?_, by simpa using hperm.length_eq, fun d row hrow => ?_⟩
  · unfold layoutRows
    dsimp only
    rw [heq]
    have hsome : (rows.map some).filterMap id = rows := by simp
    unfold layerCount at harrange
    rw [harrange, hsome]
  · obtain ⟨hd, rfl⟩ := List.getElem?_eq_some_iff.mp hrow
    have hlen := hperm.length_eq
    have hget := hperm.get hd (hlen ▸ hd)
    simpa using hget

theorem layoutRows_spec (hnodup : nodeIds.Nodup) {d : Nat} {row : List α} (hrow : (layoutRows nodeIds edges)[d]? = some row) :
    row.Nodup ∧ row ≠ [] ∧ ∀ id, id ∈ row ↔ id ∈ nodeIds ∧ rowOf nodeIds edges id = d := by
  obtain ⟨rows, heq, hlen, hperm⟩ := layoutRows_eq hnodup edges
  rw [heq] at hrow
  rcases Nat.lt_or_ge d rows.length with hd | hd
  · rw [List.getElem?_append_left hd] at hrow
    have hrow' := hperm d row hrow
    have hiff : ∀ id, id ∈ row ↔ id ∈ nodeIds ∧ rowOf nodeIds edges id = d := by
      intro id
      rw [hrow'.mem_iff, List.mem_filter, List.mem_filter, decide_eq_true_eq, and_assoc]
      refine and_congr_right fun _ => ?_
      unfold rowOf
      split
      · rename_i hconnected
        simp [hconnected]
      · rename_i hconnected
        simp only [hconnected]
        constructor
        · intro h
          exact absurd h.1 (by simp)
        · intro h
          omega
    obtain ⟨p, hp, hlayer⟩ := (filled_connected hnodup edges).exists_layer (k := d)
      (show d < layerCount nodeIds edges by omega)
    have hmem : p ∈ row := hrow'.mem_iff.mpr (by simp [List.mem_filter.mp hp, hlayer])
    exact ⟨hrow'.nodup_iff.mpr ((hnodup.filter _).filter _), List.ne_nil_of_mem hmem, hiff⟩
  · rw [List.getElem?_append_right hd] at hrow
    split at hrow
    · rename_i hpos
      rw [List.getElem?_singleton] at hrow
      split at hrow
      · obtain rfl := Option.some.inj hrow
        refine ⟨hnodup.filter _, List.ne_nil_of_length_pos hpos, fun id => ?_⟩
        rw [List.mem_filter, Bool.not_eq_true']
        refine and_congr_right fun hid => ?_
        unfold rowOf
        split
        · rename_i hconnected
          have := layerOf_lt_layerCount hid hconnected
          simp only [hconnected, Bool.true_eq_false, false_iff]
          omega
        · rename_i hconnected
          simp only [Bool.not_eq_true] at hconnected
          simp only [hconnected, true_iff]
          omega
      · cases hrow
    · cases hrow

theorem length_layoutRows (hnodup : nodeIds.Nodup) (edges : List (EdgeObject α)) {id : α} (hid : id ∈ nodeIds) :
    rowOf nodeIds edges id < (layoutRows nodeIds edges).length := by
  obtain ⟨rows, heq, hlen, -⟩ := layoutRows_eq hnodup edges
  rw [heq, List.length_append, hlen]
  unfold rowOf
  cases hconnected : connected (validEdges nodeIds edges) id with
  | true =>
      have := layerOf_lt_layerCount hid hconnected
      rw [if_pos rfl]
      omega
  | false =>
      have hmem : id ∈ nodeIds.filter fun id => !connected (validEdges nodeIds edges) id := by simp [hid, hconnected]
      rw [if_neg (by simp), if_pos (List.length_pos_of_mem hmem)]
      simp

end Rows

/-! ## The positions -/

section Positions
variable {α : Type} [DecidableEq α] {nodeIds : List α} {edges : List (EdgeObject α)} {options : LayoutOptions}

/-- A list without repeats, numbered from `n`, sets each of its entries once. -/
theorem foldl_update {β : Type} {l : List α} (hnodup : l.Nodup) (f : Nat → β) (n : Nat) (m : α → β) (id : α) :
    (∀ i, l[i]? = some id →
      (l.zipIdx n).foldl (fun m entry => Function.update m entry.1 (f entry.2)) m id = f (n + i)) ∧
      (id ∉ l → (l.zipIdx n).foldl (fun m entry => Function.update m entry.1 (f entry.2)) m id = m id) := by
  induction l generalizing n m with
  | nil => simp
  | cons a l ih =>
      obtain ⟨ha, hl⟩ := List.nodup_cons.mp hnodup
      obtain ⟨hset, hkeep⟩ := ih hl (n + 1) (Function.update m a (f n))
      rw [List.zipIdx_cons, List.foldl_cons]
      refine ⟨fun i hi => ?_, fun hid => ?_⟩
      · cases i with
        | zero =>
            obtain rfl : a = id := by simpa using hi
            rw [hkeep ha, Function.update_self]
            rfl
        | succ i =>
            rw [hset i (by simpa using hi)]
            congr 1
            omega
      · rw [List.mem_cons, not_or] at hid
        rw [hkeep hid.2, Function.update_of_ne hid.1]

theorem placeRow_eq {row : List α} (hnodup : row.Nodup) (columnGap y : ℚ) (positions : α → Option (ℚ × ℚ)) (id : α) :
    (∀ i : Nat, row[i]? = some id → placeRow columnGap y positions row id = some (column row i * columnGap, y)) ∧
      (id ∉ row → placeRow columnGap y positions row id = positions id) := by
  have h := foldl_update hnodup (fun index => some (column row index * columnGap, y)) 0 positions id
  simp only [Nat.zero_add] at h
  exact h

theorem place_rows {rows : List (List α)} (hnodup : rows.flatten.Nodup) (columnGap rowGap : ℚ) (n : Nat)
    (positions : α → Option (ℚ × ℚ)) (id : α) :
    (∀ (d : Nat) (row : List α) (i : Nat), rows[d]? = some row → row[i]? = some id →
      (rows.zipIdx n).foldl (fun positions entry => placeRow columnGap (entry.2 * rowGap) positions entry.1) positions id =
        some (column row i * columnGap, ((n + d : Nat) : ℚ) * rowGap)) ∧
      (id ∉ rows.flatten →
        (rows.zipIdx n).foldl (fun positions entry => placeRow columnGap (entry.2 * rowGap) positions entry.1) positions id =
          positions id) := by
  induction rows generalizing n positions with
  | nil => simp
  | cons row rows ih =>
      rw [List.flatten_cons] at hnodup
      obtain ⟨hrow, hrows, hdisjoint⟩ := List.nodup_append.mp hnodup
      obtain ⟨hset, hkeep⟩ := ih hrows (n + 1) (placeRow columnGap (n * rowGap) positions row)
      obtain ⟨hhere, hpass⟩ := placeRow_eq hrow columnGap (n * rowGap) positions id
      rw [List.zipIdx_cons, List.foldl_cons]
      refine ⟨fun d row' i hd hi => ?_, fun hid => ?_⟩
      · cases d with
        | zero =>
            obtain rfl : row = row' := by simpa using hd
            have hid : id ∉ rows.flatten := fun hmem => hdisjoint id (List.mem_of_getElem? hi) id hmem rfl
            rw [hkeep hid, hhere i hi]
            rfl
        | succ d =>
            rw [hset d row' i (by simpa using hd) hi]
            have hn : n + 1 + d = n + (d + 1) := by omega
            rw [hn]
      · rw [List.flatten_cons, List.mem_append, not_or] at hid
        rw [hkeep hid.2, hpass hid.1]

theorem nodup_layoutRows (hnodup : nodeIds.Nodup) (edges : List (EdgeObject α)) :
    (layoutRows nodeIds edges).flatten.Nodup := by
  refine List.nodup_flatten.mpr ⟨fun row hrow => ?_, List.pairwise_iff_getElem.mpr fun i j hi hj hij a ha hb => ?_⟩
  · obtain ⟨d, hd⟩ := List.mem_iff_getElem?.mp hrow
    exact (layoutRows_spec hnodup hd).1
  · have hrowi := ((layoutRows_spec hnodup (List.getElem?_eq_getElem hi)).2.2 a).mp ha
    have hrowj := ((layoutRows_spec hnodup (List.getElem?_eq_getElem hj)).2.2 a).mp hb
    omega

/-- A node sits at its place in its row, and only there. -/
theorem layeredLayout_eq_some (hnodup : nodeIds.Nodup) {id : α} {p : ℚ × ℚ} :
    layeredLayout nodeIds edges options id = some p ↔
    ∃ (d : Nat) (row : List α) (i : Nat), (layoutRows nodeIds edges)[d]? = some row ∧ row[i]? = some id ∧
      p = (column row i * options.columnGap.getD 200, d * options.rowGap.getD 130) := by
  obtain ⟨hset, hkeep⟩ := place_rows (nodup_layoutRows hnodup edges) (options.columnGap.getD 200) (options.rowGap.getD 130) 0
    (fun _ => none) id
  simp only [Nat.zero_add] at hset
  constructor
  · intro hp
    have hmem : id ∈ (layoutRows nodeIds edges).flatten := by
      by_contra hid
      have hnone := hkeep hid
      unfold layeredLayout at hp
      rw [hnone] at hp
      cases hp
    obtain ⟨row, hrow, hid⟩ := List.mem_flatten.mp hmem
    obtain ⟨d, hd⟩ := List.mem_iff_getElem?.mp hrow
    obtain ⟨i, hi⟩ := List.mem_iff_getElem?.mp hid
    refine ⟨d, row, i, hd, hi, ?_⟩
    exact Option.some.inj (hp.symm.trans (hset d row i hd hi))
  · rintro ⟨d, row, i, hd, hi, rfl⟩
    exact hset d row i hd hi

/-- Every node has a position, on its row. -/
theorem exists_position (hnodup : nodeIds.Nodup) (edges : List (EdgeObject α)) (options : LayoutOptions) {id : α}
    (hid : id ∈ nodeIds) :
    ∃ x, layeredLayout nodeIds edges options id = some (x, rowOf nodeIds edges id * options.rowGap.getD 130) := by
  have hlt := length_layoutRows hnodup edges hid
  have hrow : (layoutRows nodeIds edges)[rowOf nodeIds edges id]? = some (layoutRows nodeIds edges)[rowOf nodeIds edges id] :=
    List.getElem?_eq_getElem hlt
  have hmem : id ∈ (layoutRows nodeIds edges)[rowOf nodeIds edges id] := ((layoutRows_spec hnodup hrow).2.2 id).mpr ⟨hid, rfl⟩
  obtain ⟨i, hi⟩ := List.mem_iff_getElem?.mp hmem
  exact ⟨_, (layeredLayout_eq_some hnodup).mpr ⟨_, _, i, hrow, hi, rfl⟩⟩

theorem mem_of_position (hnodup : nodeIds.Nodup) {id : α} {x y : ℚ}
    (h : layeredLayout nodeIds edges options id = some (x, y)) :
    id ∈ nodeIds ∧ y = rowOf nodeIds edges id * options.rowGap.getD 130 := by
  obtain ⟨d, row, i, hrow, hi, hp⟩ := (layeredLayout_eq_some hnodup).mp h
  obtain ⟨hid, hd⟩ := ((layoutRows_spec hnodup hrow).2.2 id).mp (List.mem_of_getElem? hi)
  refine ⟨hid, ?_⟩
  rw [hd]
  exact congrArg Prod.snd hp

theorem isSome_position (hnodup : nodeIds.Nodup) (edges : List (EdgeObject α)) (options : LayoutOptions) (id : α) :
    (layeredLayout nodeIds edges options id).isSome = true ↔ id ∈ nodeIds := by
  constructor
  · intro h
    obtain ⟨p, hp⟩ := Option.isSome_iff_exists.mp h
    exact (mem_of_position hnodup hp).1
  · intro hid
    obtain ⟨x, hx⟩ := exists_position hnodup edges options hid
    rw [hx]
    rfl

/-- With positive gaps no two nodes share a position. -/
theorem position_inj (hnodup : nodeIds.Nodup) (hcolumn : 0 < options.columnGap.getD 200) (hrow : 0 < options.rowGap.getD 130)
    {a b : α} {p : ℚ × ℚ} (ha : layeredLayout nodeIds edges options a = some p)
    (hb : layeredLayout nodeIds edges options b = some p) : a = b := by
  obtain ⟨d, row, i, hd, hi, hp⟩ := (layeredLayout_eq_some hnodup).mp ha
  obtain ⟨d', row', i', hd', hi', hp'⟩ := (layeredLayout_eq_some hnodup).mp hb
  rw [hp, Prod.mk.injEq] at hp'
  obtain ⟨hx, hy⟩ := hp'
  obtain rfl : d = d' := by exact_mod_cast mul_right_cancel₀ (ne_of_gt hrow) hy
  obtain rfl : row = row' := Option.some.inj (hd.symm.trans hd')
  have hcolumns : column row i = column row i' := mul_right_cancel₀ (ne_of_gt hcolumn) hx
  obtain rfl : i = i' := by
    unfold column at hcolumns
    exact_mod_cast sub_left_injective hcolumns
  exact Option.some.inj (hi.symm.trans hi')

theorem length_layoutRows_eq (hnodup : nodeIds.Nodup) (edges : List (EdgeObject α)) :
    (layoutRows nodeIds edges).length = layerCount nodeIds edges ∨
      (layoutRows nodeIds edges).length = layerCount nodeIds edges + 1 := by
  obtain ⟨rows, heq, hlen, -⟩ := layoutRows_eq hnodup edges
  rw [heq, List.length_append, hlen]
  split
  · exact .inr rfl
  · exact .inl rfl

/-- The occupied heights are those of the rows. -/
theorem occupied_iff (hnodup : nodeIds.Nodup) (edges : List (EdgeObject α)) (options : LayoutOptions) (y : ℚ) :
    (∃ id x, layeredLayout nodeIds edges options id = some (x, y)) ↔
      ∃ d < (layoutRows nodeIds edges).length, y = (d : ℚ) * options.rowGap.getD 130 := by
  constructor
  · rintro ⟨id, x, h⟩
    obtain ⟨hid, hy⟩ := mem_of_position hnodup h
    exact ⟨_, length_layoutRows hnodup edges hid, hy⟩
  · rintro ⟨d, hd, rfl⟩
    have hrow : (layoutRows nodeIds edges)[d]? = some (layoutRows nodeIds edges)[d] := List.getElem?_eq_getElem hd
    obtain ⟨id, hid⟩ := List.exists_mem_of_ne_nil _ (layoutRows_spec hnodup hrow).2.1
    obtain ⟨i, hi⟩ := List.mem_iff_getElem?.mp hid
    exact ⟨id, _, (layeredLayout_eq_some hnodup).mpr ⟨d, _, i, hrow, hi, rfl⟩⟩

omit [DecidableEq α] in
theorem column_symm {row : List α} {i : Nat} (hi : i < row.length) : column row (row.length - 1 - i) = -column row i := by
  unfold column
  have hcast : ((row.length - 1 - i : Nat) : ℚ) = (row.length : ℚ) - 1 - i := by
    rw [Nat.cast_sub (by omega), Nat.cast_sub (by omega)]
    simp
  rw [hcast]
  ring

theorem position_symm (hnodup : nodeIds.Nodup) {id : α} {x y : ℚ} (h : layeredLayout nodeIds edges options id = some (x, y)) :
    ∃ id', layeredLayout nodeIds edges options id' = some (-x, y) := by
  obtain ⟨d, row, i, hrow, hi, hp⟩ := (layeredLayout_eq_some hnodup).mp h
  rw [Prod.mk.injEq] at hp
  obtain ⟨rfl, rfl⟩ := hp
  obtain ⟨hlt, -⟩ := List.getElem?_eq_some_iff.mp hi
  have hback : row.length - 1 - i < row.length := by omega
  refine ⟨row[row.length - 1 - i], (layeredLayout_eq_some hnodup).mpr
    ⟨d, row, row.length - 1 - i, hrow, List.getElem?_eq_getElem hback, ?_⟩⟩
  rw [column_symm hlt, neg_mul]

end Positions

/-! ## What the layout is for -/

section Laws
variable {α : Type} [DecidableEq α]

/-- Cycles are broken, every node is laid out, and an edge that is kept points down. Without cycles every edge is kept and
the row of a node is the length of the longest path that ends in it. -/
theorem layout_breaks_cycles (nodeIds : List α) (hnodup : nodeIds.Nodup) (edges : List (EdgeObject α))
    (options : LayoutOptions) :
    let position := layeredLayout nodeIds edges options
    let rowGap := options.rowGap.getD 130
    let valid := (validEdges nodeIds edges).map EdgeObject.toDependencyEdge
    Acyclic (dagEdges nodeIds edges) ∧
      (longestPathLayers nodeIds (dagEdges nodeIds edges)).visited.Perm nodeIds ∧
      (∀ a b, ⟨a, b⟩ ∈ dagEdges nodeIds edges → ∃ (d d' : Nat) (x x' : ℚ), d < d' ∧
        position a = some (x, d * rowGap) ∧ position b = some (x', d' * rowGap)) ∧
      (Acyclic valid → backEdges nodeIds (validEdges nodeIds edges) = [] ∧
        ∀ id, connected (validEdges nodeIds edges) id = true → ∃ (d : Nat) (x : ℚ), position id = some (x, d * rowGap) ∧
          IsGreatest { k | ∃ a, BreadthFirst.Path (members (buildIndex valid .parent)) k a id } d) := by
  intro position rowGap valid
  have hposition : ∀ id, id ∈ nodeIds → connected (validEdges nodeIds edges) id = true →
      ∃ x, position id = some (x, layerOf nodeIds edges id * rowGap) := by
    intro id hid hconnected
    obtain ⟨x, hx⟩ := exists_position hnodup edges options hid
    rw [rowOf, if_pos hconnected] at hx
    exact ⟨x, hx⟩
  refine ⟨dag_acyclic nodeIds edges, visited_perm hnodup edges, fun a b hedge => ?_, fun hacyclic => ?_⟩
  · obtain ⟨ha, hb⟩ := mem_nodeIds_of_dag hedge
    obtain ⟨hca, hcb⟩ := connected_of_dag hedge
    obtain ⟨x, hx⟩ := hposition a ha hca
    obtain ⟨x', hx'⟩ := hposition b hb hcb
    exact ⟨_, _, x, x', layerOf_lt hnodup hedge, hx, hx'⟩
  · refine ⟨backEdges_eq_nil hacyclic, fun id hconnected => ?_⟩
    have hid : id ∈ nodeIds := by
      obtain ⟨e, he, rfl | rfl⟩ := connected_iff.mp hconnected
      · exact (mem_validEdges.mp he).2.1
      · exact (mem_validEdges.mp he).2.2.1
    obtain ⟨x, hx⟩ := hposition id hid hconnected
    refine ⟨_, x, hx, ?_⟩
    have hgreatest := isGreatest_layerOf hnodup edges id
    rw [dagEdges_of_acyclic hacyclic] at hgreatest
    exact hgreatest

/-- Every node has one position, no two share one, the rows have no holes between them, the nodes without edges fill the
last row, and each row is centred. -/
theorem layout_places_once (nodeIds : List α) (hnodup : nodeIds.Nodup) (edges : List (EdgeObject α)) (options : LayoutOptions)
    (hcolumn : 0 < options.columnGap.getD 200) (hrow : 0 < options.rowGap.getD 130) :
    let position := layeredLayout nodeIds edges options
    let rowGap := options.rowGap.getD 130
    (∀ id, (position id).isSome = true ↔ id ∈ nodeIds) ∧
      (∀ a b p, position a = some p → position b = some p → a = b) ∧
      (∃ n m : Nat, (n = m ∨ n = m + 1) ∧
        (∀ y, (∃ id x, position id = some (x, y)) ↔ ∃ d < n, y = (d : ℚ) * rowGap) ∧
        ∀ id x y, position id = some (x, y) →
          (y = m * rowGap ↔ ¬ ∃ e ∈ validEdges nodeIds edges, id = e.parent ∨ id = e.child)) ∧
      ∀ id x y, position id = some (x, y) → ∃ id', position id' = some (-x, y) := by
  intro position rowGap
  refine ⟨isSome_position hnodup edges options, fun a b p => position_inj hnodup hcolumn hrow,
    ⟨(layoutRows nodeIds edges).length, layerCount nodeIds edges, length_layoutRows_eq hnodup edges,
      occupied_iff hnodup edges options, fun id x y h => ?_⟩, fun id x y h => position_symm hnodup h⟩
  obtain ⟨hid, hy⟩ := mem_of_position hnodup h
  have hrows : y = layerCount nodeIds edges * rowGap ↔ rowOf nodeIds edges id = layerCount nodeIds edges := by
    rw [hy]
    constructor
    · intro heq
      exact_mod_cast mul_right_cancel₀ (ne_of_gt hrow) heq
    · intro heq
      rw [heq]
  rw [hrows, ← connected_iff]
  unfold rowOf
  split
  · rename_i hconnected
    have := layerOf_lt_layerCount hid hconnected
    simp only [hconnected, not_true, iff_false]
    omega
  · rename_i hconnected
    simp [hconnected]

end Laws

section Witness

/-- Three nodes in a circle. -/
def triangle : List (EdgeObject Nat) := [⟨⟨0, 1⟩, 0⟩, ⟨⟨1, 2⟩, 1⟩, ⟨⟨2, 0⟩, 2⟩]

theorem layout_breaks_cycles_triangle :
    backEdges [0, 1, 2, 3] (validEdges [0, 1, 2, 3] triangle) = [⟨⟨2, 0⟩, 2⟩] ∧ Acyclic (dagEdges [0, 1, 2, 3] triangle) :=
  ⟨by decide +kernel, (layout_breaks_cycles [0, 1, 2, 3] (by decide) triangle {}).1⟩

theorem layout_places_once_triangle :
    (layeredLayout [0, 1, 2, 3] triangle {} 3).isSome = true ∧
      layeredLayout [0, 1, 2, 3] triangle {} 0 ≠ layeredLayout [0, 1, 2, 3] triangle {} 1 := by
  obtain ⟨hsome, hinj, -⟩ := layout_places_once [0, 1, 2, 3] (by decide) triangle {} (by decide +kernel) (by decide +kernel)
  refine ⟨(hsome 3).mpr (by decide), fun heq => ?_⟩
  obtain ⟨p, hp⟩ := Option.isSome_iff_exists.mp ((hsome 1).mpr (by decide))
  exact absurd (hinj 0 1 p (heq.trans hp) hp) (by decide)

end Witness

end IkelyaneMonitor.Topology
