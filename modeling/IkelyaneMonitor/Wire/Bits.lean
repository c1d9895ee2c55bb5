import Mathlib

/-!
# Bits, the high one first

* `bits` : the low bits of a number (`bits_add`, `length_bits`); `ofBits` : the number of some bits (`ofBits_bits`,
  `bits_ofBits`);
* `bits_push` : bits shifted into a word, as long as the ones that are still read have room in it;
* `groups` : bits cut into groups of one size, the last one filled with zeros (`flatten_groups`, `length_groups`);
* `wholes` : the groups that are whole (`wholes_flatMap`).
-/

namespace Wire

/-- The `k` low bits of `n`. -/
def bits : (k n : Nat) → List Bool
  | 0, _ => []
  | k + 1, n => n.testBit k :: bits k n

def ofBits (l : List Bool) : Nat := l.foldl (fun n b => 2 * n + b.toNat) 0

@[simp] theorem length_bits (k n : Nat) : (bits k n).length = k := by
  induction k with
  | zero => rfl
  | succ k ih => rw [bits, List.length_cons, ih]

theorem bits_congr {k n m : Nat} (h : ∀ i < k, n.testBit i = m.testBit i) : bits k n = bits k m := by
  induction k with
  | zero => rfl
  | succ k ih => rw [bits, bits, h k (Nat.lt_succ_self k), ih fun i hi => h i (Nat.lt_succ_of_lt hi)]

theorem bits_add (k s n : Nat) : bits (k + s) n = bits k (n >>> s) ++ bits s n := by
  induction k with
  | zero => rw [Nat.zero_add, bits, List.nil_append]
  | succ k ih => rw [Nat.succ_add, bits, bits, ih, Nat.testBit_shiftRight, Nat.add_comm s k, List.cons_append]

theorem bits_zero (k : Nat) : bits k 0 = List.replicate k false := by
  induction k with
  | zero => rfl
  | succ k ih => rw [bits, ih, Nat.zero_testBit, List.replicate_succ]

theorem ofBits_append (l : List Bool) (b : Bool) : ofBits (l ++ [b]) = 2 * ofBits l + b.toNat := by
  rw [ofBits, List.foldl_append, ← ofBits, List.foldl_cons, List.foldl_nil]

theorem ofBits_bits (k n : Nat) : ofBits (bits k n) = n % 2 ^ k := by
  induction k generalizing n with
  | zero => rw [bits, pow_zero, Nat.mod_one, ofBits, List.foldl_nil]
  | succ k ih =>
      have hlast : bits 1 n = [n.testBit 0] := rfl
      have hbit : (n.testBit 0).toNat = n % 2 := by
        rw [Nat.testBit_zero]
        obtain h | h := Nat.mod_two_eq_zero_or_one n <;> rw [h] <;> rfl
      rw [bits_add k 1 n, hlast, ofBits_append, ih, hbit, Nat.shiftRight_eq_div_pow, pow_one, pow_succ', Nat.mod_mul]
      omega

theorem bits_ofBits (l : List Bool) : bits l.length (ofBits l) = l := by
  induction l using List.reverseRecOn with
  | nil => rfl
  | append_singleton l b ih =>
      have hshift : (2 * ofBits l + b.toNat) >>> 1 = ofBits l := by
        cases b <;> simp only [Bool.toNat_false, Bool.toNat_true, Nat.shiftRight_eq_div_pow] <;> omega
      have hlast : bits 1 (2 * ofBits l + b.toNat) = [b] := by
        cases b <;> simp [bits]
      rw [List.length_append, List.length_singleton, ofBits_append, bits_add, hshift, hlast, ih]

theorem ofBits_lt (l : List Bool) : ofBits l < 2 ^ l.length := by
  have h := ofBits_bits l.length (ofBits l)
  rw [bits_ofBits] at h
  rw [h]
  exact Nat.mod_lt _ (Nat.two_pow_pos _)

/-- What is shifted out of the word is never read, where what is read has room in it. -/
theorem bits_push {w k s n : Nat} (v : BitVec w) (hn : n < 2 ^ s) (hroom : k + s ≤ w) :
    bits (k + s) (v <<< s ||| BitVec.ofNat w n).toNat = bits k v.toNat ++ bits s n := by
  have hbit : ∀ i < w, (v <<< s ||| BitVec.ofNat w n).toNat.testBit i =
      ((decide (s ≤ i) && v.toNat.testBit (i - s)) || n.testBit i) := by
    intro i hi
    rw [← BitVec.getLsbD, BitVec.getLsbD_or, BitVec.getLsbD_shiftLeft, BitVec.getLsbD_ofNat, ← BitVec.getLsbD]
    by_cases hs : i < s <;> simp [hi, hs, Nat.not_lt.mp]
  rw [bits_add]
  congr 1
  · apply bits_congr
    intro i hi
    have hhigh : n.testBit (s + i) = false :=
      Nat.testBit_lt_two_pow (lt_of_lt_of_le hn (Nat.pow_le_pow_right (by decide) (by omega)))
    rw [Nat.testBit_shiftRight, hbit (s + i) (by omega), hhigh, Bool.or_false]
    simp
  · apply bits_congr
    intro i hi
    rw [hbit i (by omega), decide_eq_false (by omega), Bool.false_and, Bool.false_or]

/-! ## Groups -/

theorem length_drop_lt (w : Nat) [NeZero w] {l : List Bool} (h : w ≤ l.length) : (l.drop w).length < l.length := by
  have hw : 0 < w := Nat.pos_of_neZero w
  rw [List.length_drop]
  omega

def groups (w : Nat) [NeZero w] (l : List Bool) : List (List Bool) :=
  if _h : w ≤ l.length then l.take w :: groups w (l.drop w)
  else if l = [] then []
  else [l ++ List.replicate (w - l.length) false]
termination_by l.length
decreasing_by exact length_drop_lt w _h

def wholes (w : Nat) [NeZero w] (l : List Bool) : List (List Bool) :=
  if _h : w ≤ l.length then l.take w :: wholes w (l.drop w) else []
termination_by l.length
decreasing_by exact length_drop_lt w _h

section Groups
variable {w : Nat} [NeZero w]

theorem groups_append {a : List Bool} (ha : a.length = w) (l : List Bool) : groups w (a ++ l) = a :: groups w l := by
  rw [groups, dif_pos (by rw [List.length_append]; omega), List.take_left' ha, List.drop_left' ha]

theorem groups_short {l : List Bool} (hl : l ≠ []) (hw : l.length < w) :
    groups w l = [l ++ List.replicate (w - l.length) false] := by
  rw [groups, dif_neg (Nat.not_le.mpr hw), if_neg hl]

theorem wholes_append {a : List Bool} (ha : a.length = w) (l : List Bool) : wholes w (a ++ l) = a :: wholes w l := by
  rw [wholes, dif_pos (by rw [List.length_append]; omega), List.take_left' ha, List.drop_left' ha]

theorem wholes_short {l : List Bool} (hl : l.length < w) : wholes w l = [] := by
  rw [wholes, dif_neg (Nat.not_le.mpr hl)]

theorem length_of_mem_groups {l g : List Bool} (h : g ∈ groups w l) : g.length = w := by
  induction l using groups.induct w with
  | case1 l hw ih =>
      rw [groups, dif_pos hw, List.mem_cons] at h
      apply h.elim
      · intro hg
        rw [hg, List.length_take_of_le hw]
      · exact ih
  | case2 hw =>
      rw [groups, dif_neg hw, if_pos rfl] at h
      cases h
  | case3 l hw hl =>
      rw [groups, dif_neg hw, if_neg hl, List.mem_singleton] at h
      rw [h, List.length_append, List.length_replicate]
      omega

/-- The groups have all the bits, and zeros behind them. -/
theorem flatten_groups (l : List Bool) : ∃ pad : List Bool, pad.length < w ∧ (groups w l).flatten = l ++ pad := by
  induction l using groups.induct w with
  | case1 l hw ih =>
      obtain ⟨pad, hpad, hrest⟩ := ih
      refine ⟨pad, hpad, ?_⟩
      rw [groups, dif_pos hw, List.flatten_cons, hrest, ← List.append_assoc, List.take_append_drop]
  | case2 hw =>
      refine ⟨[], Nat.pos_of_neZero w, ?_⟩
      rw [groups, dif_neg hw, if_pos rfl]
      rfl
  | case3 l hw hl =>
      have hpos : 0 < l.length := List.length_pos_of_ne_nil hl
      refine ⟨List.replicate (w - l.length) false, ?_, ?_⟩
      · rw [List.length_replicate]
        omega
      · rw [groups_short hl (Nat.not_le.mp hw), List.flatten_singleton]

theorem length_groups (l : List Bool) : (groups w l).length = l.length ⌈/⌉ w := by
  have hw := Nat.pos_of_neZero w
  obtain ⟨pad, hpad, hflat⟩ := flatten_groups (w := w) l
  have hlength : (groups w l).length * w = l.length + pad.length := by
    have hsum := congrArg List.length hflat
    rw [List.length_flatten, List.map_congr_left fun g hg => length_of_mem_groups hg, List.map_const',
      List.sum_replicate, smul_eq_mul, List.length_append] at hsum
    exact hsum
  rw [Nat.ceilDiv_eq_add_pred_div]
  apply Eq.symm
  apply Nat.div_eq_of_lt_le
  · omega
  · rw [Nat.succ_mul]
    omega

/-- Whole groups, one after the other, are read back, and less than a group behind them makes no difference. -/
theorem wholes_flatMap {α : Type} (f : α → List Bool) (hf : ∀ x, (f x).length = w) (xs : List α) {pad : List Bool}
    (hpad : pad.length < w) : wholes w (xs.flatMap f ++ pad) = xs.map f := by
  induction xs with
  | nil => exact wholes_short hpad
  | cons x xs ih => rw [List.flatMap_cons, List.append_assoc, wholes_append (hf x), ih, List.map_cons]

end Groups

end Wire
