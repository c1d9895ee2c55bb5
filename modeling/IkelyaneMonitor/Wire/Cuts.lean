import IkelyaneMonitor.Text
import IkelyaneMonitor.Wire.Text

/-!
# UTF-8 texts that are cut

* `bytePrefix_longest` : the whole characters before a cut are the longest prefix that fits; `eq_append_of_lt`, `take_utf8` :
  behind them is a part of one character;
* `isContinuation`, `continuation_tail` : the bytes that start no character; `startsChar`, `startsChar_take` : the parts of
  one;
* `toText` : the text that JavaScript reads in any bytes, with one U+FFFD for the start of a character (`toText_utf8_append`,
  `toText_take`).
-/

namespace Wire
open IkelyaneMonitor.Text

/-! ## The whole characters before a cut -/

theorem prefix_bytePrefix (n : Nat) (l : List Char) : bytePrefix n l <+: l := by
  induction l generalizing n with
  | nil => exact List.prefix_refl []
  | cons c l ih =>
      rw [bytePrefix]
      split
      · exact List.prefix_cons_inj c |>.mpr (ih _)
      · exact List.nil_prefix

theorem length_bytePrefix_le (n : Nat) (l : List Char) : (utf8 (bytePrefix n l)).length ≤ n := by
  induction l generalizing n with
  | nil => exact Nat.zero_le n
  | cons c l ih =>
      rw [bytePrefix]
      split
      · rename_i hc
        have hrest := ih (n - c.utf8Size)
        rw [length_utf8_cons]
        omega
      · exact Nat.zero_le n

/-- No longer prefix fits. -/
theorem bytePrefix_longest {n : Nat} {l q : List Char} (hq : q <+: l) (hfits : (utf8 q).length ≤ n) :
    q <+: bytePrefix n l := by
  induction l generalizing n q with
  | nil =>
      rw [List.prefix_nil.mp hq]
      exact List.nil_prefix
  | cons c l ih =>
      cases q with
      | nil => exact List.nil_prefix
      | cons d q =>
          obtain ⟨rfl, hprefix⟩ := List.cons_prefix_cons.mp hq
          rw [length_utf8_cons] at hfits
          rw [bytePrefix, if_pos (by omega)]
          exact List.prefix_cons_inj d |>.mpr (ih hprefix (by omega))

theorem bytePrefix_of_fits {n : Nat} {l : List Char} (h : (utf8 l).length ≤ n) : bytePrefix n l = l :=
  (prefix_bytePrefix n l).eq_of_length_le (bytePrefix_longest (List.prefix_refl l) h).length_le

/-- A cut inside a text falls before the end of the character that follows the whole ones. -/
theorem eq_append_of_lt {n : Nat} {l : List Char} (h : n < (utf8 l).length) :
    ∃ c rest, l = bytePrefix n l ++ c :: rest ∧ n < (utf8 (bytePrefix n l)).length + c.utf8Size := by
  induction l generalizing n with
  | nil => exact absurd h (Nat.not_lt_zero n)
  | cons c l ih =>
      rw [length_utf8_cons] at h
      rw [bytePrefix]
      split
      · rename_i hc
        obtain ⟨d, rest, hl, hd⟩ := ih (n := n - c.utf8Size) (by omega)
        refine ⟨d, rest, ?_, ?_⟩
        · rw [List.cons_append, ← hl]
        · rw [length_utf8_cons]
          omega
      · rename_i hc
        refine ⟨c, l, rfl, ?_⟩
        rw [utf8, List.flatMap_nil, List.length_nil]
        omega

/-- The bytes before a cut: whole characters, and a part of one. -/
theorem take_utf8 {n : Nat} {l : List Char} (h : n < (utf8 l).length) :
    ∃ c, (utf8 l).take n = utf8 (bytePrefix n l) ++ (String.utf8EncodeChar c).take (n - (utf8 (bytePrefix n l)).length) ∧
      n - (utf8 (bytePrefix n l)).length < c.utf8Size := by
  obtain ⟨c, rest, hl, hc⟩ := eq_append_of_lt h
  have hle := length_bytePrefix_le n l
  refine ⟨c, ?_, by omega⟩
  conv_lhs => rw [hl]
  rw [utf8_append, List.take_append, List.take_of_length_le hle]
  congr 1
  show (String.utf8EncodeChar c ++ utf8 rest).take _ = _
  rw [List.take_append_of_le_length]
  rw [String.length_utf8EncodeChar]
  omega

/-! ## The bytes of a character -/

def between (low high : Nat) (b : UInt8) : Bool := low ≤ b.toNat && b.toNat ≤ high

def isContinuation : UInt8 → Bool := between 0x80 0xBF

/-- The second byte of a character of three or four bytes: four of the first ones leave it less room. -/
def isSecond (a b : UInt8) : Bool :=
  isContinuation b && (a.toNat ≠ 0xE0 || 0xA0 ≤ b.toNat) && (a.toNat ≠ 0xED || b.toNat ≤ 0x9F) &&
    (a.toNat ≠ 0xF0 || 0x90 ≤ b.toNat) && (a.toNat ≠ 0xF4 || b.toNat ≤ 0x8F)

/-- Whether the bytes start a character that they do not end. -/
def startsChar : List UInt8 → Bool
  | [a] => between 0xC2 0xF4 a
  | [a, b] => between 0xE0 0xF4 a && isSecond a b
  | [a, b, c] => between 0xF0 0xF4 a && isSecond a b && isContinuation c
  | _ => false

/-- The first byte of a character, and the ones behind it. -/
theorem continuation_tail (c : Char) : ∃ lead tail, String.utf8EncodeChar c = lead :: tail ∧
    isContinuation lead = false ∧ ∀ b ∈ tail, isContinuation b = true := by
  have hmax : c.val.toNat < 0x110000 := by
    obtain h | h := c.valid <;> omega
  unfold String.utf8EncodeChar
  simp only
  split_ifs
  all_goals
    refine ⟨_, _, rfl, ?_, ?_⟩
    · simp only [isContinuation, between, UInt8.toNat_ofNat', Bool.and_eq_false_iff, decide_eq_false_iff_not]
      omega
    · simp [isContinuation, between]
      try omega

theorem startsChar_take {c : Char} {k : Nat} (hpos : 0 < k) (hk : k < c.utf8Size) :
    startsChar ((String.utf8EncodeChar c).take k) = true := by
  have hvalid : c.val.toNat < 0xD800 ∨ 0xDFFF < c.val.toNat ∧ c.val.toNat < 0x110000 := c.valid
  rw [← String.length_utf8EncodeChar] at hk
  unfold String.utf8EncodeChar at hk ⊢
  simp only at hk ⊢
  -- one case for each number of bytes, and in it one for each cut
  split_ifs at hk ⊢
  all_goals
    simp only [List.length_cons, List.length_nil] at hk
    interval_cases k
  all_goals
    simp only [List.take_succ_cons, List.take_zero, startsChar, isSecond, isContinuation, between, UInt8.toNat_ofNat',
      Bool.and_eq_true, Bool.or_eq_true, decide_eq_true_eq]
    omega

/-- A part of a character is no character. -/
theorem firstRune_take {c : Char} {k : Nat} (hk : k < c.utf8Size) : firstRune ((String.utf8EncodeChar c).take k) = none := by
  cases h : firstRune ((String.utf8EncodeChar c).take k) with
  | none => rfl
  | some d =>
      obtain ⟨rest, heq⟩ := eq_of_firstRune h
      have hwhole : String.utf8EncodeChar c = String.utf8EncodeChar d ++ (rest ++ (String.utf8EncodeChar c).drop k) := by
        rw [← List.append_assoc, ← heq, List.take_append_drop]
      have hsame : some c = some d := by
        rw [← firstRune_append d (rest ++ (String.utf8EncodeChar c).drop k), ← hwhole]
        exact (List.append_nil (String.utf8EncodeChar c) ▸ firstRune_append c []).symm
      have hlength := congrArg List.length heq
      rw [List.length_take, List.length_append, String.length_utf8EncodeChar, String.length_utf8EncodeChar,
        ← Option.some.inj hsame] at hlength
      omega

/-! ## What JavaScript reads -/

def replacement : Char := Char.ofNat 0xFFFD

/-- How many bytes are replaced together where no character is: the start of one, or a single byte. -/
def replaced (bytes : List UInt8) : Nat :=
  if startsChar (bytes.take 3) then (bytes.take 3).length
  else if startsChar (bytes.take 2) then (bytes.take 2).length
  else 1

/-- The text of the bytes after `skip` of them. -/
def toTextFrom : (skip : Nat) → List UInt8 → List Char
  | _, [] => []
  | skip + 1, _ :: bytes => toTextFrom skip bytes
  | 0, b :: bytes =>
    match firstRune (b :: bytes) with
    | some c => c :: toTextFrom (c.utf8Size - 1) bytes
    | none => replacement :: toTextFrom (replaced (b :: bytes) - 1) bytes

def toText (bytes : List UInt8) : List Char := toTextFrom 0 bytes

theorem toTextFrom_eq_drop (skip : Nat) (bytes : List UInt8) : toTextFrom skip bytes = toText (bytes.drop skip) := by
  induction bytes generalizing skip with
  | nil => simp [toText, toTextFrom]
  | cons b bytes ih =>
      cases skip with
      | zero => rfl
      | succ skip => rw [toTextFrom, List.drop_succ_cons, ih]

theorem toText_encode_append (c : Char) (rest : List UInt8) :
    toText (String.utf8EncodeChar c ++ rest) = c :: toText rest := by
  have hfirst := firstRune_append c rest
  have hlen := String.length_utf8EncodeChar c
  cases henc : String.utf8EncodeChar c with
  | nil => exact absurd henc String.utf8EncodeChar_ne_nil
  | cons b bytes =>
      rw [henc] at hfirst hlen
      rw [List.cons_append] at hfirst ⊢
      rw [toText, toTextFrom, hfirst]
      simp only
      rw [toTextFrom_eq_drop, ← hlen, List.length_cons, Nat.add_sub_cancel, List.drop_left]

theorem toText_utf8_append (l : List Char) (rest : List UInt8) : toText (utf8 l ++ rest) = l ++ toText rest := by
  induction l with
  | nil => rfl
  | cons c l ih =>
      show toText (String.utf8EncodeChar c ++ utf8 l ++ rest) = c :: (l ++ toText rest)
      rw [List.append_assoc, toText_encode_append, ih]

/-- A part of a character is replaced as one. -/
theorem toText_take {c : Char} {k : Nat} (hpos : 0 < k) (hk : k < c.utf8Size) :
    toText ((String.utf8EncodeChar c).take k) = [replacement] := by
  have hlength : ((String.utf8EncodeChar c).take k).length = k := by
    rw [List.length_take, String.length_utf8EncodeChar]
    omega
  have hsize := c.utf8Size_le_four
  have hfirst := firstRune_take hk
  have hstarts := startsChar_take hpos hk
  have hreplaced : replaced ((String.utf8EncodeChar c).take k) = k := by
    rw [replaced, List.take_of_length_le (by omega : _ ≤ 3), if_pos hstarts, hlength]
  cases hpart : (String.utf8EncodeChar c).take k with
  | nil =>
      rw [hpart, List.length_nil] at hlength
      omega
  | cons b bytes =>
      rw [hpart] at hlength hfirst hreplaced
      rw [List.length_cons] at hlength
      rw [toText, toTextFrom, hfirst, hreplaced]
      simp only
      rw [toTextFrom_eq_drop, List.drop_of_length_le (by omega)]
      rfl

end Wire
