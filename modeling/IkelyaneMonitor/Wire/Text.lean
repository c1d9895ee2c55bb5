import Mathlib

/-!
# Characters and bytes

* `trimWith`, `cut` : the text without blanks around it; the two sides of the first separator (`trimWith_spec`,
  `cut_append`, `eq_of_cut`);
* `hexEncode`, `hexDecode` : two digits a byte, read in either case (`hexDecode_hexEncode`, `hexDecode_map_toLower`);
* `parseInt64` : a decimal number of 64 bits (`parseInt64_repr`);
* `utf8` : the bytes of a text; `runes` : the characters of any bytes, `none` for each byte that belongs to none
  (`runes_utf8`, `units_decode_le`);
* `units` : the length of a text in UTF-16 units.
-/

namespace Wire

/-! ## Blanks and separators -/

def trimWith (blank : Char → Bool) (l : List Char) : List Char :=
  ((l.dropWhile blank).reverse.dropWhile blank).reverse

theorem trimWith_spec (blank : Char → Bool) (l : List Char) :
    ∃ before after, (∀ c ∈ before, blank c = true) ∧ (∀ c ∈ after, blank c = true) ∧
      l = before ++ trimWith blank l ++ after := by
  refine ⟨l.takeWhile blank, ((l.dropWhile blank).reverse.takeWhile blank).reverse, ?_, ?_, ?_⟩
  · intro c hc
    exact List.mem_takeWhile_imp hc
  · intro c hc
    exact List.mem_takeWhile_imp (List.mem_reverse.mp hc)
  · have hback : (l.dropWhile blank).reverse.takeWhile blank ++ (l.dropWhile blank).reverse.dropWhile blank =
        (l.dropWhile blank).reverse := List.takeWhile_append_dropWhile
    have hrest := congrArg List.reverse hback
    rw [List.reverse_append, List.reverse_reverse] at hrest
    rw [trimWith, List.append_assoc, hrest, List.takeWhile_append_dropWhile]

theorem trimWith_eq_nil {blank : Char → Bool} {l : List Char} : trimWith blank l = [] ↔ ∀ c ∈ l, blank c = true := by
  constructor
  · intro h c hc
    obtain ⟨before, after, hbefore, hafter, hl⟩ := trimWith_spec blank l
    rw [h, List.append_nil] at hl
    rw [hl] at hc
    exact (List.mem_append.mp hc).elim (hbefore c) (hafter c)
  · intro h
    rw [trimWith, List.dropWhile_eq_nil_iff.mpr h]
    rfl

theorem trimWith_eq_self {blank : Char → Bool} {l : List Char} (h : ∀ c ∈ l, blank c = false) :
    trimWith blank l = l := by
  have hdrop : ∀ l' : List Char, (∀ c ∈ l', blank c = false) → l'.dropWhile blank = l' := by
    intro l' hl'
    cases l' with
    | nil => rfl
    | cons c cs => rw [List.dropWhile_cons, hl' c List.mem_cons_self, if_neg Bool.false_ne_true]
  rw [trimWith, hdrop l h, hdrop l.reverse fun c hc => h c (List.mem_reverse.mp hc), List.reverse_reverse]

/-- The two sides of the first `sep`. -/
def cut (sep : Char) : List Char → Option (List Char × List Char)
  | [] => none
  | c :: cs => if c = sep then some ([], cs) else (cut sep cs).map fun r => (c :: r.1, r.2)

theorem cut_append {sep : Char} {a : List Char} (h : sep ∉ a) (b : List Char) :
    cut sep (a ++ sep :: b) = some (a, b) := by
  induction a with
  | nil => simp [cut]
  | cons c a ih =>
      rw [List.mem_cons, not_or] at h
      rw [List.cons_append, cut, if_neg (Ne.symm h.1), ih h.2]
      rfl

theorem eq_of_cut {sep : Char} {l a b : List Char} (h : cut sep l = some (a, b)) : l = a ++ sep :: b := by
  induction l generalizing a with
  | nil => cases h
  | cons c cs ih =>
      rw [cut] at h
      split at h
      · rename_i hc
        cases h
        rw [hc, List.nil_append]
      · obtain ⟨⟨a', b'⟩, hr, heq⟩ := Option.map_eq_some_iff.mp h
        cases heq
        rw [ih hr, List.cons_append]

/-! ## Hexadecimal -/

def hexValue (c : Char) : Option Nat :=
  let n := c.toNat
  if 48 ≤ n ∧ n ≤ 57 then some (n - 48)
  else if 97 ≤ n ∧ n ≤ 102 then some (n - 87)
  else if 65 ≤ n ∧ n ≤ 70 then some (n - 55)
  else none

def hexPair (b : UInt8) : List Char := [Nat.digitChar (b.toNat / 16), Nat.digitChar (b.toNat % 16)]

/-- Two lower-case digits a byte. -/
def hexEncode (bytes : List UInt8) : List Char := bytes.flatMap hexPair

def hexDecode : List Char → Option (List UInt8)
  | [] => some []
  | [_] => none
  | a :: b :: rest =>
    match hexValue a, hexValue b, hexDecode rest with
    | some high, some low, some bytes => some (UInt8.ofNat (16 * high + low) :: bytes)
    | _, _, _ => none

/-- A lower-case hexadecimal digit: `[0-9a-f]`. -/
def isLowerHex (c : Char) : Bool := c.isDigit || ('a' ≤ c && c ≤ 'f')

/-- A fact about ASCII characters, checked on each of them. -/
theorem ascii_of_all {P : Char → Prop} (h : ∀ n < 128, P (Char.ofNat n)) {c : Char} (hc : c.toNat < 128) : P c := by
  have hp := h c.toNat hc
  rwa [Char.ofNat_toNat] at hp

theorem lt_of_isLowerHex {c : Char} (h : isLowerHex c = true) : c.toNat < 128 := by
  simp only [isLowerHex, Char.isDigit, Bool.or_eq_true, Bool.and_eq_true, decide_eq_true_eq] at h
  rcases h with h | h
  · have hle : c.toNat ≤ 57 := UInt32.le_iff_toNat_le.mp h.2
    omega
  · have hle : c.toNat ≤ 102 := UInt32.le_iff_toNat_le.mp h.2
    omega

theorem isLowerHex_of_isDigit {c : Char} (h : c.isDigit = true) : isLowerHex c = true := by
  rw [isLowerHex, h, Bool.true_or]

theorem hexValue_digitChar : ∀ n < 16, hexValue (Nat.digitChar n) = some n := by decide

theorem isLowerHex_digitChar : ∀ n < 16, isLowerHex (Nat.digitChar n) = true := by decide

theorem hexDecode_hexEncode (bytes : List UInt8) : hexDecode (hexEncode bytes) = some bytes := by
  induction bytes with
  | nil => rfl
  | cons b bytes ih =>
      have hb : b.toNat < 256 := b.toNat_lt
      have hhigh := hexValue_digitChar (b.toNat / 16) (by omega)
      have hlow := hexValue_digitChar (b.toNat % 16) (by omega)
      rw [hexEncode, List.flatMap_cons, hexPair, List.cons_append, List.cons_append, List.nil_append, hexDecode, hhigh,
        hlow, ← hexEncode, ih]
      simp only
      rw [Nat.div_add_mod, UInt8.ofNat_toNat]

theorem length_hexEncode (bytes : List UInt8) : (hexEncode bytes).length = 2 * bytes.length := by
  induction bytes with
  | nil => rfl
  | cons b bytes ih =>
      rw [hexEncode, List.flatMap_cons, List.length_append, ← hexEncode, ih, hexPair]
      simp only [List.length_cons, List.length_nil]
      omega

theorem isLowerHex_of_mem_hexEncode {bytes : List UInt8} {c : Char} (h : c ∈ hexEncode bytes) :
    isLowerHex c = true := by
  obtain ⟨b, -, hc⟩ := List.mem_flatMap.mp h
  have hb : b.toNat < 256 := b.toNat_lt
  rcases List.mem_pair.mp hc with rfl | rfl
  · exact isLowerHex_digitChar _ (by omega)
  · exact isLowerHex_digitChar _ (by omega)

theorem hexValue_toLower (c : Char) : hexValue c.toLower = hexValue c := by
  unfold Char.toLower
  split
  · rename_i h
    have hlow : 65 ≤ c.toNat := UInt32.le_iff_toNat_le.mp h.1
    have hhigh : c.toNat ≤ 90 := UInt32.le_iff_toNat_le.mp h.2
    have hn : (c.val + ('a'.val - 'A'.val)).toNat = c.toNat + 32 := by
      have hd : ('a'.val - 'A'.val).toNat = 32 := rfl
      rw [UInt32.toNat_add, hd]
      exact Nat.mod_eq_of_lt (by rw [← Char.toNat]; omega)
    simp only [hexValue, Char.toNat, hn]
    simp only [Char.toNat] at hlow hhigh
    split_ifs <;> first | omega | exact congrArg some (by omega) | rfl
  · rfl

theorem hexDecode_map_toLower : ∀ l : List Char, hexDecode (l.map Char.toLower) = hexDecode l
  | [] => rfl
  | [_] => rfl
  | a :: b :: rest => by
      rw [List.map_cons, List.map_cons, hexDecode, hexDecode, hexValue_toLower, hexValue_toLower,
        hexDecode_map_toLower rest]

/-! ## Decimal numbers -/

/-- A decimal number with an optional sign that fits 64 bits. -/
def parseInt64 (l : List Char) : Option Int :=
  let negative := l.head? == some '-'
  let digits := if negative || l.head? == some '+' then l.tail else l
  if digits.isEmpty || !digits.all Char.isDigit then none
  else
    let n := Nat.ofDigitChars 10 digits 0
    if negative then if n ≤ 2 ^ 63 then some (-n) else none else if n < 2 ^ 63 then some n else none

theorem isDigit_of_mem_repr {n : Nat} {c : Char} (h : c ∈ n.repr.toList) : c.isDigit = true := by
  rw [Nat.toList_repr] at h
  exact Nat.isDigit_of_mem_toDigits (by decide) (by decide) h

theorem ofDigitChars_repr (n : Nat) : Nat.ofDigitChars 10 n.repr.toList 0 = n := by
  rw [Nat.toList_repr, Nat.ofDigitChars_ten_toDigits]

theorem repr_injective {a b : Int} (h : a.repr = b.repr) : a = b := by
  have hnat : ∀ n m : Nat, n.repr = m.repr → n = m := by
    intro n m hnm
    rw [← ofDigitChars_repr n, ← ofDigitChars_repr m, hnm]
  have hsign : ∀ n m : Nat, n.repr ≠ "-" ++ m.repr := by
    intro n m hnm
    have hmem : '-' ∈ n.repr.toList := by
      rw [hnm, String.toList_append]
      exact List.mem_append_left _ (List.mem_singleton.mpr rfl)
    have hd := isDigit_of_mem_repr hmem
    cases hd
  cases a with
  | ofNat n =>
      cases b with
      | ofNat m => rw [hnat n m h]
      | negSucc m => exact absurd h (hsign n (m + 1))
  | negSucc n =>
      cases b with
      | ofNat m => exact absurd h.symm (hsign m (n + 1))
      | negSucc m =>
          have hm := hnat (n + 1) (m + 1) ((String.append_right_inj "-").mp h)
          rw [Nat.succ.inj hm]

theorem parseInt64_repr {n : Nat} (h : n < 2 ^ 63) : parseInt64 n.repr.toList = some (n : Int) := by
  have hdigit : ∀ c ∈ n.repr.toList, c.isDigit = true := fun c => isDigit_of_mem_repr
  have hne : n.repr.toList ≠ [] := by
    rw [Nat.toList_repr]
    exact Nat.toDigits_ne_nil
  have hsign : ∀ sign : Char, sign.isDigit = false → (n.repr.toList.head? == some sign) = false := by
    intro sign hs
    cases hl : n.repr.toList with
    | nil => rfl
    | cons c cs =>
        have hc := hdigit c (hl ▸ List.mem_cons_self)
        rw [List.head?_cons, Option.some_beq_some, beq_eq_false_iff_ne]
        rintro rfl
        rw [hs] at hc
        cases hc
  have hok : ¬ (n.repr.toList.isEmpty || !n.repr.toList.all Char.isDigit) = true := by simpa [hne] using hdigit
  unfold parseInt64
  simp only [hsign '-' rfl, hsign '+' rfl, Bool.or_false, if_neg Bool.false_ne_true, if_neg hok, ofDigitChars_repr,
    if_pos h]

/-! ## UTF-8 -/

def utf8 (l : List Char) : List UInt8 := l.flatMap String.utf8EncodeChar

/-- The first character of the bytes, when they start with one. -/
def firstRune (bytes : List UInt8) : Option Char := bytes.toByteArray.utf8DecodeChar? 0

/-- The characters of the bytes after `skip` of them; `none` for a byte that is no part of one. -/
def runesFrom : (skip : Nat) → List UInt8 → List (Option Char)
  | _, [] => []
  | skip + 1, _ :: bytes => runesFrom skip bytes
  | 0, b :: bytes =>
    match firstRune (b :: bytes) with
    | some c => some c :: runesFrom (c.utf8Size - 1) bytes
    | none => none :: runesFrom 0 bytes

def runes (bytes : List UInt8) : List (Option Char) := runesFrom 0 bytes

/-- UTF-16 units. -/
def units (l : List Char) : Nat := (l.map fun c => if c.toNat < 0x10000 then 1 else 2).sum

theorem length_utf8 (l : List Char) : (utf8 l).length = (l.map Char.utf8Size).sum := by
  rw [utf8, List.length_flatMap]
  simp only [String.length_utf8EncodeChar]

theorem length_utf8_cons (c : Char) (l : List Char) : (utf8 (c :: l)).length = c.utf8Size + (utf8 l).length := by
  rw [length_utf8, length_utf8, List.map_cons, List.sum_cons]

theorem utf8ByteSize_eq (s : String) : s.utf8ByteSize = (utf8 s.toList).length := by
  rw [← String.size_toByteArray, ← String.utf8Encode_toList, List.utf8Encode, utf8]
  simp

theorem utf8_append (a b : List Char) : utf8 (a ++ b) = utf8 a ++ utf8 b := List.flatMap_append

/-- Bytes that start with a character are its encoding and more. -/
theorem eq_of_firstRune {bytes : List UInt8} {c : Char} (h : firstRune bytes = some c) :
    ∃ rest, bytes = String.utf8EncodeChar c ++ rest := by
  have henc := String.toByteArray_utf8EncodeChar_of_utf8DecodeChar?_eq_some h
  refine ⟨bytes.drop c.utf8Size, ?_⟩
  have hext : bytes.toByteArray.extract 0 c.utf8Size = (bytes.take c.utf8Size).toByteArray := by
    apply ByteArray.ext
    simp [ByteArray.data_extract]
  rw [hext, List.toByteArray_inj] at henc
  rw [henc, List.take_append_drop]

theorem firstRune_append (c : Char) (rest : List UInt8) : firstRune (String.utf8EncodeChar c ++ rest) = some c := by
  rw [firstRune, List.toByteArray_append]
  exact ByteArray.utf8DecodeChar?_utf8EncodeChar_append

theorem runesFrom_drop (skip : Nat) (bytes : List UInt8) : runesFrom skip bytes = runes (bytes.drop skip) := by
  induction bytes generalizing skip with
  | nil =>
      rw [List.drop_nil]
      cases skip <;> rfl
  | cons b bytes ih =>
      cases skip with
      | zero => rfl
      | succ skip => rw [runesFrom, List.drop_succ_cons, ih]

/-- Bytes that start with a character: that one, then the rest. -/
theorem runes_encode_append (c : Char) (rest : List UInt8) :
    runes (String.utf8EncodeChar c ++ rest) = some c :: runes rest := by
  have hfirst := firstRune_append c rest
  have hlen := String.length_utf8EncodeChar c
  cases henc : String.utf8EncodeChar c with
  | nil => exact absurd henc String.utf8EncodeChar_ne_nil
  | cons b bs =>
      rw [henc] at hfirst hlen
      rw [List.cons_append] at hfirst ⊢
      rw [runes, runesFrom, hfirst]
      simp only
      rw [runesFrom_drop, ← hlen, List.length_cons, Nat.add_sub_cancel, List.drop_left]

theorem runes_utf8 (l : List Char) : runes (utf8 l) = l.map some := by
  induction l with
  | nil => rfl
  | cons c l ih => rw [utf8, List.flatMap_cons, runes_encode_append, ← utf8, ih, List.map_cons]

/-- A byte that starts no character stands for itself. -/
theorem runes_cons_of_none {b : UInt8} {bytes : List UInt8} (h : firstRune (b :: bytes) = none) :
    runes (b :: bytes) = none :: runes bytes := by
  rw [runes, runesFrom, h]
  rfl

/-- Bytes are read one character, or one stray byte, at a time. -/
theorem runes_induction {P : List UInt8 → Prop} (nil : P [])
    (char : ∀ c rest, P rest → P (String.utf8EncodeChar c ++ rest))
    (stray : ∀ b rest, firstRune (b :: rest) = none → P rest → P (b :: rest)) (bytes : List UInt8) : P bytes := by
  induction hn : bytes.length using Nat.strong_induction_on generalizing bytes with
  | _ n ih =>
      cases bytes with
      | nil => exact nil
      | cons b rest =>
          cases hfirst : firstRune (b :: rest) with
          | none => exact stray b rest hfirst (ih _ (by rw [← hn]; exact Nat.lt_succ_self _) rest rfl)
          | some c =>
              obtain ⟨rest', heq⟩ := eq_of_firstRune hfirst
              rw [heq]
              refine char c rest' (ih _ ?_ rest' rfl)
              have hpos := c.utf8Size_pos
              rw [← hn, heq, List.length_append, String.length_utf8EncodeChar]
              omega

theorem utf8_injective {a b : List Char} (h : utf8 a = utf8 b) : a = b := by
  have hr := congrArg runes h
  rw [runes_utf8, runes_utf8] at hr
  exact List.map_injective_iff.mpr (fun _ _ => Option.some.inj) hr

/-- What a reader sees that puts `U+FFFD` in the place of each stray byte. -/
def decode (bytes : List UInt8) : List Char := (runes bytes).map fun r => r.getD (Char.ofNat 0xFFFD)

theorem decode_utf8 (l : List Char) : decode (utf8 l) = l := by
  rw [decode, runes_utf8, List.map_map]
  exact List.map_id' l

theorem units_cons (c : Char) (l : List Char) : units (c :: l) = (if c.toNat < 0x10000 then 1 else 2) + units l := by
  rw [units, List.map_cons, List.sum_cons, ← units]

theorem units_append (a b : List Char) : units (a ++ b) = units a + units b := by
  rw [units, List.map_append, List.sum_append, ← units, ← units]

theorem units_pos {l : List Char} : 1 ≤ units l ↔ l ≠ [] := by
  cases l with
  | nil => simp [units]
  | cons c l =>
      have hpos : 1 ≤ units (c :: l) := by
        rw [units_cons]
        split <;> omega
      simpa using hpos

theorem units_trimWith_le (blank : Char → Bool) (l : List Char) : units (trimWith blank l) ≤ units l := by
  obtain ⟨before, after, -, -, hl⟩ := trimWith_spec blank l
  have hunits := congrArg units hl
  rw [units_append, units_append] at hunits
  omega

theorem units_le (l : List Char) : units l ≤ 2 * l.length := by
  induction l with
  | nil => exact Nat.le_refl 0
  | cons c l ih =>
      rw [units_cons, List.length_cons]
      split <;> omega

theorem units_le_utf8Size (c : Char) : (if c.toNat < 0x10000 then 1 else 2) ≤ c.utf8Size := by
  have hpos := c.utf8Size_pos
  split
  · exact hpos
  · rename_i h
    have hne : c.utf8Size ≠ 1 := by
      intro h1
      have hle : c.toNat ≤ 127 := UInt32.le_iff_toNat_le.mp (Char.utf8Size_eq_one_iff.mp h1)
      omega
    omega

/-- A text has no more UTF-16 units than it has bytes. -/
theorem units_decode_le (bytes : List UInt8) : units (decode bytes) ≤ bytes.length := by
  induction bytes using runes_induction with
  | nil => exact Nat.le_refl 0
  | char c rest ih =>
      rw [decode, runes_encode_append, List.map_cons, ← decode, Option.getD_some, units_cons, List.length_append,
        String.length_utf8EncodeChar]
      exact Nat.add_le_add (units_le_utf8Size c) ih
  | stray b rest h ih =>
      rw [decode, runes_cons_of_none h, List.map_cons, ← decode, Option.getD_none, units_cons, List.length_cons]
      have : (if (Char.ofNat 0xFFFD).toNat < 0x10000 then 1 else 2) = 1 := by decide
      omega

end Wire
