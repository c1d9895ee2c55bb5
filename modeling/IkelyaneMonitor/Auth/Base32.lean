import IkelyaneMonitor.Auth.Totp
import IkelyaneMonitor.Wire.Bits
import IkelyaneMonitor.Wire.Text

/-!
# Base32 and recovery codes (`lib/auth/totp.ts`)

* `letters`, `octets` : what a row of bits is as letters, and letters as bytes;
* `base32EncodeLoop_eq`, `base32DecodeLoop_eq` : the loops compute them, though their accumulator runs over: of its 32 bits
  only the pending ones are ever read;
* `base32Decode_base32Encode` : decoding gives back what was encoded;
* `SameLetters` : texts that differ in case, in spaces and in dashes; `base32Clean_of_sameLetters` : they read the same;
* `base32_law` : all of it, and what it means for recovery codes.
-/

namespace IkelyaneMonitor.Auth
open Wire

/-! ## Bits as letters and letters as bits -/

def letterOf (group : List Bool) : Char := base32Alphabet.getD (ofBits group) 'A'

def letters (l : List Bool) : List Char := (groups 5 l).map letterOf

def bitsOf (c : Char) : List Bool := bits 5 (base32Alphabet.idxOf c)

def octets (l : List Bool) : List UInt8 := (wholes 8 l).map fun group => UInt8.ofNat (ofBits group)

def byteBits (b : UInt8) : List Bool := bits 8 b.toNat

theorem letterOf_mem (group : List Bool) (h : group.length = 5) : letterOf group ∈ base32Alphabet := by
  have hlt : ofBits group < base32Alphabet.length := by
    have hgroup := ofBits_lt group
    rw [h] at hgroup
    exact hgroup
  rw [letterOf, List.getD_eq_getElem _ _ hlt]
  exact List.getElem_mem hlt

theorem bitsOf_letterOf {group : List Bool} (h : group.length = 5) : bitsOf (letterOf group) = group := by
  have hlt : ofBits group < base32Alphabet.length := by
    have hgroup := ofBits_lt group
    rw [h] at hgroup
    exact hgroup
  have hnodup : base32Alphabet.Nodup := by decide
  rw [bitsOf, letterOf, List.getD_eq_getElem _ _ hlt, hnodup.idxOf_getElem, ← h, bits_ofBits]

theorem mem_letters {l : List Bool} {c : Char} (h : c ∈ letters l) : c ∈ base32Alphabet := by
  obtain ⟨group, hgroup, rfl⟩ := List.mem_map.mp h
  exact letterOf_mem group (length_of_mem_groups hgroup)

/-- Letters have the bits they were made of, and zeros behind them. -/
theorem flatMap_letters (l : List Bool) : ∃ pad : List Bool, pad.length < 5 ∧ (letters l).flatMap bitsOf = l ++ pad := by
  obtain ⟨pad, hpad, hflat⟩ := flatten_groups (w := 5) l
  refine ⟨pad, hpad, ?_⟩
  have hback : (groups 5 l).flatMap (fun group => bitsOf (letterOf group)) = (groups 5 l).flatMap id :=
    List.flatMap_congr fun group hgroup => bitsOf_letterOf (length_of_mem_groups hgroup)
  rw [letters, List.flatMap_map, hback, List.flatMap_id, hflat]

/-! ## The loops -/

/-- The letter of the last five bits of a word. -/
theorem base32Letter_eq (value : BitVec 32) : base32Letter value = letterOf (bits 5 value.toNat) := by
  rw [letterOf, ofBits_bits]
  rfl

theorem base32Emit_eq (value : BitVec 32) (k : Nat) (tail : List Bool) :
    (base32Emit value k).1 ++ letters (bits (base32Emit value k).2 value.toNat ++ tail) =
      letters (bits k value.toNat ++ tail) ∧ (base32Emit value k).2 < 5 := by
  induction k using base32Emit.induct value with
  | case1 k ih =>
      have hshift : (value >>> k).toNat = value.toNat >>> k := BitVec.toNat_ushiftRight value k
      have hsplit : bits (k + 5) value.toNat = bits 5 (value >>> k).toNat ++ bits k value.toNat := by
        rw [Nat.add_comm k 5, bits_add, hshift]
      refine ⟨?_, ih.2⟩
      rw [base32Emit]
      simp only
      rw [List.cons_append, ih.1, hsplit, List.append_assoc, letters, letters, groups_append (length_bits 5 _), List.map_cons,
        base32Letter_eq]
  | case2 k hk =>
      rw [base32Emit.eq_2 value k hk]
      refine ⟨rfl, ?_⟩
      by_contra hle
      exact hk (k - 5) (by omega)

theorem base32EncodeLoop_eq (bytes : List UInt8) (value : BitVec 32) {k : Nat} (hk : k < 5) :
    base32EncodeLoop bytes value k = letters (bits k value.toNat ++ bytes.flatMap byteBits) := by
  induction bytes generalizing value k with
  | nil =>
      rw [base32EncodeLoop, List.flatMap_nil, List.append_nil]
      split
      · rename_i hpos
        have hpush := bits_push (k := k) (s := 5 - k) (n := 0) value (Nat.two_pow_pos _) (by omega)
        have hsum : k + (5 - k) = 5 := by omega
        rw [BitVec.or_zero, hsum, bits_zero] at hpush
        have hne : bits k value.toNat ≠ [] := by
          intro hnil
          have hlen := length_bits k value.toNat
          rw [hnil, List.length_nil] at hlen
          omega
        rw [letters, groups_short hne (by rw [length_bits]; exact hk), length_bits, base32Letter_eq, hpush,
          List.map_singleton]
      · rename_i hzero
        obtain rfl : k = 0 := by omega
        rw [bits, letters, groups, dif_neg (by decide), if_pos rfl, List.map_nil]
  | cons byte bytes ih =>
      have hpush : bits (k + 8) (value <<< 8 ||| BitVec.ofNat 32 byte.toNat).toNat = bits k value.toNat ++ byteBits byte :=
        bits_push value byte.toNat_lt (by omega)
      obtain ⟨hemit, hrest⟩ := base32Emit_eq (value <<< 8 ||| BitVec.ofNat 32 byte.toNat) (k + 8) (bytes.flatMap byteBits)
      rw [base32EncodeLoop, ih _ hrest, hemit, hpush, List.flatMap_cons, List.append_assoc]

theorem base32DecodeLoop_eq {cs : List Char} (hcs : ∀ c ∈ cs, c ∈ base32Alphabet) (value : BitVec 32) {k : Nat} (hk : k < 8) :
    base32DecodeLoop cs value k = octets (bits k value.toNat ++ cs.flatMap bitsOf) := by
  induction cs generalizing value k with
  | nil =>
      rw [base32DecodeLoop, List.flatMap_nil, List.append_nil, octets, wholes_short (by rw [length_bits]; exact hk)]
      rfl
  | cons c cs ih =>
      have hindex : base32Alphabet.idxOf c < 2 ^ 5 := List.idxOf_lt_length_of_mem (hcs c List.mem_cons_self)
      have hpush := bits_push (k := k) value hindex (by omega)
      have ih := fun v (r : Nat) (hr : r < 8) => ih (fun d hd => hcs d (List.mem_cons_of_mem c hd)) v hr
      rw [base32DecodeLoop, List.flatMap_cons, ← List.append_assoc, bitsOf, ← hpush]
      generalize value <<< 5 ||| BitVec.ofNat 32 (base32Alphabet.idxOf c) = value
      split
      · rename_i hle
        have hshift : (value >>> (k + 5 - 8)).toNat = value.toNat >>> (k + 5 - 8) := BitVec.toNat_ushiftRight value _
        have hsplit : bits (k + 5) value.toNat = bits 8 (value >>> (k + 5 - 8)).toNat ++ bits (k + 5 - 8) value.toNat := by
          rw [hshift, ← bits_add]
          congr 1
          omega
        rw [ih value _ (by omega), hsplit, List.append_assoc, octets, octets, wholes_append (length_bits 8 _), List.map_cons,
          ofBits_bits]
        congr 1
        apply UInt8.toNat_inj.mp
        simp
      · exact ih value _ (by omega)

/-! ## Case, spaces and dashes -/

/-- What a character is after `toUpperCase` and the removal of what is not in the alphabet. -/
def cleaned (c : Char) : List Char := (Text.upperAscii c).filter isBase32

theorem base32Clean_eq (l : List Char) : base32Clean l = l.flatMap cleaned := List.filter_flatMap

theorem cleaned_letter {c : Char} (h : c ∈ base32Alphabet) : cleaned c = [c] := by
  have hall : base32Alphabet.all (fun c => decide (c.toNat < 0x80) && c.toUpper == c) = true := by decide
  have hc := List.all_eq_true.mp hall c h
  rw [Bool.and_eq_true, decide_eq_true_eq, beq_iff_eq] at hc
  rw [cleaned, Text.upperAscii, if_pos hc.1, hc.2, List.filter_singleton, isBase32, List.contains_iff_mem.mpr h]
  rfl

theorem base32Clean_letters {l : List Char} (h : ∀ c ∈ l, c ∈ base32Alphabet) : base32Clean l = l := by
  rw [base32Clean_eq, List.flatMap_congr fun c hc => cleaned_letter (h c hc)]
  exact List.flatMap_singleton' l

theorem cleaned_toLower (c : Char) : cleaned c.toLower = cleaned c := by
  by_cases hascii : c.toNat < 128
  · have hall : ∀ n < 128, cleaned (Char.ofNat n).toLower = cleaned (Char.ofNat n) := by decide +kernel
    exact ascii_of_all (P := fun c => cleaned c.toLower = cleaned c) hall hascii
  · have hsame : c.toLower = c := by
      unfold Char.toLower
      split
      · rename_i hupper
        have hle : c.toNat ≤ 90 := UInt32.le_iff_toNat_le.mp hupper.2
        omega
      · rfl
    rw [hsame]

/-- No character of white space becomes a letter. -/
theorem cleaned_space {c : Char} (h : Text.isSpace c = true) : cleaned c = [] := by
  by_cases hascii : c.toNat < 128
  · have hall : ∀ n < 128, Text.isSpace (Char.ofNat n) = true → cleaned (Char.ofNat n) = [] := by decide +kernel
    exact ascii_of_all (P := fun c => Text.isSpace c = true → cleaned c = []) hall hascii h
  · have hnone : Text.upperAscii c = [] := by
      simp only [Text.isSpace, Bool.or_eq_true, Bool.and_eq_true, decide_eq_true_eq, beq_iff_eq] at h
      unfold Text.upperAscii
      rw [if_neg hascii]
      split <;> first | rfl | omega
    rw [cleaned, hnone, List.filter_nil]

/-- The letters of a text, in lower case: spaces and dashes are not among them. -/
def lowerLetters (s : String) : List Char := (s.toList.filter fun c => c ≠ ' ' && c ≠ '-').map Char.toLower

/-- Texts that differ in case, in spaces and in dashes. -/
def SameLetters (s t : String) : Prop := lowerLetters s = lowerLetters t

theorem base32Clean_lowerLetters (s : String) : base32Clean (lowerLetters s) = base32Clean s.toList := by
  rw [base32Clean_eq, base32Clean_eq, lowerLetters, List.flatMap_map]
  induction s.toList with
  | nil => rfl
  | cons c cs ih =>
      rw [List.filter_cons]
      split
      · rw [List.flatMap_cons, List.flatMap_cons, ih, cleaned_toLower]
      · rename_i hsep
        have hnone : cleaned c = [] := by
          simp only [Bool.and_eq_true, decide_eq_true_eq, not_and_or, not_not, ne_eq] at hsep
          apply hsep.elim
          · rintro rfl
            decide
          · rintro rfl
            decide
        rw [List.flatMap_cons, hnone, List.nil_append, ih]

theorem base32Clean_of_sameLetters {s t : String} (h : SameLetters s t) : base32Clean s.toList = base32Clean t.toList := by
  rw [← base32Clean_lowerLetters, h, base32Clean_lowerLetters]

theorem base32Decode_of_sameLetters {s t : String} (h : SameLetters s t) : base32Decode s = base32Decode t := by
  rw [base32Decode, base32Decode, base32Clean_of_sameLetters h]

/-- What is trimmed would have been removed. -/
theorem normalizeRecoveryCode_eq (s : String) : normalizeRecoveryCode s = String.ofList (base32Clean s.toList) := by
  have hblank : ∀ l : List Char, (∀ c ∈ l, Text.isSpace c = true) → l.flatMap cleaned = [] := by
    intro l hl
    rw [List.flatMap_eq_nil_iff]
    exact fun c hc => cleaned_space (hl c hc)
  obtain ⟨before, after, hbefore, hafter, hl⟩ := trimWith_spec Text.isSpace s.toList
  have htrim : (Text.trim s).toList = trimWith Text.isSpace s.toList := String.toList_ofList
  rw [normalizeRecoveryCode, htrim, base32Clean_eq, base32Clean_eq]
  conv_rhs => rw [hl]
  rw [List.flatMap_append, List.flatMap_append, hblank before hbefore, hblank after hafter, List.nil_append, List.append_nil]

/-! ## Round trips -/

theorem base32Encode_letters (bytes : List UInt8) : (base32Encode bytes).toList = letters (bytes.flatMap byteBits) := by
  rw [base32Encode, String.toList_ofList, base32EncodeLoop_eq bytes 0 (by decide), bits, List.nil_append]

theorem mem_base32Encode {bytes : List UInt8} {c : Char} (h : c ∈ (base32Encode bytes).toList) : c ∈ base32Alphabet := by
  rw [base32Encode_letters] at h
  exact mem_letters h

theorem length_base32Encode (bytes : List UInt8) : (base32Encode bytes).toList.length = 8 * bytes.length ⌈/⌉ 5 := by
  have hbits : (bytes.flatMap byteBits).length = 8 * bytes.length := by
    rw [List.length_flatMap, List.map_congr_left fun b _ => length_bits 8 b.toNat, List.map_const', List.sum_replicate,
      smul_eq_mul, Nat.mul_comm]
  rw [base32Encode_letters, letters, List.length_map, length_groups, hbits]

theorem base32Decode_base32Encode (bytes : List UInt8) : base32Decode (base32Encode bytes) = bytes := by
  obtain ⟨pad, hpad, hback⟩ := flatMap_letters (bytes.flatMap byteBits)
  have hbyte : ∀ b : UInt8, UInt8.ofNat (ofBits (byteBits b)) = b := by
    intro b
    rw [byteBits, ofBits_bits, Nat.mod_eq_of_lt b.toNat_lt, UInt8.ofNat_toNat]
  rw [base32Decode, base32Clean_letters fun c hc => mem_base32Encode hc, base32Encode_letters,
    base32DecodeLoop_eq (fun c hc => mem_letters hc) 0 (by decide), bits, List.nil_append, hback, octets,
    wholes_flatMap byteBits (fun b => length_bits 8 b.toNat) bytes (by omega), List.map_map]
  simp only [Function.comp_def, hbyte, List.map_id']

theorem flatten_fours (l : List Char) : (fours l).flatten = l := by
  induction l using fours.induct with
  | case1 a b c d cs ih => rw [fours, List.flatten_cons, ih]; rfl
  | case2 => rfl
  | case3 cs h hne => rw [fours.eq_3 cs h hne, List.flatten_singleton]

theorem flatMap_intercalate {α β : Type} {f : α → List β} {sep : α} (h : f sep = []) (ls : List (List α)) :
    (List.intercalate [sep] ls).flatMap f = ls.flatten.flatMap f := by
  rw [List.intercalate]
  induction ls with
  | nil => rfl
  | cons a ls ih =>
      cases ls with
      | nil => rfl
      | cons b ls =>
          rw [List.intersperse_cons_cons, List.flatten_cons, List.flatten_cons, List.flatMap_append, List.flatMap_append, ih,
            List.flatten_cons (l := a), List.flatMap_append, List.flatMap_singleton, h, List.nil_append]

/-- What a recovery code is compared by. -/
theorem base32Clean_recoveryCode (random : List UInt8) :
    base32Clean (generateRecoveryCode random).toList = (base32Encode random).toList.take 16 := by
  have hdash : cleaned '-' = [] := by decide
  rw [generateRecoveryCode, String.toList_ofList, base32Clean_eq, flatMap_intercalate hdash, flatten_fours, ← base32Clean_eq]
  exact base32Clean_letters fun c hc => mem_base32Encode (List.mem_of_mem_take hc)

/-- The code has all the letters of its ten bytes. -/
theorem normalizeRecoveryCode_inj {a b : List UInt8} (ha : a.length = 10) (hb : b.length = 10)
    (h : normalizeRecoveryCode (generateRecoveryCode a) = normalizeRecoveryCode (generateRecoveryCode b)) : a = b := by
  have hall : ∀ r : List UInt8, r.length = 10 → (base32Encode r).toList.take 16 = (base32Encode r).toList := by
    intro r hr
    apply List.take_of_length_le
    rw [length_base32Encode, hr]
    decide
  rw [normalizeRecoveryCode_eq, normalizeRecoveryCode_eq, base32Clean_recoveryCode, base32Clean_recoveryCode, hall a ha,
    hall b hb, String.ofList_toList, String.ofList_toList] at h
  rw [← base32Decode_base32Encode a, h, base32Decode_base32Encode]

/-- `randomBytes(10)`. -/
abbrev RecoveryBytes : Type := {r : List UInt8 // r.length = 10}

/-- Encoding and decoding, whatever the length; texts that read the same; and recovery codes, which are told apart by any of
the texts they may be typed as. -/
theorem base32_law :
    (∀ bytes : List UInt8,
      base32Decode (base32Encode bytes) = bytes ∧ (∀ c ∈ (base32Encode bytes).toList, c ∈ base32Alphabet) ∧
        (base32Encode bytes).toList.length = 8 * bytes.length ⌈/⌉ 5) ∧
    (∀ s t : String, SameLetters s t → base32Decode s = base32Decode t) ∧
    (∀ (random : RecoveryBytes) (typed : String), SameLetters typed (generateRecoveryCode random) →
      normalizeRecoveryCode typed = normalizeRecoveryCode (generateRecoveryCode random)) ∧
    ∀ a b : RecoveryBytes,
      (generateRecoveryCode a ≠ generateRecoveryCode b ↔ a ≠ b) ∧
        (a ≠ b → normalizeRecoveryCode (generateRecoveryCode a) ≠ normalizeRecoveryCode (generateRecoveryCode b)) := by
  refine ⟨?_, ?_, ?_, ?_⟩
  · intro bytes
    exact ⟨base32Decode_base32Encode bytes, fun c hc => mem_base32Encode hc, length_base32Encode bytes⟩
  · intro s t h
    exact base32Decode_of_sameLetters h
  · intro random typed h
    rw [normalizeRecoveryCode_eq, normalizeRecoveryCode_eq, base32Clean_of_sameLetters h]
  · intro a b
    have hinj : normalizeRecoveryCode (generateRecoveryCode a) = normalizeRecoveryCode (generateRecoveryCode b) → a = b :=
      fun h => Subtype.ext (normalizeRecoveryCode_inj a.2 b.2 h)
    refine ⟨⟨?_, ?_⟩, ?_⟩
    · intro hcodes hsame
      rw [hsame] at hcodes
      exact hcodes rfl
    · intro hne hcodes
      exact hne (hinj (congrArg normalizeRecoveryCode hcodes))
    · intro hne h
      exact hne (hinj h)

end IkelyaneMonitor.Auth
