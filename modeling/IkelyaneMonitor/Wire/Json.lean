import Mathlib.Data.List.Nodup
import IkelyaneMonitor.Wire.Text

/-!
# JSON texts

Values whose strings are of a type of their own, so that a writer which holds bytes and a reader which holds characters
share one form, and whose numbers are whole in the texts.

* `Json`, `Json.map`, `Json.get?` : values, other strings in their place, the field of a name;
* `escapeWith` : how a character is written, with the further characters a writer puts as `\uXXXX`; `readChar` reads it back;
* `render`, `parse` : texts of values, with the writing of strings as a parameter;
* `parse_render` : the reader gets what the writer meant, whenever it gets what each string meant.

The reader takes the texts of the language, but for fractions, exponents and pairs of surrogates, which the writers here do
not use.
-/

namespace Wire

inductive Json (σ ν : Type) where
  | null
  | bool (b : Bool)
  | num (n : ν)
  | str (text : σ)
  | arr (items : List (Json σ ν))
  | obj (fields : List (List Char × Json σ ν))

namespace Json
variable {σ τ ν : Type}

mutual

def map (f : σ → τ) : Json σ ν → Json τ ν
  | .null => .null
  | .bool b => .bool b
  | .num n => .num n
  | .str text => .str (f text)
  | .arr items => .arr (mapItems f items)
  | .obj fields => .obj (mapFields f fields)

def mapItems (f : σ → τ) : List (Json σ ν) → List (Json τ ν)
  | [] => []
  | item :: items => map f item :: mapItems f items

def mapFields (f : σ → τ) : List (List Char × Json σ ν) → List (List Char × Json τ ν)
  | [] => []
  | (key, value) :: fields => (key, map f value) :: mapFields f fields

end

mutual

theorem map_id (j : Json σ ν) : j.map id = j := by
  match j with
  | .null => rw [map]
  | .bool b => rw [map]
  | .num n => rw [map]
  | .str text => rw [map, id_eq]
  | .arr items => rw [map, mapItems_id items]
  | .obj fields => rw [map, mapFields_id fields]

theorem mapItems_id (items : List (Json σ ν)) : mapItems id items = items := by
  match items with
  | [] => rw [mapItems]
  | item :: items => rw [mapItems, map_id item, mapItems_id items]

theorem mapFields_id (fields : List (List Char × Json σ ν)) : mapFields id fields = fields := by
  match fields with
  | [] => rw [mapFields]
  | (key, value) :: fields => rw [mapFields, map_id value, mapFields_id fields]

end

/-- The field of a name; of several the last counts. -/
def get? (name : String) : Json σ ν → Option (Json σ ν)
  | .obj fields => ((fields.filter fun f => f.1 = name.toList).getLast?).map Prod.snd
  | _ => none

end Json

/-! ## Objects from the fields that are there -/

namespace Json
variable {σ τ ν : Type}

def record (fields : List (String × Option (Json σ ν))) : Json σ ν :=
  .obj (fields.filterMap fun f => f.2.map fun value => (f.1.toList, value))

theorem mapItems_eq (f : σ → τ) (items : List (Json σ ν)) : mapItems f items = items.map (map f) := by
  induction items with
  | nil => rw [mapItems, List.map_nil]
  | cons item items ih => rw [mapItems, ih, List.map_cons]

theorem mapFields_eq (f : σ → τ) (fields : List (List Char × Json σ ν)) :
    mapFields f fields = fields.map fun p => (p.1, p.2.map f) := by
  induction fields with
  | nil => rw [mapFields, List.map_nil]
  | cons p fields ih => rw [mapFields, ih, List.map_cons]

theorem map_record (f : σ → τ) (fields : List (String × Option (Json σ ν))) :
    (record fields).map f = record (fields.map fun p => (p.1, p.2.map (map f))) := by
  rw [record, map, mapFields_eq, record, List.map_filterMap, List.filterMap_map]
  refine congrArg Json.obj (List.filterMap_congr fun p _ => ?_)
  cases p with
  | mk name value => cases value <;> rfl

theorem get?_record {fields : List (String × Option (Json σ ν))} (h : (fields.map Prod.fst).Nodup) (name : String) :
    (record fields).get? name = (fields.lookup name).join := by
  rw [record, get?]
  induction fields with
  | nil => rfl
  | cons f fields ih =>
      obtain ⟨key, value⟩ := f
      rw [List.map_cons, List.nodup_cons] at h
      have hrest := ih h.2
      rw [List.lookup_cons]
      by_cases hkey : key = name
      · subst hkey
        -- no later field has the name
        have hnone : (fields.filterMap fun f => f.2.map fun value => (f.1.toList, value)).filter
            (fun f => f.1 = key.toList) = [] := by
          rw [List.filter_eq_nil_iff]
          intro p hp heq
          obtain ⟨q, hq, hv⟩ := List.mem_filterMap.mp hp
          obtain ⟨v, -, rfl⟩ := Option.map_eq_some_iff.mp hv
          have hname : q.1 = key := String.toList_inj.mp (of_decide_eq_true heq)
          exact h.1 (List.mem_map.mpr ⟨q, hq, hname⟩)
        cases value with
        | none => simp [hnone]
        | some value => simp [hnone]
      · have hne : (name == key) = false := beq_false_of_ne (Ne.symm hkey)
        have hl : key.toList ≠ name.toList := fun h => hkey (String.toList_inj.mp h)
        rw [hne, ← hrest]
        cases value with
        | none => simp
        | some value => simp [hl]

end Json

/-! ## Characters -/

def unicodeEscape (n : Nat) : List Char :=
  ['\\', 'u', Nat.digitChar (n / 4096 % 16), Nat.digitChar (n / 256 % 16), Nat.digitChar (n / 16 % 16),
    Nat.digitChar (n % 16)]

/-- The characters that have an escape of two characters. -/
def shortEscape (c : Char) : Option Char :=
  match c.toNat with
  | 0x22 => some '"'
  | 0x5C => some '\\'
  | 0x08 => some 'b'
  | 0x0C => some 'f'
  | 0x0A => some 'n'
  | 0x0D => some 'r'
  | 0x09 => some 't'
  | _ => none

def escapeWith (also : Char → Bool) (c : Char) : List Char :=
  match shortEscape c with
  | some d => ['\\', d]
  | none => if c.toNat < 0x20 || also c then unicodeEscape c.toNat else [c]

/-- What a character after a backslash stands for. -/
def ofShort (c : Char) : Option Char :=
  match c with
  | '"' => some '"'
  | '\\' => some '\\'
  | '/' => some '/'
  | 'b' => some (Char.ofNat 0x08)
  | 'f' => some (Char.ofNat 0x0C)
  | 'n' => some '\n'
  | 'r' => some '\r'
  | 't' => some '\t'
  | _ => none

def readUnicode : List Char → Option (Char × List Char)
  | a :: b :: c :: d :: rest =>
    match hexValue a, hexValue b, hexValue c, hexValue d with
    | some a, some b, some c, some d =>
      let n := 4096 * a + 256 * b + 16 * c + d
      if 0xD800 ≤ n && n < 0xE000 then none else some (Char.ofNat n, rest)
    | _, _, _, _ => none
  | _ => none

def readEscape : List Char → Option (Char × List Char)
  | [] => none
  | d :: rest => if d = 'u' then readUnicode rest else (ofShort d).map (·, rest)

def readChar : List Char → Option (Char × List Char)
  | [] => none
  | c :: rest => if c = '\\' then readEscape rest else if c.toNat < 0x20 then none else some (c, rest)

/-- The characters up to the closing quote. -/
def readString : (fuel : Nat) → List Char → Option (List Char × List Char)
  | 0, _ => none
  | _ + 1, [] => none
  | fuel + 1, c :: rest =>
    if c = '"' then some ([], rest)
    else
      match readChar (c :: rest) with
      | none => none
      | some (d, rest) => (readString fuel rest).map fun r => (d :: r.1, r.2)

theorem readUnicode_escape {n : Nat} (hn : n < 0x10000) (hs : ¬ (0xD800 ≤ n ∧ n < 0xE000)) (rest : List Char) :
    readUnicode ((unicodeEscape n).drop 2 ++ rest) = some (Char.ofNat n, rest) := by
  have ha := hexValue_digitChar (n / 4096 % 16) (by omega)
  have hb := hexValue_digitChar (n / 256 % 16) (by omega)
  have hc := hexValue_digitChar (n / 16 % 16) (by omega)
  have hd := hexValue_digitChar (n % 16) (by omega)
  have hsum : 4096 * (n / 4096 % 16) + 256 * (n / 256 % 16) + 16 * (n / 16 % 16) + n % 16 = n := by omega
  have hplain : ¬ ((decide (0xD800 ≤ n) && decide (n < 0xE000)) = true) := by
    simpa using fun h => Nat.not_lt.mp fun h' => hs ⟨h, h'⟩
  simp only [unicodeEscape, List.drop_succ_cons, List.drop_zero, List.cons_append, List.nil_append, readUnicode, ha,
    hb, hc, hd, hsum, if_neg hplain]

/-- A code point of one UTF-16 unit is read back from its escape. -/
theorem readChar_unicodeEscape {n : Nat} (hn : n < 0x10000) (hs : ¬ (0xD800 ≤ n ∧ n < 0xE000)) (rest : List Char) :
    readChar (unicodeEscape n ++ rest) = some (Char.ofNat n, rest) :=
  readUnicode_escape hn hs rest

theorem not_surrogate (c : Char) : ¬ (0xD800 ≤ c.toNat ∧ c.toNat < 0xE000) := by
  have hvalid := c.valid
  have heq : c.val.toNat = c.toNat := rfl
  unfold UInt32.isValidChar Nat.isValidChar at hvalid
  omega

theorem readChar_escapeWith {also : Char → Bool} (halso : ∀ c, also c = true → c.toNat < 0x10000) (c : Char)
    (rest : List Char) : readChar (escapeWith also c ++ rest) = some (c, rest) := by
  have hchar : ∀ n : Nat, c.toNat = n → c = Char.ofNat n := fun n h => h ▸ (Char.ofNat_toNat c).symm
  unfold escapeWith
  cases hshort : shortEscape c with
  | some d =>
      unfold shortEscape at hshort
      split at hshort <;> cases hshort <;> rename_i hn <;> rw [hchar _ hn] <;> rfl
  | none =>
      simp only
      split
      · rename_i hescape
        have hn : c.toNat < 0x10000 := by
          rcases Bool.or_eq_true _ _ ▸ hescape with hlow | hmore
          · have hlow := of_decide_eq_true hlow
            omega
          · exact halso c hmore
        rw [readChar_unicodeEscape hn (not_surrogate c), Char.ofNat_toNat]
      · rename_i hplain
        have hlow : ¬ c.toNat < 0x20 := by
          intro h
          exact hplain (by rw [decide_eq_true h, Bool.true_or])
        have hback : c ≠ '\\' := by
          rintro rfl
          cases hshort
        rw [List.cons_append, List.nil_append, readChar, if_neg hback, if_neg hlow]

theorem exists_cons_escapeWith (also : Char → Bool) (c : Char) : ∃ d ds, escapeWith also c = d :: ds ∧ d ≠ '"' := by
  unfold escapeWith
  cases hshort : shortEscape c with
  | some d => exact ⟨_, _, rfl, by decide⟩
  | none =>
      simp only
      split
      · exact ⟨_, _, rfl, by decide⟩
      · refine ⟨_, _, rfl, ?_⟩
        rintro rfl
        cases hshort

/-! ## Strings -/

/-- A way of writing strings that is read back as the text each stands for. -/
structure Quoting (σ : Type) where
  quote : σ → List Char
  text : σ → List Char
  reads : ∀ s rest fuel, (quote s).length < fuel → readString fuel (quote s ++ '"' :: rest) = some (text s, rest)

theorem readString_flatMap {β : Type} {write : β → List Char} {meaning : β → Char}
    (hread : ∀ b rest, readChar (write b ++ rest) = some (meaning b, rest))
    (hcons : ∀ b, ∃ d ds, write b = d :: ds ∧ d ≠ '"') (bs : List β) (rest : List Char) {fuel : Nat}
    (hfuel : (bs.flatMap write).length < fuel) :
    readString fuel (bs.flatMap write ++ '"' :: rest) = some (bs.map meaning, rest) := by
  induction bs generalizing fuel with
  | nil =>
      obtain ⟨fuel, rfl⟩ := Nat.exists_eq_add_one_of_ne_zero (Nat.ne_of_gt hfuel)
      rfl
  | cons b bs ih =>
      obtain ⟨fuel, rfl⟩ := Nat.exists_eq_add_one_of_ne_zero (Nat.ne_of_gt (Nat.zero_lt_of_lt hfuel))
      obtain ⟨d, ds, hb, hd⟩ := hcons b
      have hone := hread b (bs.flatMap write ++ '"' :: rest)
      have hrest : (bs.flatMap write).length < fuel := by
        rw [List.flatMap_cons, hb, List.length_append, List.length_cons] at hfuel
        omega
      rw [List.flatMap_cons, List.append_assoc]
      rw [hb, List.cons_append] at hone ⊢
      rw [readString, if_neg hd, hone]
      simp only [ih hrest, Option.map_some, List.map_cons]

/-- Texts, with the characters that are written as escapes. -/
def Quoting.chars (also : Char → Bool) (halso : ∀ c, also c = true → c.toNat < 0x10000) : Quoting (List Char) where
  quote := fun s => s.flatMap (escapeWith also)
  text := id
  reads := by
    intro s rest fuel hfuel
    rw [readString_flatMap (readChar_escapeWith halso) (exists_cons_escapeWith also) s rest hfuel, List.map_id']
    rfl

/-- Bytes, of which those that are no part of a character are written as the escape of `U+FFFD`. -/
def Quoting.bytes (also : Char → Bool) (halso : ∀ c, also c = true → c.toNat < 0x10000) : Quoting (List UInt8) where
  quote := fun bytes => (runes bytes).flatMap fun r => (r.map (escapeWith also)).getD (unicodeEscape 0xFFFD)
  text := decode
  reads := by
    intro bytes rest fuel hfuel
    refine readString_flatMap (fun r rest => ?_) (fun r => ?_) (runes bytes) rest hfuel
    · cases r with
      | some c => exact readChar_escapeWith halso c rest
      | none => exact readChar_unicodeEscape (by decide) (by decide) rest
    · cases r with
      | some c => exact exists_cons_escapeWith also c
      | none => exact ⟨_, _, rfl, by decide⟩

/-- Texts, with no more escapes than the language asks for. -/
def Quoting.plain : Quoting (List Char) := Quoting.chars (fun _ => false) fun _ => (nomatch ·)

/-! ## Texts of values -/

section Render
variable {σ : Type} (q : Quoting σ)

def keyText (key : List Char) : List Char := Quoting.plain.quote key

mutual

def render : Json σ Int → List Char
  | .null => "null".toList
  | .bool true => "true".toList
  | .bool false => "false".toList
  | .num n => n.repr.toList
  | .str text => '"' :: (q.quote text ++ ['"'])
  | .arr [] => "[]".toList
  | .arr (item :: items) => '[' :: (render item ++ renderItems items)
  | .obj [] => "{}".toList
  | .obj ((key, value) :: fields) => '{' :: '"' :: (keyText key ++ '"' :: ':' :: (render value ++ renderFields fields))

/-- The items after the first, and the bracket. -/
def renderItems : List (Json σ Int) → List Char
  | [] => [']']
  | item :: items => ',' :: (render item ++ renderItems items)

def renderFields : List (List Char × Json σ Int) → List Char
  | [] => ['}']
  | (key, value) :: fields => ',' :: '"' :: (keyText key ++ '"' :: ':' :: (render value ++ renderFields fields))

end

end Render

def isBlank (c : Char) : Bool := c == ' ' || c == '\t' || c == '\n' || c == '\r'

def skipSpace (l : List Char) : List Char := l.dropWhile isBlank

/-- The rest of a text that starts with a word. -/
def expect (word l : List Char) : Option (List Char) := if word.isPrefixOf l then some (l.drop word.length) else none

def readNat (l : List Char) : Option (Nat × List Char) :=
  let digits := l.takeWhile Char.isDigit
  if digits.isEmpty then none else some (Nat.ofDigitChars 10 digits 0, l.dropWhile Char.isDigit)

def readInt : List Char → Option (Int × List Char)
  | [] => none
  | c :: rest =>
    if c = '-' then (readNat rest).map fun r => (-(r.1 : Int), r.2) else (readNat (c :: rest)).map fun r => ((r.1 : Int), r.2)

mutual

def parseValue : (fuel : Nat) → List Char → Option (Json (List Char) Int × List Char)
  | 0, _ => none
  | fuel + 1, l =>
    match skipSpace l with
    | [] => none
    | c :: rest =>
      if c = '"' then (readString (rest.length + 1) rest).map fun r => (.str r.1, r.2)
      else if c = '[' then
        match expect [']'] (skipSpace rest) with
        | some rest => some (.arr [], rest)
        | none =>
          match parseValue fuel rest with
          | none => none
          | some (item, rest) => (parseItems fuel rest).map fun r => (.arr (item :: r.1), r.2)
      else if c = '{' then
        match expect ['}'] (skipSpace rest) with
        | some rest => some (.obj [], rest)
        | none =>
          match parseField fuel rest with
          | none => none
          | some (field, rest) => (parseFields fuel rest).map fun r => (.obj (field :: r.1), r.2)
      else if c = 'n' then (expect "ull".toList rest).map (.null, ·)
      else if c = 't' then (expect "rue".toList rest).map (.bool true, ·)
      else if c = 'f' then (expect "alse".toList rest).map (.bool false, ·)
      else (readInt (c :: rest)).map fun r => (.num r.1, r.2)

/-- A name, a colon and a value. -/
def parseField : (fuel : Nat) → List Char → Option ((List Char × Json (List Char) Int) × List Char)
  | 0, _ => none
  | fuel + 1, l =>
    match expect ['"'] (skipSpace l) with
    | none => none
    | some rest =>
      match readString (rest.length + 1) rest with
      | none => none
      | some (key, rest) =>
        match expect [':'] (skipSpace rest) with
        | none => none
        | some rest => (parseValue fuel rest).map fun r => ((key, r.1), r.2)

/-- What follows an item. -/
def parseItems : (fuel : Nat) → List Char → Option (List (Json (List Char) Int) × List Char)
  | 0, _ => none
  | fuel + 1, l =>
    match expect [']'] (skipSpace l) with
    | some rest => some ([], rest)
    | none =>
      match expect [','] (skipSpace l) with
      | none => none
      | some rest =>
        match parseValue fuel rest with
        | none => none
        | some (item, rest) => (parseItems fuel rest).map fun r => (item :: r.1, r.2)

def parseFields : (fuel : Nat) → List Char → Option (List (List Char × Json (List Char) Int) × List Char)
  | 0, _ => none
  | fuel + 1, l =>
    match expect ['}'] (skipSpace l) with
    | some rest => some ([], rest)
    | none =>
      match expect [','] (skipSpace l) with
      | none => none
      | some rest =>
        match parseField fuel rest with
        | none => none
        | some (field, rest) => (parseFields fuel rest).map fun r => (field :: r.1, r.2)

end

/-- A text that is one value and nothing more. -/
def parse (l : List Char) : Option (Json (List Char) Int) :=
  match parseValue (l.length + 1) l with
  | some (value, rest) => if (skipSpace rest).isEmpty then some value else none
  | none => none

/-! ## What was written is read -/

/-- No digit follows, which would go on with a number. -/
def Clean (rest : List Char) : Prop := ∀ c ∈ rest.head?, c.isDigit = false

theorem clean_nil : Clean [] := fun _ => (nomatch ·)

theorem clean_cons {c : Char} (h : c.isDigit = false) (rest : List Char) : Clean (c :: rest) := by
  intro d hd
  rw [← Option.some.inj hd]
  exact h

theorem readNat_repr (n : Nat) {rest : List Char} (h : Clean rest) : readNat (n.repr.toList ++ rest) = some (n, rest) := by
  have hdigits : ∀ c ∈ n.repr.toList, c.isDigit = true := fun c => isDigit_of_mem_repr
  have hstop : rest.takeWhile Char.isDigit = [] ∧ rest.dropWhile Char.isDigit = rest := by
    cases rest with
    | nil => exact ⟨rfl, rfl⟩
    | cons c rest =>
        have hc := h c rfl
        rw [List.takeWhile_cons, List.dropWhile_cons, hc]
        exact ⟨rfl, rfl⟩
  have hne : n.repr.toList.isEmpty = false := by
    rw [Nat.toList_repr, List.isEmpty_eq_false_iff]
    exact Nat.toDigits_ne_nil
  unfold readNat
  rw [List.takeWhile_append_of_pos hdigits, List.dropWhile_append_of_pos hdigits, hstop.1, hstop.2, List.append_nil]
  simp only [hne, ofDigitChars_repr]
  rfl

theorem exists_cons_repr (n : Nat) : ∃ c cs, n.repr.toList = c :: cs ∧ c.isDigit = true := by
  cases hl : n.repr.toList with
  | nil =>
      rw [Nat.toList_repr] at hl
      exact absurd hl Nat.toDigits_ne_nil
  | cons c cs => exact ⟨c, cs, rfl, isDigit_of_mem_repr (hl ▸ List.mem_cons_self)⟩

theorem toList_repr_negSucc (n : Nat) : (Int.negSucc n).repr.toList = '-' :: (n + 1).repr.toList := by
  show ("-" ++ (n + 1).repr).toList = _
  rw [String.toList_append]
  rfl

theorem readInt_repr (n : Int) {rest : List Char} (h : Clean rest) : readInt (n.repr.toList ++ rest) = some (n, rest) := by
  cases n with
  | ofNat n =>
      obtain ⟨c, cs, hl, hc⟩ := exists_cons_repr n
      have hread := readNat_repr n h
      have hne : c ≠ '-' := by
        rintro rfl
        cases hc
      have hrepr : (Int.ofNat n).repr.toList = n.repr.toList := rfl
      rw [hrepr]
      rw [hl, List.cons_append] at hread ⊢
      rw [readInt, if_neg hne, hread]
      rfl
  | negSucc n =>
      rw [toList_repr_negSucc, List.cons_append, readInt, if_pos rfl, readNat_repr (n + 1) h]
      rfl

theorem exists_cons_repr_int (n : Int) : ∃ c cs, n.repr.toList = c :: cs ∧ (c.isDigit = true ∨ c = '-') := by
  cases n with
  | ofNat n =>
      obtain ⟨c, cs, hl, hc⟩ := exists_cons_repr n
      exact ⟨c, cs, hl, Or.inl hc⟩
  | negSucc n => exact ⟨'-', (n + 1).repr.toList, toList_repr_negSucc n, Or.inr rfl⟩

theorem skipSpace_cons {c : Char} (h : isBlank c = false) (rest : List Char) : skipSpace (c :: rest) = c :: rest := by
  rw [skipSpace, List.dropWhile_cons, h, if_neg Bool.false_ne_true]

theorem expect_cons_self (c : Char) (rest : List Char) : expect [c] (c :: rest) = some rest := by
  simp [expect]

theorem expect_cons_ne {c d : Char} (h : c ≠ d) (rest : List Char) : expect [c] (d :: rest) = none := by
  simp [expect, h]

/-- The first character of a value. -/
def isStart (c : Char) : Bool := c.isDigit || c ∈ ['-', '"', '[', '{', 'n', 't', 'f']

theorem lt_of_isStart {c : Char} (h : isStart c = true) : c.toNat < 128 := by
  unfold isStart at h
  rcases Bool.or_eq_true _ _ ▸ h with hd | hm
  · exact lt_of_isLowerHex (isLowerHex_of_isDigit hd)
  · have hm := of_decide_eq_true hm
    simp only [List.mem_cons, List.not_mem_nil, or_false] at hm
    rcases hm with rfl | rfl | rfl | rfl | rfl | rfl | rfl <;> decide

/-- A value starts with no blank and no closing bracket. -/
theorem ne_of_isStart {c : Char} (h : isStart c = true) : isBlank c = false ∧ c ≠ ']' ∧ c ≠ '}' := by
  have hall : ∀ n < 128, isStart (Char.ofNat n) = true →
      isBlank (Char.ofNat n) = false ∧ Char.ofNat n ≠ ']' ∧ Char.ofNat n ≠ '}' := by decide
  have hp := hall c.toNat (lt_of_isStart h)
  rw [Char.ofNat_toNat] at hp
  exact hp h

theorem ne_of_number {c : Char} (h : c.isDigit = true ∨ c = '-') :
    isBlank c = false ∧ c ≠ '"' ∧ c ≠ '[' ∧ c ≠ '{' ∧ c ≠ 'n' ∧ c ≠ 't' ∧ c ≠ 'f' := by
  rcases h with h | rfl
  · have hall : ∀ n < 128, (Char.ofNat n).isDigit = true → isBlank (Char.ofNat n) = false ∧ Char.ofNat n ≠ '"' ∧
        Char.ofNat n ≠ '[' ∧ Char.ofNat n ≠ '{' ∧ Char.ofNat n ≠ 'n' ∧ Char.ofNat n ≠ 't' ∧ Char.ofNat n ≠ 'f' := by decide
    have hp := hall c.toNat (lt_of_isLowerHex (isLowerHex_of_isDigit h))
    rw [Char.ofNat_toNat] at hp
    exact hp h
  · decide

section RoundTrip
variable {σ : Type} (q : Quoting σ)

theorem exists_cons_render (j : Json σ Int) : ∃ c cs, render q j = c :: cs ∧ isStart c = true := by
  match j with
  | .null => exact ⟨_, _, by rw [render]; rfl, by decide⟩
  | .bool true => exact ⟨_, _, by rw [render]; rfl, by decide⟩
  | .bool false => exact ⟨_, _, by rw [render]; rfl, by decide⟩
  | .num n =>
      obtain ⟨c, cs, hl, hc⟩ := exists_cons_repr_int n
      refine ⟨c, cs, by rw [render, hl], ?_⟩
      rcases hc with hc | rfl
      · rw [isStart, hc, Bool.true_or]
      · decide
  | .str text => exact ⟨_, _, by rw [render], by decide⟩
  | .arr [] => exact ⟨_, _, by rw [render]; rfl, by decide⟩
  | .arr (item :: items) => exact ⟨_, _, by rw [render], by decide⟩
  | .obj [] => exact ⟨_, _, by rw [render]; rfl, by decide⟩
  | .obj ((key, value) :: fields) => exact ⟨_, _, by rw [render], by decide⟩

theorem readString_quote (s : σ) (rest : List Char) :
    readString ((q.quote s ++ '"' :: rest).length + 1) (q.quote s ++ '"' :: rest) = some (q.text s, rest) := by
  apply q.reads
  rw [List.length_append]
  omega

theorem clean_renderItems (items : List (Json σ Int)) (rest : List Char) : Clean (renderItems q items ++ rest) := by
  cases items with
  | nil =>
      rw [renderItems]
      exact clean_cons (by decide) _
  | cons item items =>
      rw [renderItems]
      exact clean_cons (by decide) _

theorem clean_renderFields (fields : List (List Char × Json σ Int)) (rest : List Char) :
    Clean (renderFields q fields ++ rest) := by
  match fields with
  | [] =>
      rw [renderFields]
      exact clean_cons (by decide) _
  | (key, value) :: fields =>
      rw [renderFields]
      exact clean_cons (by decide) _

/-- What no value starts with is not found before one. -/
theorem expect_render {d : Char} (hd : ∀ c, isStart c = true → c ≠ d) (j : Json σ Int) (rest : List Char) :
    expect [d] (skipSpace (render q j ++ rest)) = none := by
  obtain ⟨c, cs, hl, hc⟩ := exists_cons_render q j
  rw [hl, List.cons_append, skipSpace_cons (ne_of_isStart hc).1, expect_cons_ne (Ne.symm (hd c hc))]

theorem parseValue_num {n : Int} {rest : List Char} (h : Clean rest) (fuel : Nat) :
    parseValue (fuel + 1) (n.repr.toList ++ rest) = some (.num n, rest) := by
  obtain ⟨c, cs, hl, hc⟩ := exists_cons_repr_int n
  obtain ⟨hblank, h₁, h₂, h₃, h₄, h₅, h₆⟩ := ne_of_number hc
  have hread := readInt_repr n h
  rw [hl, List.cons_append] at hread ⊢
  rw [parseValue, skipSpace_cons hblank]
  simp only [if_neg h₁, if_neg h₂, if_neg h₃, if_neg h₄, if_neg h₅, if_neg h₆, hread]
  rfl

theorem parseField_text {fuel : Nat} (key : List Char) {j : Json σ Int} {rest : List Char} {value : Json (List Char) Int}
    (h : parseValue fuel (render q j ++ rest) = some (value, rest)) :
    parseField (fuel + 1) ('"' :: (keyText key ++ '"' :: ':' :: (render q j ++ rest))) = some ((key, value), rest) := by
  have hkey := readString_quote Quoting.plain key (':' :: (render q j ++ rest))
  have htext : Quoting.plain.text key = key := rfl
  rw [parseField, skipSpace_cons (by decide), expect_cons_self]
  simp only [keyText, hkey, htext]
  rw [skipSpace_cons (by decide), expect_cons_self]
  simp only [h, Option.map_some]

mutual

/-- A value is read as what its strings stand for, whatever follows that goes on with no number. -/
theorem parseValue_render (j : Json σ Int) {rest : List Char} (h : Clean rest) {fuel : Nat}
    (hfuel : (render q j).length ≤ fuel) : parseValue fuel (render q j ++ rest) = some (j.map q.text, rest) := by
  obtain ⟨c, cs, hl, -⟩ := exists_cons_render q j
  have hpos : fuel ≠ 0 := by
    rw [hl, List.length_cons] at hfuel
    omega
  obtain ⟨fuel, rfl⟩ := Nat.exists_eq_add_one_of_ne_zero hpos
  match j with
  | .null =>
      rw [render, Json.map]
      rfl
  | .bool true =>
      rw [render, Json.map]
      rfl
  | .bool false =>
      rw [render, Json.map]
      rfl
  | .num n =>
      rw [render, Json.map]
      exact parseValue_num h fuel
  | .str text =>
      have hread := readString_quote q text rest
      rw [render, Json.map, List.cons_append, List.append_assoc, List.cons_append, List.nil_append, parseValue,
        skipSpace_cons (by decide)]
      simp only [if_pos, hread, Option.map_some]
  | .arr [] =>
      rw [render, Json.map]
      rfl
  | .arr (item :: items) =>
      rw [render, List.length_cons, List.length_append] at hfuel
      have hitem := parseValue_render item (clean_renderItems q items rest) (by omega : (render q item).length ≤ fuel)
      have hitems := parseItems_render items rest (by omega : (renderItems q items).length ≤ fuel)
      have hopen := expect_render q (fun c hc => (ne_of_isStart hc).2.1) item (renderItems q items ++ rest)
      rw [render, Json.map, Json.mapItems, List.cons_append, List.append_assoc, parseValue, skipSpace_cons (by decide)]
      simp only [hopen, hitem, hitems, Option.map_some]
      rfl
  | .obj [] =>
      rw [render, Json.map]
      rfl
  | .obj ((key, value) :: fields) =>
      rw [render] at hfuel
      simp only [List.length_cons, List.length_append] at hfuel
      obtain ⟨fuel, rfl⟩ := Nat.exists_eq_add_one_of_ne_zero (by omega : fuel ≠ 0)
      have hvalue := parseValue_render value (clean_renderFields q fields rest) (by omega : (render q value).length ≤ fuel)
      have hfield := parseField_text q key hvalue
      have hfields := parseFields_render fields rest (by omega : (renderFields q fields).length ≤ fuel + 1)
      have hopen : ∀ l, expect ['}'] (skipSpace ('"' :: l)) = none := by
        intro l
        rw [skipSpace_cons (by decide), expect_cons_ne (by decide)]
      rw [render, Json.map, Json.mapFields]
      simp only [List.cons_append, List.append_assoc]
      rw [parseValue, skipSpace_cons (by decide)]
      simp only [hopen, hfield, hfields, Option.map_some]
      rfl

theorem parseItems_render (items : List (Json σ Int)) (rest : List Char) {fuel : Nat}
    (hfuel : (renderItems q items).length ≤ fuel) :
    parseItems fuel (renderItems q items ++ rest) = some (Json.mapItems q.text items, rest) := by
  match items with
  | [] =>
      rw [renderItems, List.length_singleton] at hfuel
      obtain ⟨fuel, rfl⟩ := Nat.exists_eq_add_one_of_ne_zero (by omega : fuel ≠ 0)
      rw [renderItems, Json.mapItems]
      rfl
  | item :: items =>
      rw [renderItems, List.length_cons, List.length_append] at hfuel
      obtain ⟨fuel, rfl⟩ := Nat.exists_eq_add_one_of_ne_zero (by omega : fuel ≠ 0)
      have hitem := parseValue_render item (clean_renderItems q items rest) (by omega : (render q item).length ≤ fuel)
      have hitems := parseItems_render items rest (by omega : (renderItems q items).length ≤ fuel)
      rw [renderItems, Json.mapItems, List.cons_append, List.append_assoc, parseItems, skipSpace_cons (by decide),
        expect_cons_ne (by decide), expect_cons_self]
      simp only [hitem, hitems, Option.map_some]

theorem parseFields_render (fields : List (List Char × Json σ Int)) (rest : List Char) {fuel : Nat}
    (hfuel : (renderFields q fields).length ≤ fuel) :
    parseFields fuel (renderFields q fields ++ rest) = some (Json.mapFields q.text fields, rest) := by
  match fields with
  | [] =>
      rw [renderFields, List.length_singleton] at hfuel
      obtain ⟨fuel, rfl⟩ := Nat.exists_eq_add_one_of_ne_zero (by omega : fuel ≠ 0)
      rw [renderFields, Json.mapFields]
      rfl
  | (key, value) :: fields =>
      rw [renderFields] at hfuel
      simp only [List.length_cons, List.length_append] at hfuel
      obtain ⟨fuel, rfl⟩ := Nat.exists_eq_add_of_le (by omega : 2 ≤ fuel)
      have hvalue := parseValue_render value (clean_renderFields q fields rest) (by omega : (render q value).length ≤ fuel)
      have hfield := parseField_text q key hvalue
      have hfields := parseFields_render fields rest (by omega : (renderFields q fields).length ≤ fuel + 1)
      rw [renderFields, Json.mapFields]
      simp only [List.cons_append, List.append_assoc]
      rw [Nat.add_comm 2 fuel, parseFields, skipSpace_cons (by decide), expect_cons_ne (by decide), expect_cons_self]
      simp only [hfield, hfields, Option.map_some]

end

theorem parse_render (j : Json σ Int) : parse (render q j) = some (j.map q.text) := by
  have hvalue := parseValue_render q j clean_nil (Nat.le_succ (render q j).length)
  rw [List.append_nil] at hvalue
  rw [parse, hvalue]
  rfl

end RoundTrip

/-- Values with the same text are the same. -/
theorem render_inj {a b : Json (List Char) Int} (h : render Quoting.plain a = render Quoting.plain b) : a = b := by
  have ha := parse_render Quoting.plain a
  rw [h, parse_render Quoting.plain b] at ha
  have hmap : b.map id = a.map id := Option.some.inj ha
  rw [Json.map_id, Json.map_id] at hmap
  exact hmap.symm

/-! ## How many bytes a text takes -/

theorem length_utf8_append (a b : List Char) : (utf8 (a ++ b)).length = (utf8 a).length + (utf8 b).length := by
  rw [utf8_append, List.length_append]

theorem length_le_utf8 (l : List Char) : l.length ≤ (utf8 l).length := by
  induction l with
  | nil => exact Nat.le_refl 0
  | cons c l ih =>
      have hpos := c.utf8Size_pos
      rw [length_utf8_cons, List.length_cons]
      omega

theorem length_le_units (l : List Char) : l.length ≤ units l := by
  induction l with
  | nil => exact Nat.le_refl 0
  | cons c l ih =>
      rw [units_cons, List.length_cons]
      split <;> omega

theorem utf8Size_of_lt {c : Char} (h : c.toNat < 128) : c.utf8Size = 1 :=
  Char.utf8Size_eq_one_iff.mpr (UInt32.le_iff_toNat_le.mpr (Nat.le_of_lt_succ h))

/-- A text of ASCII characters has a byte for each. -/
theorem length_utf8_of_ascii {l : List Char} (h : ∀ c ∈ l, c.toNat < 128) : (utf8 l).length = l.length := by
  induction l with
  | nil => rfl
  | cons c l ih =>
      rw [length_utf8_cons, List.length_cons, utf8Size_of_lt (h c List.mem_cons_self),
        ih fun d hd => h d (List.mem_cons_of_mem c hd), Nat.add_comm]

theorem units_of_ascii {l : List Char} (h : ∀ c ∈ l, c.toNat < 128) : units l = l.length := by
  induction l with
  | nil => rfl
  | cons c l ih =>
      have hc := h c List.mem_cons_self
      rw [units_cons, if_pos (by omega : c.toNat < 0x10000), ih fun d hd => h d (List.mem_cons_of_mem c hd), List.length_cons,
        Nat.add_comm]

theorem length_utf8_unicodeEscape (n : Nat) : (utf8 (unicodeEscape n)).length = 6 := by
  rw [length_utf8_of_ascii]
  · rfl
  · intro c hc
    simp only [unicodeEscape, List.mem_cons, List.not_mem_nil, or_false] at hc
    have hdigit : ∀ k < 16, (Nat.digitChar k).toNat < 128 := by decide
    rcases hc with rfl | rfl | rfl | rfl | rfl | rfl
    · decide
    · decide
    all_goals exact hdigit _ (Nat.mod_lt _ (by decide))

theorem length_utf8_escapeWith (also : Char → Bool) (c : Char) :
    (utf8 (escapeWith also c)).length =
      if (shortEscape c).isSome then 2 else if c.toNat < 0x20 || also c then 6 else c.utf8Size := by
  unfold escapeWith
  cases hshort : shortEscape c with
  | some d =>
      unfold shortEscape at hshort
      split at hshort <;> cases hshort <;> rfl
  | none =>
      simp only [Option.isSome_none, if_neg Bool.false_ne_true]
      split
      · exact length_utf8_unicodeEscape c.toNat
      · rw [length_utf8_cons]
        rfl

theorem length_utf8_escapeWith_le (also : Char → Bool) (c : Char) : (utf8 (escapeWith also c)).length ≤ 6 := by
  have hsize := c.utf8Size_le_four
  rw [length_utf8_escapeWith]
  split
  · decide
  · split <;> omega

theorem length_utf8_flatMap {β : Type} (write : β → List Char) (bs : List β) :
    (utf8 (bs.flatMap write)).length = (bs.map fun b => (utf8 (write b)).length).sum := by
  induction bs with
  | nil => rfl
  | cons b bs ih => rw [List.flatMap_cons, length_utf8_append, ih, List.map_cons, List.sum_cons]

/-- Six bytes a character at most. -/
theorem length_utf8_plain_le (s : List Char) : (utf8 (Quoting.plain.quote s)).length ≤ 6 * s.length := by
  show (utf8 (s.flatMap (escapeWith fun _ => false))).length ≤ _
  rw [length_utf8_flatMap]
  induction s with
  | nil => exact Nat.le_refl 0
  | cons c s ih =>
      have hc := length_utf8_escapeWith_le (fun _ => false) c
      rw [List.map_cons, List.sum_cons, List.length_cons]
      omega

section Size
variable {σ : Type} (q : Quoting σ)

theorem length_utf8_str (s : σ) : (utf8 (render q (.str s))).length = (utf8 (q.quote s)).length + 2 := by
  rw [render, length_utf8_cons, length_utf8_append]
  have hquote : '"'.utf8Size = 1 := rfl
  have hend : (utf8 ['"']).length = 1 := rfl
  omega

/-- What the fields of an object take: a name in quotes, the colon, the value, and the comma or the bracket after it. -/
def fieldsSize (fields : List (List Char × Json σ Int)) : Nat :=
  (fields.map fun f => (utf8 (keyText f.1)).length + (utf8 (render q f.2)).length + 4).sum

theorem fieldsSize_cons (key : List Char) (value : Json σ Int) (fields : List (List Char × Json σ Int)) :
    fieldsSize q ((key, value) :: fields) =
      (utf8 (keyText key)).length + (utf8 (render q value)).length + 4 + fieldsSize q fields := by
  rw [fieldsSize, List.map_cons, List.sum_cons, ← fieldsSize]

theorem fieldsSize_le {fields : List (List Char × Json σ Int)} {n : Nat}
    (h : ∀ f ∈ fields, (utf8 (keyText f.1)).length + (utf8 (render q f.2)).length + 4 ≤ n) :
    fieldsSize q fields ≤ fields.length * n := by
  induction fields with
  | nil => exact Nat.zero_le _
  | cons f fields ih =>
      have hf := h f List.mem_cons_self
      have hfields := ih fun g hg => h g (List.mem_cons_of_mem f hg)
      rw [fieldsSize_cons, List.length_cons, Nat.succ_mul]
      omega

theorem length_utf8_renderFields (fields : List (List Char × Json σ Int)) :
    (utf8 (renderFields q fields)).length = 1 + fieldsSize q fields := by
  induction fields with
  | nil =>
      rw [renderFields]
      rfl
  | cons f fields ih =>
      obtain ⟨key, value⟩ := f
      rw [renderFields]
      simp only [length_utf8_cons, length_utf8_append, ih, fieldsSize_cons]
      have hcomma : ','.utf8Size = 1 := rfl
      have hquote : '"'.utf8Size = 1 := rfl
      have hcolon : ':'.utf8Size = 1 := rfl
      omega

theorem length_utf8_obj {fields : List (List Char × Json σ Int)} (h : fields ≠ []) :
    (utf8 (render q (.obj fields))).length = 1 + fieldsSize q fields := by
  match fields with
  | [] => exact absurd rfl h
  | (key, value) :: fields =>
      have hbracket : '{'.utf8Size = ','.utf8Size := rfl
      rw [← length_utf8_renderFields, render, renderFields, length_utf8_cons '{', length_utf8_cons ',', hbracket]

theorem length_utf8_obj_le (fields : List (List Char × Json σ Int)) :
    (utf8 (render q (.obj fields))).length ≤ 2 + fieldsSize q fields := by
  by_cases h : fields = []
  · subst h
    rw [render]
    exact Nat.le_add_right 2 _
  · rw [length_utf8_obj q h]
    omega

theorem length_utf8_num (n : Int) : (utf8 (render q (.num n))).length = n.repr.length := by
  have hdigits : ∀ m : Nat, ∀ c ∈ m.repr.toList, c.toNat < 128 := fun m c hc =>
    lt_of_isLowerHex (isLowerHex_of_isDigit (isDigit_of_mem_repr hc))
  rw [render, length_utf8_of_ascii, String.length_toList]
  cases n with
  | ofNat m => exact hdigits m
  | negSucc m =>
      intro c hc
      rw [toList_repr_negSucc] at hc
      rcases List.mem_cons.mp hc with rfl | hc
      · decide
      · exact hdigits (m + 1) c hc

/-- What a field takes that may be missing. -/
def fieldSize (name : String) : Option (Json σ Int) → Nat
  | some value => (utf8 (keyText name.toList)).length + (utf8 (render q value)).length + 4
  | none => 0

theorem fieldSize_str (name : String) (s : σ) :
    fieldSize q name (some (.str s)) = (utf8 (keyText name.toList)).length + (utf8 (q.quote s)).length + 6 := by
  rw [fieldSize, length_utf8_str]
  omega

theorem fieldSize_num (name : String) (n : Int) :
    fieldSize q name (some (.num n)) = (utf8 (keyText name.toList)).length + n.repr.length + 4 := by
  rw [fieldSize, length_utf8_num]

def recordSize (fields : List (String × Option (Json σ Int))) : Nat := (fields.map fun f => fieldSize q f.1 f.2).sum

theorem fieldsSize_filterMap (fields : List (String × Option (Json σ Int))) :
    fieldsSize q (fields.filterMap fun f => f.2.map fun value => (f.1.toList, value)) = recordSize q fields := by
  induction fields with
  | nil => rfl
  | cons f fields ih =>
      obtain ⟨name, value⟩ := f
      rw [recordSize, List.map_cons, List.sum_cons, ← recordSize, ← ih]
      cases value with
      | none =>
          rw [fieldSize, Nat.zero_add]
          rfl
      | some value => exact fieldsSize_cons q _ _ _

theorem length_utf8_record (name : String) (value : Json σ Int) (fields : List (String × Option (Json σ Int))) :
    (utf8 (render q (Json.record ((name, some value) :: fields)))).length =
      1 + recordSize q ((name, some value) :: fields) := by
  rw [← fieldsSize_filterMap, Json.record]
  exact length_utf8_obj q (List.cons_ne_nil _ _)

end Size

end Wire
