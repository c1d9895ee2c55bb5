import IkelyaneMonitor.Wire.Json

/-!
# Schemas of JSON values

* `Schema` : which values are taken; the checks on a text or a number are predicates;
* `accepts` : the check of the value of a field, `none` for a field that is not there;
* `accepts_record` : an object is taken when the value given to each field of the schema is.

Fields that the schema does not name are let through.
-/

namespace Wire
variable {ν : Type}

inductive Schema (ν : Type) where
  | string (ok : List Char → Bool)
  | number (ok : ν → Bool)
  | boolean
  | array (max : Nat) (item : Schema ν)
  | object (fields : List (String × Schema ν))
  /-- May be left out: `optional` and `default`. -/
  | optional (inner : Schema ν)
  /-- May be left out or null. -/
  | nullish (inner : Schema ν)

namespace Schema

mutual

def accepts : Schema ν → Option (Json (List Char) ν) → Bool
  | .string ok, some (.str text) => ok text
  | .number ok, some (.num n) => ok n
  | .boolean, some (.bool _) => true
  | .array max item, some (.arr items) => decide (items.length ≤ max) && items.all fun j => accepts item (some j)
  | .object fields, some (.obj values) => acceptsFields fields (.obj values)
  | .optional _, none => true
  | .optional inner, some j => accepts inner (some j)
  | .nullish _, none => true
  | .nullish _, some .null => true
  | .nullish inner, some j => accepts inner (some j)
  | _, _ => false

def acceptsFields : List (String × Schema ν) → Json (List Char) ν → Bool
  | [], _ => true
  | (name, schema) :: fields, j => accepts schema (j.get? name) && acceptsFields fields j

end

attribute [local simp] accepts acceptsFields

theorem acceptsFields_iff {fields : List (String × Schema ν)} {j : Json (List Char) ν} :
    acceptsFields fields j = true ↔ ∀ f ∈ fields, f.2.accepts (j.get? f.1) = true := by
  induction fields with
  | nil => simp
  | cons f fields ih => simp [ih]

/-! ## One value at a time -/

theorem accepts_str {ok : List Char → Bool} {text : List Char} :
    (string ok : Schema ν).accepts (some (.str text)) = ok text := by
  rw [accepts]

theorem accepts_num {ok : ν → Bool} {n : ν} : (number ok).accepts (some (.num n)) = ok n := by rw [accepts]

theorem accepts_bool {b : Bool} : (boolean : Schema ν).accepts (some (.bool b)) = true := by rw [accepts]

theorem accepts_optional {inner : Schema ν} {j : Option (Json (List Char) ν)} :
    (optional inner).accepts j = j.all fun j => inner.accepts (some j) := by
  cases j <;> rw [accepts] <;> rfl

theorem accepts_optional_iff {inner : Schema ν} {j : Option (Json (List Char) ν)} :
    (optional inner).accepts j = true ↔ ∀ v ∈ j, inner.accepts (some v) = true := by
  rw [accepts_optional, Option.all_eq_true]
  exact Iff.rfl

theorem accepts_optional_none {inner : Schema ν} : (optional inner).accepts none = true := by rw [accepts]

theorem accepts_nullish_none {inner : Schema ν} : (nullish inner).accepts none = true := by rw [accepts]

theorem accepts_optional_str {β : Type} {ok : List Char → Bool} {value : Option β} {text : β → List Char} :
    (optional (string ok) : Schema ν).accepts (value.map fun v => .str (text v)) = value.all fun v => ok (text v) := by
  cases value <;> simp

theorem accepts_nullish_num {ok : ν → Bool} {n : Option ν} : (nullish (number ok)).accepts (n.map .num) = n.all ok := by
  cases n <;> simp

theorem accepts_arr {max : Nat} {item : Schema ν} {items : List (Json (List Char) ν)} :
    (array max item).accepts (some (.arr items)) = true ↔
      items.length ≤ max ∧ ∀ j ∈ items, item.accepts (some j) = true := by
  simp

end Schema

theorem Schema.accepts_record {schema : List (String × Schema ν)} {fields : List (String × Option (Json (List Char) ν))}
    (h : (fields.map Prod.fst).Nodup) :
    (Schema.object schema).accepts (some (Json.record fields)) = true ↔
      ∀ f ∈ schema, f.2.accepts (fields.lookup f.1).join = true := by
  have hget := Json.get?_record h
  rw [Json.record] at hget ⊢
  rw [accepts, acceptsFields_iff]
  simp only [hget]

end Wire
