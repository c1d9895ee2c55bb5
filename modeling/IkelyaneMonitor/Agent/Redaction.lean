import IkelyaneMonitor.Agent.Profiler

/-!
# What a redacted command says (`agent/internal/dbmetrics/mongodb.go`)

* `SameKey`, `SameValue`, `SameFields` : commands with the same tree, whatever their data is;
* `redactShape_of_sameFields` : they have the same text;
* `Token`, `Written` : a text of punctuation, placeholders and names; `Bson.keys` : the keys of a document at any depth;
* `written_shape` : of a value there is nothing else, only keys that pass for field names;
* `redaction_law` : both.
-/

namespace IkelyaneMonitor.Agent.Db
open Wire

/-! ## Two commands with one tree -/

/-- Keys that are not field names are data. -/
def SameKey (key other : List UInt8) : Prop := key = other ∨ isFieldName key = false ∧ isFieldName other = false

mutual

/-- Values that differ in their scalars, in keys that are data and in what follows the first element of an array. -/
inductive SameValue : Bson → Bson → Prop
  | document {fields others : List (List UInt8 × Bson)} : SameFields false fields others →
      SameValue (.document fields) (.document others)
  | empty : SameValue (.array []) (.array [])
  | single {first other : Bson} : SameValue first other → SameValue (.array [first]) (.array [other])
  | longer {first other : Bson} {rest others : List Bson} : SameValue first other → rest ≠ [] → others ≠ [] →
      SameValue (.array (first :: rest)) (.array (other :: others))
  | scalar (value other : List UInt8) : SameValue (.scalar value) (.scalar other)

/-- The same of the fields of a document; at the top of a command the ignored ones hold anything. -/
inductive SameFields : (top : Bool) → List (List UInt8 × Bson) → List (List UInt8 × Bson) → Prop
  | nil (top : Bool) : SameFields top [] []
  | field {top : Bool} {key other : List UInt8} {value value' : Bson} {fields others : List (List UInt8 × Bson)} :
      SameKey key other → SameValue value value' → SameFields top fields others →
      SameFields top ((key, value) :: fields) ((other, value') :: others)
  | ignored {key : List UInt8} {fields others : List (List UInt8 × Bson)} (value value' : Bson) : key ∈ mongoIgnoredFields →
      SameFields true fields others → SameFields true ((key, value) :: fields) ((key, value') :: others)

end

theorem isFieldName_of_ignored {key : List UInt8} (h : key ∈ mongoIgnoredFields) : isFieldName key = true := by
  have hall : mongoIgnoredFields.all isFieldName = true := by decide
  exact List.all_eq_true.mp hall key h

theorem SameKey.ignored_iff {key other : List UInt8} (h : SameKey key other) :
    key ∈ mongoIgnoredFields ↔ other ∈ mongoIgnoredFields := by
  apply h.elim
  · rintro rfl
    exact Iff.rfl
  · rintro ⟨hkey, hother⟩
    constructor
    · intro hin
      rw [isFieldName_of_ignored hin] at hkey
      cases hkey
    · intro hin
      rw [isFieldName_of_ignored hin] at hother
      cases hother

theorem SameKey.writeKey_eq {key other : List UInt8} (h : SameKey key other) : writeKey key = writeKey other := by
  apply h.elim
  · rintro rfl
    rfl
  · rintro ⟨hkey, hother⟩
    rw [writeKey, writeKey, hkey, hother, if_neg Bool.false_ne_true, if_neg Bool.false_ne_true]

mutual

theorem writeShape_of_same {a b : Bson} (depth : Nat) : SameValue a b → writeShape depth false a = writeShape depth false b
  | .document h => by rw [writeShape, writeShape, writeFields_of_same depth h]
  | .empty => rfl
  | .single h => by rw [writeShape, writeShape, writeShape_of_same (depth + 1) h]
  | .longer h hrest hothers => by
      rw [writeShape, writeShape, writeShape_of_same (depth + 1) h, if_neg hrest, if_neg hothers]
  | .scalar _ _ => by rw [writeShape, writeShape]

theorem writeFields_of_same {top : Bool} {c d : List (List UInt8 × Bson)} (depth : Nat) :
    SameFields top c d → writeFields depth top c = writeFields depth top d
  | .nil _ => rfl
  | .field hkey hvalue hfields => by
      rw [writeFields, writeFields, hkey.writeKey_eq, writeShape_of_same (depth + 1) hvalue,
        writeFields_of_same depth hfields]
      simp only [hkey.ignored_iff]
  | .ignored _ _ hkey hfields => by
      rw [writeFields, writeFields, if_pos ⟨rfl, hkey⟩, if_pos ⟨rfl, hkey⟩, writeFields_of_same depth hfields]

end

theorem redactShape_of_sameFields {c d : List (List UInt8 × Bson)} (h : SameFields true c d) :
    redactShape c = redactShape d := by
  rw [redactShape, redactShape, writeShape, writeShape, writeFields_of_same 0 h]

/-! ## What a text is made of -/

/-- The bytes of `{`, `}`, `[`, `]`, `:`, `,` and `"`. -/
def punctuation : List UInt8 := [0x7B, 0x7D, 0x5B, 0x5D, 0x3A, 0x2C, 0x22]

inductive Token where
  | mark (b : UInt8) (h : b ∈ punctuation)
  /-- `?` -/
  | hidden
  /-- `…` -/
  | cutOff
  | name (key : List UInt8)

def Token.text : Token → List UInt8
  | .mark b _ => [b]
  | .hidden => utf8 "?".toList
  | .cutOff => utf8 "…".toList
  | .name key => key

/-- A text of tokens, with names as `P` has them. -/
def Written (P : List UInt8 → Prop) (text : List UInt8) : Prop :=
  ∃ tokens : List Token, text = tokens.flatMap Token.text ∧ ∀ key, .name key ∈ tokens → P key

mutual

/-- The keys of a value, at any depth. -/
def Bson.keys : Bson → List (List UInt8)
  | .document fields => fieldKeys fields
  | .array items => itemKeys items
  | .scalar _ => []

def fieldKeys : List (List UInt8 × Bson) → List (List UInt8)
  | [] => []
  | (key, value) :: fields => key :: (value.keys ++ fieldKeys fields)

def itemKeys : List Bson → List (List UInt8)
  | [] => []
  | item :: items => item.keys ++ itemKeys items

end

section Written
variable {P Q : List UInt8 → Prop} {a b : List UInt8}

theorem Written.nil : Written P [] := ⟨[], rfl, fun _ h => (List.not_mem_nil h).elim⟩

theorem Written.append (ha : Written P a) (hb : Written P b) : Written P (a ++ b) := by
  obtain ⟨s, rfl, hs⟩ := ha
  obtain ⟨t, rfl, ht⟩ := hb
  refine ⟨s ++ t, List.flatMap_append.symm, ?_⟩
  intro key hkey
  exact (List.mem_append.mp hkey).elim (hs key) (ht key)

theorem Written.token (t : Token) (h : ∀ key, .name key = t → P key) : Written P t.text := by
  refine ⟨[t], (List.flatMap_singleton ..).symm, ?_⟩
  intro key hkey
  exact h key (List.mem_singleton.mp hkey)

theorem Written.mark {m : UInt8} (hm : m ∈ punctuation) (ha : Written P a) : Written P (m :: a) :=
  (Written.token (.mark m hm) fun _ h => nomatch h).append ha

theorem Written.mono (ha : Written P a) (h : ∀ key, P key → Q key) : Written Q a := by
  obtain ⟨tokens, htext, hnames⟩ := ha
  exact ⟨tokens, htext, fun key hkey => h key (hnames key hkey)⟩

theorem Written.quote (ha : Written P a) : Written P (quote a) :=
  Written.mark (by decide) (ha.append (Written.mark (by decide) Written.nil))

theorem written_hidden : Written P hidden := (Written.token .hidden fun _ h => nomatch h).quote

theorem written_cutOff : Written P cutOff := (Written.token .cutOff fun _ h => nomatch h).quote

theorem written_intercalate {texts : List (List UInt8)} (h : ∀ text ∈ texts, Written P text) :
    Written P (comma.intercalate texts) := by
  rw [List.intercalate]
  induction texts with
  | nil => exact Written.nil
  | cons text texts ih =>
      have hhead := h text List.mem_cons_self
      have htail := ih fun t ht => h t (List.mem_cons_of_mem text ht)
      cases texts with
      | nil => exact hhead.append Written.nil
      | cons next texts =>
          rw [List.intersperse_cons_cons, List.flatten_cons, List.flatten_cons]
          exact hhead.append ((Written.mark (by decide) Written.nil).append htail)

end Written

/-- A name that comes from a key of a document. -/
def NameOf (keys : List (List UInt8)) (key : List UInt8) : Prop := isFieldName key = true ∧ key ∈ keys

theorem NameOf.mono {keys more : List (List UInt8)} (h : keys ⊆ more) (key : List UInt8) (hkey : NameOf keys key) :
    NameOf more key := ⟨hkey.1, h hkey.2⟩

theorem written_key {keys : List (List UInt8)} {key : List UInt8} (h : key ∈ keys) :
    Written (NameOf keys) (writeKey key) := by
  unfold writeKey
  split
  · rename_i hname
    apply Written.quote
    apply Written.token (.name key)
    intro k hk
    rw [Token.name.inj hk]
    exact ⟨hname, h⟩
  · exact written_hidden

mutual

theorem written_shape (depth : Nat) (top : Bool) : ∀ value : Bson, Written (NameOf value.keys) (writeShape depth top value)
  | .document fields => by
      rw [writeShape, Bson.keys]
      split
      · exact written_cutOff
      · exact Written.mark (by decide)
          ((written_intercalate (written_fields depth top fields)).append (Written.mark (by decide) Written.nil))
  | .array [] => by
      rw [writeShape]
      split
      · exact written_cutOff
      · exact Written.mark (by decide) (Written.mark (by decide) Written.nil)
  | .array (first :: rest) => by
      have hfirst := (written_shape (depth + 1) false first).mono
        (NameOf.mono (List.subset_append_left first.keys (itemKeys rest)))
      have hmore : Written (NameOf (first.keys ++ itemKeys rest)) (if rest = [] then [] else comma ++ cutOff) := by
        split
        · exact Written.nil
        · exact (Written.mark (by decide) Written.nil).append written_cutOff
      rw [writeShape, Bson.keys, itemKeys]
      split
      · exact written_cutOff
      · exact Written.mark (by decide) ((hfirst.append hmore).append (Written.mark (by decide) Written.nil))
  | .scalar _ => by
      rw [writeShape]
      split
      · exact written_cutOff
      · exact written_hidden

theorem written_fields (depth : Nat) (top : Bool) :
    ∀ fields : List (List UInt8 × Bson), ∀ text ∈ writeFields depth top fields, Written (NameOf (fieldKeys fields)) text
  | [] => by
      intro text h
      rw [writeFields] at h
      cases h
  | (key, value) :: fields => by
      have hrest : ∀ text ∈ writeFields depth top fields, Written (NameOf (fieldKeys ((key, value) :: fields))) text := by
        intro text h
        apply (written_fields depth top fields text h).mono
        apply NameOf.mono
        rw [fieldKeys]
        exact List.subset_cons_of_subset key (List.subset_append_right value.keys (fieldKeys fields))
      have hvalue : Written (NameOf (fieldKeys ((key, value) :: fields))) (writeShape (depth + 1) false value) := by
        apply (written_shape (depth + 1) false value).mono
        apply NameOf.mono
        rw [fieldKeys]
        exact List.subset_cons_of_subset key (List.subset_append_left value.keys (fieldKeys fields))
      intro text h
      rw [writeFields] at h
      split at h
      · exact hrest text h
      · apply (List.mem_cons.mp h).elim
        · rintro rfl
          apply (written_key _).append (Written.mark (by decide) hvalue)
          rw [fieldKeys]
          exact List.mem_cons_self
        · exact hrest text

end

/-- Commands with one tree have one text, and a text has nothing of a command but its keys that pass for field names. -/
theorem redaction_law :
    (∀ c d : List (List UInt8 × Bson), SameFields true c d → redactShape c = redactShape d) ∧
      ∀ c : List (List UInt8 × Bson),
        Written (fun key => isFieldName key = true ∧ key ∈ (Bson.document c).keys) (redactShape c) :=
  ⟨fun _ _ h => redactShape_of_sameFields h, fun c => written_shape 0 true (.document c)⟩

def textOf (s : String) : Bson := .scalar (utf8 s.toList)

/-- A `find` that names a person in a value, in a key and in its comment. -/
def findPerson (name : String) (groups : List Bson) : List (List UInt8 × Bson) :=
  [(utf8 "find".toList, textOf "users"),
    (utf8 "filter".toList, .document [(utf8 "name".toList, textOf name),
      (utf8 ("groups of " ++ name).toList, .array groups)]),
    (utf8 "comment".toList, textOf ("for " ++ name))]

/-- Two of them, on people with different groups. -/
theorem redaction_law_findPerson :
    redactShape (findPerson "ada" [textOf "staff", textOf "admins"]) =
      redactShape (findPerson "bob" [textOf "guests", .document [], textOf "night shift"]) := by
  have hkey : SameKey (utf8 "groups of ada".toList) (utf8 "groups of bob".toList) := .inr ⟨by decide, by decide⟩
  have hgroups : SameValue (.array [textOf "staff", textOf "admins"])
      (.array [textOf "guests", .document [], textOf "night shift"]) :=
    .longer (.scalar _ _) (List.cons_ne_nil _ _) (List.cons_ne_nil _ _)
  have hfilter : SameFields false [(utf8 "name".toList, textOf "ada"),
        (utf8 "groups of ada".toList, .array [textOf "staff", textOf "admins"])]
      [(utf8 "name".toList, textOf "bob"),
        (utf8 "groups of bob".toList, .array [textOf "guests", .document [], textOf "night shift"])] :=
    .field (.inl rfl) (.scalar _ _) (.field hkey hgroups (.nil _))
  refine redaction_law.1 _ _ (.field (.inl rfl) (.scalar _ _) (.field (.inl rfl) (.document hfilter) ?_))
  exact .ignored _ _ (by decide) (.nil _)

end IkelyaneMonitor.Agent.Db
