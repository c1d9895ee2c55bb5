import IkelyaneMonitor.Auth.Base32
import IkelyaneMonitor.Wire.Rounding
import IkelyaneMonitor.Wire.Text

/-!
# Password hashes (`lib/auth/password.ts`)

* `number` : `Number`, of a text;
* `NodeCrypto` : what Node provides. `NodeCrypto.scrypt` raises unless `N` is a power of two, `r` and `p` are in range and the
  memory suffices;
* `parse`, `derive`, `verifyPassword`, `hashPassword` : the functions of the file;
* `parse_bounds` : the cost parameters that are read are bounded, but `N` may be any number in between;
* `verify_resolves_iff` : a verification resolves unless the stored parameters are such that scrypt raises;
  `uneven_cost_rejects` : where it does not;
* `verify_hashPassword` : what was hashed verifies.

A result that is an error is a promise that rejects.
-/

namespace IkelyaneMonitor.Auth
open Wire

/-! ## `Number` -/

/-- The value of some digits, at least one. -/
def digitsIn (radix : Nat) (l : List Char) : Option Nat :=
  if l = [] then none
  else l.foldl (fun value c => do
    let n ← value
    let d ← hexValue c
    if d < radix then some (radix * n + d) else none) (some 0)

def exponentPart : List Char → Option Int
  | [] => some 0
  | c :: rest =>
    if c = 'e' ∨ c = 'E' then
      match rest with
      | '+' :: digits => (digitsIn 10 digits).map Int.ofNat
      | '-' :: digits => (digitsIn 10 digits).map fun n => -(n : Int)
      | digits => (digitsIn 10 digits).map Int.ofNat
    else none

/-- The digits behind the point, if there is one, and what follows them. -/
def fractionPart : List Char → List Char × List Char
  | '.' :: rest => (rest.takeWhile Char.isDigit, rest.dropWhile Char.isDigit)
  | rest => ([], rest)

def decimalLiteral (l : List Char) : Option ℚ := do
  let whole := l.takeWhile Char.isDigit
  let (fraction, rest) := fractionPart (l.dropWhile Char.isDigit)
  let value ← digitsIn 10 (whole ++ fraction)
  let exponent ← exponentPart rest
  let shift := exponent - fraction.length
  return (value : ℚ) * 10 ^ shift.toNat / 10 ^ (-shift).toNat

/-- The number that is written, before it is rounded. -/
def literal : List Char → Option ℚ
  | [] => some 0
  | '0' :: 'x' :: digits | '0' :: 'X' :: digits => (digitsIn 16 digits).map fun n => (n : ℚ)
  | '0' :: 'o' :: digits | '0' :: 'O' :: digits => (digitsIn 8 digits).map fun n => (n : ℚ)
  | '0' :: 'b' :: digits | '0' :: 'B' :: digits => (digitsIn 2 digits).map fun n => (n : ℚ)
  | '+' :: rest => decimalLiteral rest
  | '-' :: rest => (decimalLiteral rest).map Neg.neg
  | rest => decimalLiteral rest

/-- `none` stands for `NaN` and for the infinities. -/
def number (fl : Rounding) (text : List Char) : Option ℚ := (literal (trimWith Text.isSpace text)).map fl.round

/-! ## Hashes -/

structure ScryptParams where
  N : Nat
  r : Nat
  p : Nat
  keylen : Nat
  deriving DecidableEq, Repr

structure Parsed where
  params : ScryptParams
  salt : List UInt8
  hash : List UInt8
  deriving DecidableEq, Repr

/-- Why a verification rejects. -/
inductive Rejection where
  | invalidScryptParams | differentLengths
  deriving DecidableEq, Repr

structure NodeCrypto where
  /-- `normalize("NFKC")`. -/
  normalize : String → String
  /-- `Buffer.from(…, "base64")`. -/
  fromBase64 : List Char → List UInt8
  toBase64 : List UInt8 → List Char
  /-- `r` and `p` are in the range that scrypt takes. -/
  inRange : (N r p : Nat) → Bool
  /-- What scrypt computes. -/
  key : (password : String) → (salt : List UInt8) → ScryptParams → List UInt8

def NodeCrypto.scrypt (node : NodeCrypto) (password : String) (salt : List UInt8) (params : ScryptParams) (maxmem : Nat) :
    Except Rejection (List UInt8) :=
  if 1 < params.N ∧ params.N.isPowerOfTwo ∧ node.inRange params.N params.r params.p ∧
      128 * params.N * params.r + 128 * params.p * params.r ≤ maxmem then
    .ok (node.key password salt params)
  else .error .invalidScryptParams

def timingSafeEqual (a b : List UInt8) : Except Rejection Bool :=
  if a.length = b.length then .ok (a == b) else .error .differentLengths

def maxMemory : Nat := 256 * 1024 * 1024

/-- A number that is whole and in the range. -/
def integerIn (low high : Nat) (x : Option ℚ) : Option Nat :=
  x.bind fun q => if q.den = 1 ∧ low ≤ q ∧ q ≤ high then some q.num.toNat else none

section Functions
variable (fl : Rounding) (node : NodeCrypto)

def derive (password : String) (salt : List UInt8) (params : ScryptParams) : Except Rejection (List UInt8) :=
  node.scrypt (node.normalize password) salt params maxMemory

def parse (stored : String) : Option Parsed :=
  match stored.toList.splitOn '$' with
  | [scheme, n, r, p, saltText, hashText] =>
    if scheme ≠ "scrypt".toList then none
    else
      match integerIn (2 ^ 12) (2 ^ 20) (number fl n), integerIn 1 32 (number fl r), integerIn 1 16 (number fl p) with
      | some N, some r, some p =>
        let salt := node.fromBase64 saltText
        let hash := node.fromBase64 hashText
        if salt.length < 8 ∨ hash.length < 16 then none else some ⟨⟨N, r, p, hash.length⟩, salt, hash⟩
      | _, _, _ => none
  | _ => none

def verifyPassword (password : String) (stored : Option String) : Except Rejection Bool :=
  match stored with
  | none => .ok false
  | some text =>
    if text = "" then .ok false
    else
      match parse fl node text with
      | none => .ok false
      | some parsed =>
        match derive node password parsed.salt parsed.params with
        | .error e => .error e
        | .ok candidate =>
          if candidate.length = parsed.hash.length then timingSafeEqual candidate parsed.hash else .ok false

def passwordParams : ScryptParams := ⟨2 ^ 15, 8, 3, 32⟩

def hashPassword (password : String) (salt : List UInt8) : Except Rejection String :=
  match derive node password salt passwordParams with
  | .error e => .error e
  | .ok hash => .ok (String.ofList (['$'].intercalate ["scrypt".toList, (toString passwordParams.N).toList,
      (toString passwordParams.r).toList, (toString passwordParams.p).toList, node.toBase64 salt, node.toBase64 hash]))

variable {fl node}

theorem mem_integerIn {low high : Nat} {x : Option ℚ} {n : Nat} (h : integerIn low high x = some n) : low ≤ n ∧ n ≤ high := by
  obtain ⟨q, -, hq⟩ := Option.bind_eq_some_iff.mp h
  split at hq
  · rename_i hcond
    obtain ⟨hden, hlow, hhigh⟩ := hcond
    obtain rfl := Option.some.inj hq
    have hnum : q = (q.num : ℚ) := (Rat.den_eq_one_iff q).mp hden |>.symm
    have hlow' : (low : Int) ≤ q.num := by
      rw [hnum] at hlow
      exact_mod_cast hlow
    have hhigh' : q.num ≤ (high : Int) := by
      rw [hnum] at hhigh
      exact_mod_cast hhigh
    omega
  · cases hq

/-- What is read of a stored text is bounded. -/
theorem parse_bounds {stored : String} {parsed : Parsed} (h : parse fl node stored = some parsed) :
    2 ^ 12 ≤ parsed.params.N ∧ parsed.params.N ≤ 2 ^ 20 ∧ 1 ≤ parsed.params.r ∧ parsed.params.r ≤ 32 ∧
      1 ≤ parsed.params.p ∧ parsed.params.p ≤ 16 ∧ parsed.params.keylen = parsed.hash.length := by
  unfold parse at h
  split at h
  · split at h
    · cases h
    · split at h
      · rename_i N r p hN hr hp
        simp only at h
        split at h
        · cases h
        · obtain rfl := Option.some.inj h
          obtain ⟨hN₁, hN₂⟩ := mem_integerIn hN
          obtain ⟨hr₁, hr₂⟩ := mem_integerIn hr
          obtain ⟨hp₁, hp₂⟩ := mem_integerIn hp
          exact ⟨hN₁, hN₂, hr₁, hr₂, hp₁, hp₂, rfl⟩
      · cases h
  · cases h

/-- Scrypt takes the parameters. -/
structure Supported (node : NodeCrypto) (params : ScryptParams) : Prop where
  power : params.N.isPowerOfTwo
  range : node.inRange params.N params.r params.p = true
  memory : 128 * params.N * params.r + 128 * params.p * params.r ≤ maxMemory

theorem derive_ok {password : String} {salt : List UInt8} {params : ScryptParams} (hN : 1 < params.N)
    (h : Supported node params) :
      derive node password salt params = .ok (node.key (node.normalize password) salt params) := by
  have hcond : 1 < params.N ∧ params.N.isPowerOfTwo ∧ node.inRange params.N params.r params.p ∧
      128 * params.N * params.r + 128 * params.p * params.r ≤ maxMemory := ⟨hN, h.power, h.range, h.memory⟩
  rw [derive, NodeCrypto.scrypt, if_pos hcond]

theorem supported_of_derive {password : String} {salt : List UInt8} {params : ScryptParams} {candidate : List UInt8}
    (h : derive node password salt params = .ok candidate) :
    Supported node params ∧ candidate = node.key (node.normalize password) salt params := by
  unfold derive NodeCrypto.scrypt at h
  split at h
  · rename_i hcond
    obtain ⟨-, hpower, hrange, hmemory⟩ := hcond
    exact ⟨⟨hpower, hrange, hmemory⟩, (Except.ok.inj h).symm⟩
  · cases h

theorem parse_empty : parse fl node "" = none := rfl

/-- The verification of a text that is read. -/
theorem verifyPassword_of_parse {password text : String} {parsed : Parsed} (h : parse fl node text = some parsed) :
    verifyPassword fl node password (some text) =
      match derive node password parsed.salt parsed.params with
      | .error e => .error e
      | .ok candidate => .ok (candidate == parsed.hash) := by
  have hne : text ≠ "" := by
    rintro rfl
    rw [parse_empty] at h
    cases h
  simp only [verifyPassword, if_neg hne, h]
  cases derive node password parsed.salt parsed.params with
  | error e => rfl
  | ok candidate =>
      by_cases hlength : candidate.length = parsed.hash.length
      · simp only [if_pos hlength, timingSafeEqual]
      · have hdiffer : (candidate == parsed.hash) = false := by
          rw [beq_eq_false_iff_ne]
          exact fun heq => hlength (congrArg List.length heq)
        simp only [if_neg hlength, hdiffer]

/-- A text that is not read is refused. -/
theorem verifyPassword_of_none {password text : String} (h : parse fl node text = none) :
    verifyPassword fl node password (some text) = .ok false := by
  unfold verifyPassword
  by_cases hne : text = ""
  · simp only [if_pos hne]
  · simp only [if_neg hne, h]

/-- Only what scrypt computes is accepted. -/
theorem accepted_of_verify {password : String} {stored : Option String}
    (h : verifyPassword fl node password stored = .ok true) :
    ∃ text parsed, stored = some text ∧ parse fl node text = some parsed ∧
      node.key (node.normalize password) parsed.salt parsed.params = parsed.hash := by
  cases stored with
  | none => cases h
  | some text =>
      cases hparse : parse fl node text with
      | none =>
          rw [verifyPassword_of_none hparse] at h
          cases h
      | some parsed =>
          refine ⟨text, parsed, rfl, hparse, ?_⟩
          rw [verifyPassword_of_parse hparse] at h
          cases hderive : derive node password parsed.salt parsed.params with
          | error e =>
              rw [hderive] at h
              cases h
          | ok candidate =>
              rw [hderive] at h
              obtain ⟨-, rfl⟩ := supported_of_derive hderive
              exact eq_of_beq (Except.ok.inj h)

/-- A verification resolves, and to `true` only for the hash of the password, exactly when no stored parameters are read
or scrypt takes them. -/
theorem verify_resolves_iff (fl : Rounding) (node : NodeCrypto) (password : String) (stored : Option String) :
    ((∃ verdict, verifyPassword fl node password stored = .ok verdict) ∧
      (verifyPassword fl node password stored = .ok true → ∃ text parsed, stored = some text ∧
        parse fl node text = some parsed ∧
        node.key (node.normalize password) parsed.salt parsed.params = parsed.hash)) ↔
      ∀ text parsed, stored = some text → parse fl node text = some parsed → Supported node parsed.params := by
  constructor
  · rintro ⟨⟨verdict, hverify⟩, -⟩ text parsed rfl hparse
    rw [verifyPassword_of_parse hparse] at hverify
    cases hderive : derive node password parsed.salt parsed.params with
    | error e =>
        rw [hderive] at hverify
        cases hverify
    | ok candidate => exact (supported_of_derive hderive).1
  · intro h
    refine ⟨?_, accepted_of_verify⟩
    cases stored with
    | none => exact ⟨false, rfl⟩
    | some text =>
        cases hparse : parse fl node text with
        | none => exact ⟨false, verifyPassword_of_none hparse⟩
        | some parsed =>
            have hN : 1 < parsed.params.N := lt_of_lt_of_le (by decide) (parse_bounds hparse).1
            rw [verifyPassword_of_parse hparse, derive_ok hN (h text parsed rfl hparse)]
            exact ⟨_, rfl⟩

theorem number_of_literal {text : List Char} {n : Nat} (h : literal (trimWith Text.isSpace text) = some (n : ℚ))
    (hn : n ≤ 2 ^ 53) : number fl text = some (n : ℚ) := by
  have hwhole : fl.round ((n : ℤ) : ℚ) = ((n : ℤ) : ℚ) := fl.whole n hn
  rw [number, h, Option.map_some]
  exact congrArg some (by exact_mod_cast hwhole)

theorem integerIn_natCast {low high n : Nat} (hlow : low ≤ n) (hhigh : n ≤ high) :
    integerIn low high (some (n : ℚ)) = some n := by
  have hcond : (n : ℚ).den = 1 ∧ (low : ℚ) ≤ n ∧ (n : ℚ) ≤ high :=
    ⟨rfl, by exact_mod_cast hlow, by exact_mod_cast hhigh⟩
  rw [integerIn, Option.bind_some, if_pos hcond]
  rfl

/-- The text of a hash is read back. -/
theorem parse_hashText (hback : ∀ bytes, node.fromBase64 (node.toBase64 bytes) = bytes)
    (hplain : ∀ bytes, '$' ∉ node.toBase64 bytes) {salt hash : List UInt8} (hsalt : salt.length = 16)
    (hhash : hash.length = 32) :
    parse fl node (String.ofList (['$'].intercalate ["scrypt".toList, (toString passwordParams.N).toList,
      (toString passwordParams.r).toList, (toString passwordParams.p).toList, node.toBase64 salt, node.toBase64 hash])) =
      some ⟨passwordParams, salt, hash⟩ := by
  have hsplit : (String.ofList (['$'].intercalate ["scrypt".toList, (toString passwordParams.N).toList,
      (toString passwordParams.r).toList, (toString passwordParams.p).toList, node.toBase64 salt,
      node.toBase64 hash])).toList.splitOn '$' = ["scrypt".toList, (toString passwordParams.N).toList,
      (toString passwordParams.r).toList, (toString passwordParams.p).toList, node.toBase64 salt, node.toBase64 hash] := by
    rw [String.toList_ofList]
    apply List.splitOn_intercalate
    · intro l hl
      simp only [List.mem_cons, List.not_mem_nil, or_false] at hl
      rcases hl with rfl | rfl | rfl | rfl | rfl | rfl
      · decide
      · decide
      · decide
      · decide
      · exact hplain salt
      · exact hplain hash
    · exact List.cons_ne_nil _ _
  have hN : integerIn (2 ^ 12) (2 ^ 20) (number fl (toString passwordParams.N).toList) = some passwordParams.N := by
    rw [number_of_literal (n := passwordParams.N) (by decide +kernel) (by decide)]
    exact integerIn_natCast (by decide) (by decide)
  have hr : integerIn 1 32 (number fl (toString passwordParams.r).toList) = some passwordParams.r := by
    rw [number_of_literal (n := passwordParams.r) (by decide +kernel) (by decide)]
    exact integerIn_natCast (by decide) (by decide)
  have hp : integerIn 1 16 (number fl (toString passwordParams.p).toList) = some passwordParams.p := by
    rw [number_of_literal (n := passwordParams.p) (by decide +kernel) (by decide)]
    exact integerIn_natCast (by decide) (by decide)
  have hsizes : ¬ (salt.length < 8 ∨ hash.length < 16) := by omega
  simp only [parse, hsplit, hN, hr, hp, hback, ne_eq, not_true_eq_false, if_false]
  rw [if_neg hsizes, hhash]
  rfl

/-- What was hashed verifies, of every password that reads the same. -/
theorem verify_hashPassword {password password' stored : String} {salt : List UInt8}
    (hback : ∀ bytes, node.fromBase64 (node.toBase64 bytes) = bytes) (hplain : ∀ bytes, '$' ∉ node.toBase64 bytes)
    (hkey : ∀ text salt params, (node.key text salt params).length = params.keylen) (hsalt : salt.length = 16)
    (hsame : node.normalize password' = node.normalize password) (hstored : hashPassword node password salt = .ok stored) :
    verifyPassword fl node password' (some stored) = .ok true := by
  unfold hashPassword at hstored
  cases hderive : derive node password salt passwordParams with
  | error e =>
      rw [hderive] at hstored
      cases hstored
  | ok hash =>
      rw [hderive] at hstored
      obtain rfl := Except.ok.inj hstored
      obtain ⟨hsupported, rfl⟩ := supported_of_derive hderive
      have hparse := @parse_hashText fl node hback hplain _ _ hsalt
        (hkey (node.normalize password) salt passwordParams)
      rw [verifyPassword_of_parse hparse, derive, hsame, ← derive, hderive]
      simp only [beq_self_eq_true]

end Functions

/-! ## A cost that is not a power of two -/

def base64Alphabet : List Char := "ABCDEFGHIJKLMNOPQRSTUVWXYZabcdefghijklmnopqrstuvwxyz0123456789+/".toList

/-- Up to the padding, without what is not in the alphabet. -/
def base64Decode (text : List Char) : List UInt8 :=
  octets (((text.takeWhile (· ≠ '=')).filter base64Alphabet.contains).flatMap fun c => bits 6 (base64Alphabet.idxOf c))

def base64Encode (bytes : List UInt8) : List Char :=
  let digits := (groups 6 (bytes.flatMap byteBits)).map fun group => base64Alphabet.getD (ofBits group) 'A'
  digits ++ List.replicate ((4 - digits.length % 4) % 4) '='

/-- Text in ASCII, and a key of zeros. -/
def sampleNode : NodeCrypto where
  normalize := id
  fromBase64 := base64Decode
  toBase64 := base64Encode
  inRange := fun N r p => 1 ≤ r && 1 ≤ p && p * r < 2 ^ 30 && N < 2 ^ (16 * r)
  key := fun _ _ params => List.replicate params.keylen 0

/-- The salt is `saltsaltsalt` and the hash has twenty bytes. -/
def unevenHash : String := "scrypt$5000$8$1$c2FsdHNhbHRzYWx0$aGFzaGhhc2hoYXNoaGFzaGhhc2g="

theorem parse_unevenHash (fl : Rounding) : parse fl sampleNode unevenHash =
    some ⟨⟨5000, 8, 1, 20⟩, base64Decode "c2FsdHNhbHRzYWx0".toList, base64Decode "aGFzaGhhc2hoYXNoaGFzaGhhc2g=".toList⟩ := by
  have hsplit : unevenHash.toList.splitOn '$' = ["scrypt".toList, "5000".toList, "8".toList, "1".toList,
      "c2FsdHNhbHRzYWx0".toList, "aGFzaGhhc2hoYXNoaGFzaGhhc2g=".toList] := by decide
  have hN : integerIn (2 ^ 12) (2 ^ 20) (number fl "5000".toList) = some 5000 := by
    rw [number_of_literal (n := 5000) (by decide +kernel) (by decide)]
    exact integerIn_natCast (by decide) (by decide)
  have hr : integerIn 1 32 (number fl "8".toList) = some 8 := by
    rw [number_of_literal (n := 8) (by decide +kernel) (by decide)]
    exact integerIn_natCast (by decide) (by decide)
  have hp : integerIn 1 16 (number fl "1".toList) = some 1 := by
    rw [number_of_literal (n := 1) (by decide +kernel) (by decide)]
    exact integerIn_natCast (by decide) (by decide)
  have hsalt : (base64Decode "c2FsdHNhbHRzYWx0".toList).length = 12 := by decide +kernel
  have hhash : (base64Decode "aGFzaGhhc2hoYXNoaGFzaGhhc2g=".toList).length = 20 := by decide +kernel
  simp only [parse, hsplit, hN, hr, hp, sampleNode, hsalt, hhash, ne_eq, not_true_eq_false, if_false]
  rfl

/-- A cost of 5000 passes the checks of `parse`, and scrypt raises. -/
theorem uneven_cost_rejects :
    ¬ ∃ verdict, verifyPassword Rounding.exact sampleNode "correct horse battery staple" (some unevenHash) = .ok verdict := by
  rintro ⟨verdict, hverify⟩
  have hcost : ¬ (5000 : Nat).isPowerOfTwo := by decide
  rw [verifyPassword_of_parse (parse_unevenHash Rounding.exact), derive, NodeCrypto.scrypt,
    if_neg fun h => hcost h.2.1] at hverify
  cases hverify

end IkelyaneMonitor.Auth
