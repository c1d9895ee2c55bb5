import Mathlib.Algebra.Order.Group.Abs
import IkelyaneMonitor.Text
import IkelyaneMonitor.Wire.Text

/-!
# Signed requests and responses (`lib/telemetry/signature.ts`, `agent/internal/telemetry/sign.go`)

* `sign`, `verifyResponse` : the agent's side, in Go;
* `parseSignatureHeader`, `verifySignature`, `signResponse` : the server's side, in TypeScript;
* `Carries header name value` : what both parsers look for in a header, whatever blanks stand around it;
* `parse_sign`, `verifyResponse_signResponse` : each side accepts what the other signs;
* `carries_of_parse`, `carries_of_verifyResponse` : what a header that is accepted carries.

HMAC-SHA256 is a parameter: any function of the bytes of a key and of a message to 32 bytes. Times are seconds since the
epoch; the agent's clock is in nanoseconds.
-/

namespace IkelyaneMonitor.Telemetry
open Wire

abbrev Digest := { bytes : List UInt8 // bytes.length = 32 }

/-- What is signed: the time in decimal, a dot, the body. -/
def signedMessage (t : Int) (body : List UInt8) : List UInt8 := utf8 (t.repr.toList ++ ['.']) ++ body

section Hmac
variable (hmac : (key message : List UInt8) → Digest)

/-- The HMAC a secret gives the body at a time. -/
def digestOf (secret : String) (t : Int) (body : List UInt8) : Digest := hmac (utf8 secret.toList) (signedMessage t body)

/-! ## The agent -/

def sign (secret : String) (body : List UInt8) (t : Int) : List Char :=
  "t=".toList ++ t.repr.toList ++ ",v1=".toList ++ hexEncode (digestOf hmac secret t body).1

inductive VerifyError where
  | malformedTimestamp
  | malformedSignature
  | stale (skew : Int)
  | mismatch
  deriving DecidableEq, Repr

/-- The loop of `VerifyResponse` over the parts of the header: the last time and the signatures of 32 bytes. A part
without `=`, of another name, or whose signature does not decode is passed over; a time that does not parse ends it. -/
def scanParts : (parts : List (List Char)) → (t : Int) → (sigs : List (List UInt8)) → Option (Int × List (List UInt8))
  | [], t, sigs => some (t, sigs)
  | part :: parts, t, sigs =>
    match cut '=' (trimWith Text.isSpaceGo part) with
    | none => scanParts parts t sigs
    | some (key, value) =>
      if key = ['t'] then
        match parseInt64 value with
        | none => none
        | some parsed => scanParts parts parsed sigs
      else if key = ['v', '1'] then
        match hexDecode value with
        | none => scanParts parts t sigs
        | some sig => if sig.length = 32 then scanParts parts t (sigs ++ [sig]) else scanParts parts t sigs
      else scanParts parts t sigs

/-- `time.Time.Sub`: the difference in nanoseconds, cut to 64 bits. -/
def subSaturating (now : Int) (t : Int) : Int := max (-2 ^ 63) (min (2 ^ 63 - 1) (now - t * 10 ^ 9))

/-- `none` when the response is to be trusted. -/
def verifyResponse (secret : String) (header : List Char) (body : List UInt8) (now maxSkew : Int) : Option VerifyError :=
  match scanParts (header.splitOn ',') 0 [] with
  | none => some .malformedTimestamp
  | some (t, sigs) =>
    if t = 0 ∨ sigs.isEmpty then some .malformedSignature
    else if maxSkew < subSaturating now t ∨ subSaturating now t < -maxSkew then some (.stale (subSaturating now t))
    else if sigs.contains (digestOf hmac secret t body).1 then none
    else some .mismatch

/-! ## The server -/

structure ParsedSignature where
  timestamp : Nat
  signatures : List (List Char)
  deriving DecidableEq, Repr

/-- `/^\d{9,12}$/`. -/
def isTimestamp (value : List Char) : Bool := 9 ≤ value.length && value.length ≤ 12 && value.all Char.isDigit

/-- `HEX_SHA256`. -/
def isHexSha256 (hex : List Char) : Bool := hex.length == 64 && hex.all isLowerHex

/-- The loop of `parseSignatureHeader`. No character outside ASCII has a lower case that `HEX_SHA256` accepts, so that
`toLowerCase` is the one of ASCII here. -/
def parseParts : (parts : List (List Char)) → (timestamp : Option Nat) → (signatures : List (List Char)) →
    Option (Option Nat × List (List Char))
  | [], timestamp, signatures => some (timestamp, signatures)
  | part :: parts, timestamp, signatures =>
    match cut '=' part with
    | none => none
    | some (name, value) =>
      let name := trimWith Text.isSpace name
      let value := trimWith Text.isSpace value
      if name = ['t'] then
        if isTimestamp value then parseParts parts (some (Nat.ofDigitChars 10 value 0)) signatures else none
      else if name = ['v', '1'] then
        let hex := value.map Char.toLower
        if isHexSha256 hex then parseParts parts timestamp (signatures ++ [hex]) else none
      else parseParts parts timestamp signatures

def parseSignatureHeader (header : Option (List Char)) : Option ParsedSignature :=
  match header with
  | none => none
  | some header =>
    if header = [] ∨ 512 < units header then none
    else
      match parseParts (header.splitOn ',') none [] with
      | some (some timestamp, signatures) =>
        if signatures = [] ∨ 4 < signatures.length then none else some ⟨timestamp, signatures⟩
      | _ => none

def computeSignature (secret : String) (timestamp : Nat) (rawBody : String) : List Char :=
  hexEncode (digestOf hmac secret timestamp (utf8 rawBody.toList)).1

def verifySignature (secrets : List String) (parsed : ParsedSignature) (rawBody : String) : Bool :=
  secrets.any fun secret =>
    parsed.signatures.any fun candidate =>
      hexDecode (computeSignature hmac secret parsed.timestamp rawBody) == hexDecode candidate

def isTimestampFresh (timestampSeconds : Nat) (nowMs maxSkewSeconds : Int) : Bool :=
  |nowMs - timestampSeconds * 1000| ≤ maxSkewSeconds * 1000

def signResponse (secrets : List String) (rawBody : String) (nowMs : Nat) : List Char :=
  [','].intercalate (("t=".toList ++ (nowMs / 1000).repr.toList) ::
    secrets.map fun secret => "v1=".toList ++ computeSignature hmac secret (nowMs / 1000) rawBody)

/-! ## The signed message -/

theorem not_dot_of_mem_repr {t : Int} {c : Char} (h : c ∈ t.repr.toList) : c.toNat < 128 ∧ c ≠ '.' := by
  have hdigit : ∀ n : Nat, c ∈ n.repr.toList → c.toNat < 128 ∧ c ≠ '.' := by
    intro n hn
    have hd := isDigit_of_mem_repr hn
    refine ⟨lt_of_isLowerHex (isLowerHex_of_isDigit hd), ?_⟩
    rintro rfl
    cases hd
  cases t with
  | ofNat n => exact hdigit n h
  | negSucc n =>
      rw [Int.repr, String.toList_append, List.mem_append] at h
      rcases h with h | h
      · rw [List.mem_singleton.mp h]
        decide
      · exact hdigit _ h

/-- No byte of the time is a dot. -/
theorem dot_not_mem_utf8_repr (t : Int) : 46 ∉ utf8 t.repr.toList := by
  intro h
  obtain ⟨c, hc, hb⟩ := List.mem_flatMap.mp h
  obtain ⟨hlt, hne⟩ := not_dot_of_mem_repr hc
  have hall : ∀ n < 128, Char.ofNat n ≠ '.' → 46 ∉ String.utf8EncodeChar (Char.ofNat n) := by decide
  exact ascii_of_all (P := fun c => c ≠ '.' → 46 ∉ String.utf8EncodeChar c) hall hlt hne hb

theorem takeWhile_signedMessage (t : Int) (body : List UInt8) :
    (signedMessage t body).takeWhile (· != 46) = utf8 t.repr.toList := by
  have hdot : utf8 ['.'] = [46] := by decide
  rw [signedMessage, utf8_append, hdot, List.append_assoc, List.takeWhile_append_of_pos]
  · simp
  · intro b hb
    rw [bne_iff_ne]
    rintro rfl
    exact dot_not_mem_utf8_repr t hb

/-- The message says which time and which body were signed. -/
theorem signedMessage_injective {t t' : Int} {body body' : List UInt8} (h : signedMessage t body = signedMessage t' body') :
    t = t' ∧ body = body' := by
  have htime := congrArg (List.takeWhile (· != 46)) h
  rw [takeWhile_signedMessage, takeWhile_signedMessage] at htime
  have ht : t = t' := repr_injective (String.toList_injective (utf8_injective htime))
  subst ht
  exact ⟨rfl, List.append_cancel_left h⟩

/-! ## What is signed is accepted -/

/-- Neither a separator nor a blank, in either language. -/
def isPlain (c : Char) : Bool := c != ',' && c != '=' && !Text.isSpace c && !Text.isSpaceGo c

theorem isPlain_of_isLowerHex {c : Char} (h : isLowerHex c = true) : isPlain c = true := by
  have hall : ∀ n < 128, isLowerHex (Char.ofNat n) = true → isPlain (Char.ofNat n) = true := by decide
  exact ascii_of_all (P := fun c => isLowerHex c = true → isPlain c = true) hall (lt_of_isLowerHex h) h

theorem isPlain_of_mem_repr {n : Nat} {c : Char} (h : c ∈ n.repr.toList) : isPlain c = true :=
  isPlain_of_isLowerHex (isLowerHex_of_isDigit (isDigit_of_mem_repr h))

theorem isPlain_of_mem_int (t : Int) : ∀ c ∈ t.repr.toList, isPlain c = true := by
  intro c hc
  cases t with
  | ofNat n => exact isPlain_of_mem_repr hc
  | negSucc n =>
      simp only [Int.repr, String.toList_append, List.mem_append] at hc
      rcases hc with hminus | hdigit
      · rw [List.mem_singleton.mp hminus]
        rfl
      · exact isPlain_of_mem_repr hdigit

theorem isPlain_of_mem_hexEncode {bytes : List UInt8} {c : Char} (h : c ∈ hexEncode bytes) : isPlain c = true :=
  isPlain_of_isLowerHex (isLowerHex_of_mem_hexEncode h)

/-- A part `name=value` as both signers write it. -/
def part (name value : List Char) : List Char := name ++ '=' :: value

theorem sign_eq (secret : String) (body : List UInt8) (t : Int) :
    sign hmac secret body t =
      [','].intercalate [part ['t'] t.repr.toList, part ['v', '1'] (hexEncode (digestOf hmac secret t body).1)] := by
  simp [sign, part, List.intercalate]

section Plain
variable {name value : List Char}

theorem comma_not_mem_part (hname : ∀ c ∈ name, isPlain c = true) (hvalue : ∀ c ∈ value, isPlain c = true) :
    ',' ∉ part name value := by
  intro h
  rcases List.mem_append.mp h with h | h
  · cases hname _ h
  · rcases List.mem_cons.mp h with h | h
    · cases h
    · cases hvalue _ h

theorem cut_part (hname : ∀ c ∈ name, isPlain c = true) (value : List Char) :
    cut '=' (part name value) = some (name, value) := by
  apply cut_append
  intro h
  cases hname _ h

theorem trim_plain {l : List Char} (h : ∀ c ∈ l, isPlain c = true) : trimWith Text.isSpace l = l := by
  apply trimWith_eq_self
  intro c hc
  have hp := h c hc
  simp only [isPlain, Bool.and_eq_true, Bool.not_eq_true'] at hp
  exact hp.1.2

theorem trimGo_part (hname : ∀ c ∈ name, isPlain c = true) (hvalue : ∀ c ∈ value, isPlain c = true) :
    trimWith Text.isSpaceGo (part name value) = part name value := by
  have hgo : ∀ c, isPlain c = true → Text.isSpaceGo c = false := by
    intro c hp
    simp only [isPlain, Bool.and_eq_true, Bool.not_eq_true'] at hp
    exact hp.2
  apply trimWith_eq_self
  intro c hc
  rcases List.mem_append.mp hc with h | h
  · exact hgo c (hname c h)
  · rcases List.mem_cons.mp h with rfl | h
    · rfl
    · exact hgo c (hvalue c h)

end Plain

theorem isPlain_t : ∀ c ∈ ['t'], isPlain c = true := by
  rw [List.forall_mem_singleton]
  decide

theorem isPlain_v1 : ∀ c ∈ ['v', '1'], isPlain c = true := by
  rw [List.forall_mem_cons, List.forall_mem_singleton]
  decide

/-- Times of 9 to 12 decimal digits. -/
def Digits9To12 (t : Nat) : Prop := 10 ^ 8 ≤ t ∧ t < 10 ^ 12

theorem Digits9To12.isTimestamp {t : Nat} (h : Digits9To12 t) : isTimestamp t.repr.toList = true := by
  have hle : t.repr.toList.length ≤ 12 := by
    rw [Nat.toList_repr, Nat.length_toDigits_le_iff (by decide) (by decide)]
    exact h.2
  have hge : ¬ t.repr.toList.length ≤ 8 := by
    rw [Nat.toList_repr, Nat.length_toDigits_le_iff (by decide) (by decide)]
    exact Nat.not_lt.mpr h.1
  have hdigit : ∀ c ∈ t.repr.toList, c.isDigit = true := fun c => isDigit_of_mem_repr
  simp only [Telemetry.isTimestamp, Bool.and_eq_true, decide_eq_true_eq, List.all_eq_true]
  exact ⟨⟨by omega, hle⟩, hdigit⟩

theorem digits_of_isTimestamp {t : Int} (h : isTimestamp t.repr.toList = true) : ∃ n : Nat, t = n ∧ Digits9To12 n := by
  simp only [isTimestamp, Bool.and_eq_true, decide_eq_true_eq, List.all_eq_true] at h
  obtain ⟨⟨hmin, hmax⟩, hdigits⟩ := h
  cases t with
  | ofNat n =>
      have htime : (Int.ofNat n).repr.toList = n.repr.toList := rfl
      rw [htime, Nat.toList_repr] at hmin hmax
      refine ⟨n, rfl, ?_, (Nat.length_toDigits_le_iff (by decide) (by decide)).mp hmax⟩
      by_contra hlt
      have hshort := (Nat.length_toDigits_le_iff (b := 10) (k := 8) (n := n) (by decide) (by decide)).mpr (by omega)
      omega
  | negSucc n =>
      have hminus : '-' ∈ (Int.negSucc n).repr.toList := by simp [Int.repr]
      exact absurd (hdigits _ hminus) (by decide)

theorem isHexSha256_hexEncode (digest : Digest) :
    (hexEncode digest.1).map Char.toLower = hexEncode digest.1 ∧ isHexSha256 (hexEncode digest.1) = true := by
  have hlower : ∀ n < 128, isLowerHex (Char.ofNat n) = true → (Char.ofNat n).toLower = Char.ofNat n := by decide
  constructor
  · refine (List.map_congr_left fun c hc => ?_).trans (List.map_id _)
    have hc := isLowerHex_of_mem_hexEncode hc
    exact ascii_of_all (P := fun c => isLowerHex c = true → c.toLower = c) hlower (lt_of_isLowerHex hc) hc
  · simp only [isHexSha256, length_hexEncode, digest.2, Bool.and_eq_true, List.all_eq_true]
    exact ⟨rfl, fun c => isLowerHex_of_mem_hexEncode⟩

theorem splitOn_sign (secret : String) (body : List UInt8) (t : Int) :
    (sign hmac secret body t).splitOn ',' =
      [part ['t'] t.repr.toList, part ['v', '1'] (hexEncode (digestOf hmac secret t body).1)] := by
  rw [sign_eq]
  apply List.splitOn_intercalate
  · intro l hl
    rcases List.mem_pair.mp hl with rfl | rfl
    · exact comma_not_mem_part isPlain_t (isPlain_of_mem_int t)
    · exact comma_not_mem_part isPlain_v1 fun c => isPlain_of_mem_hexEncode
  · exact List.cons_ne_nil _ _

/-- A time of another length is not read. -/
theorem digits_of_parse_sign {secret : String} {body : List UInt8} {t : Int} {parsed : ParsedSignature}
    (h : parseSignatureHeader (some (sign hmac secret body t)) = some parsed) : ∃ n : Nat, t = n ∧ Digits9To12 n := by
  apply digits_of_isTimestamp
  by_contra hnot
  simp only [parseSignatureHeader, splitOn_sign, parseParts, cut_part isPlain_t, trim_plain isPlain_t,
    trim_plain (isPlain_of_mem_int t), hnot] at h
  simp at h

/-- The server reads what the agent signed. -/
theorem parse_sign (secret : String) (body : List UInt8) {t : Nat} (ht : Digits9To12 t) :
    parseSignatureHeader (some (sign hmac secret body t)) = some ⟨t, [hexEncode (digestOf hmac secret t body).1]⟩ := by
  obtain ⟨hlower, hhex⟩ := isHexSha256_hexEncode (digestOf hmac secret t body)
  have htime : ((t : Int)).repr.toList = t.repr.toList := rfl
  have hplain : ∀ c ∈ t.repr.toList, isPlain c = true := fun c => isPlain_of_mem_repr
  have hplain' : ∀ c ∈ hexEncode (digestOf hmac secret t body).1, isPlain c = true := fun c => isPlain_of_mem_hexEncode
  have hsplit := splitOn_sign hmac secret body t
  rw [htime] at hsplit
  have hlen : (sign hmac secret body t).length ≤ 82 := by
    have hle : t.repr.toList.length ≤ 12 := by
      rw [Nat.toList_repr, Nat.length_toDigits_le_iff (by decide) (by decide)]
      exact ht.2
    rw [sign, htime]
    simp only [List.length_append, length_hexEncode, (digestOf hmac secret t body).2]
    have h1 : "t=".toList.length = 2 := rfl
    have h2 : ",v1=".toList.length = 4 := rfl
    omega
  have hne : sign hmac secret body t ≠ [] := by
    intro h
    rw [h] at hsplit
    cases hsplit
  have hunits := units_le (sign hmac secret body t)
  have hv1 : ¬ ['v', '1'] = ['t'] := by decide
  simp only [parseSignatureHeader, hsplit, parseParts, cut_part isPlain_t, cut_part isPlain_v1, trim_plain isPlain_t,
    trim_plain isPlain_v1, trim_plain hplain, trim_plain hplain', ht.isTimestamp, hlower, hhex, ofDigitChars_repr, hv1,
    if_true, if_false, List.nil_append]
  rw [if_neg (by rw [not_or]; exact ⟨hne, by omega⟩), if_neg (by simp)]

/-- One signature that decodes to the HMAC under one of the secrets is enough, and needed. -/
theorem verifySignature_iff {secrets : List String} {parsed : ParsedSignature} {rawBody : String} :
    verifySignature hmac secrets parsed rawBody = true ↔ ∃ secret ∈ secrets, ∃ candidate ∈ parsed.signatures,
      hexDecode candidate = some (digestOf hmac secret parsed.timestamp (utf8 rawBody.toList)).1 := by
  simp only [verifySignature, List.any_eq_true, computeSignature, hexDecode_hexEncode, beq_iff_eq]
  constructor
  · rintro ⟨secret, hs, candidate, hc, heq⟩
    exact ⟨secret, hs, candidate, hc, heq.symm⟩
  · rintro ⟨secret, hs, candidate, hc, heq⟩
    exact ⟨secret, hs, candidate, hc, heq.symm⟩

/-- The loop of the agent over the signatures the server sends. -/
theorem scanParts_v1 (digests : List Digest) (t : Int) (sigs : List (List UInt8)) :
    scanParts (digests.map fun digest => part ['v', '1'] (hexEncode digest.1)) t sigs =
      some (t, sigs ++ digests.map Subtype.val) := by
  induction digests generalizing sigs with
  | nil => simp [scanParts]
  | cons digest digests ih =>
      have hplain : ∀ c ∈ hexEncode digest.1, isPlain c = true := fun c => isPlain_of_mem_hexEncode
      have hv1 : ¬ ['v', '1'] = ['t'] := by decide
      simp only [List.map_cons, scanParts, trimGo_part isPlain_v1 hplain, cut_part isPlain_v1, hv1, if_true, if_false,
        hexDecode_hexEncode, digest.2]
      rw [ih, List.append_assoc, List.singleton_append]

theorem scanParts_signResponse (secrets : List String) (rawBody : String) {nowMs : Nat} (h : nowMs / 1000 < 2 ^ 63) :
    scanParts ((signResponse hmac secrets rawBody nowMs).splitOn ',') 0 [] =
      some (((nowMs / 1000 : Nat) : Int),
        secrets.map fun secret => (digestOf hmac secret ((nowMs / 1000 : Nat) : Int) (utf8 rawBody.toList)).1) := by
  have hplain : ∀ c ∈ (nowMs / 1000).repr.toList, isPlain c = true := fun c => isPlain_of_mem_repr
  have heq : signResponse hmac secrets rawBody nowMs = [','].intercalate (part ['t'] (nowMs / 1000).repr.toList ::
      (secrets.map fun secret => digestOf hmac secret ((nowMs / 1000 : Nat) : Int) (utf8 rawBody.toList)).map
        fun digest => part ['v', '1'] (hexEncode digest.1)) := by
    rw [List.map_map]
    rfl
  rw [heq, List.splitOn_intercalate]
  · simp only [scanParts, trimGo_part isPlain_t hplain, cut_part isPlain_t, if_true, parseInt64_repr h]
    rw [scanParts_v1, List.nil_append, List.map_map]
    rfl
  · intro l hl
    rcases List.mem_cons.mp hl with rfl | hl
    · exact comma_not_mem_part isPlain_t hplain
    · obtain ⟨digest, -, rfl⟩ := List.mem_map.mp hl
      exact comma_not_mem_part isPlain_v1 fun c => isPlain_of_mem_hexEncode
  · exact List.cons_ne_nil _ _

/-- The agent trusts what the server signed with its secret, within the tolerance. -/
theorem verifyResponse_signResponse {secrets : List String} {secret : String} (hsecret : secret ∈ secrets)
    (rawBody : String) {nowMs : Nat} (ht : Digits9To12 (nowMs / 1000)) {now maxSkew : Int}
    (hskew : |subSaturating now ((nowMs / 1000 : Nat) : Int)| ≤ maxSkew) :
    verifyResponse hmac secret (signResponse hmac secrets rawBody nowMs) (utf8 rawBody.toList) now maxSkew = none := by
  obtain ⟨hlow, hhigh⟩ := ht
  have hsmall : nowMs / 1000 < 2 ^ 63 := by omega
  have hscan := scanParts_signResponse hmac secrets rawBody hsmall
  have hne : ¬ (((nowMs / 1000 : Nat) : Int) = 0 ∨
      (secrets.map fun secret => (digestOf hmac secret ((nowMs / 1000 : Nat) : Int)
        (utf8 rawBody.toList)).1).isEmpty = true) := by
    rw [not_or]
    refine ⟨by omega, ?_⟩
    rw [List.isEmpty_iff, List.map_eq_nil_iff]
    exact List.ne_nil_of_mem hsecret
  have hfresh : ¬ (maxSkew < subSaturating now ((nowMs / 1000 : Nat) : Int) ∨
      subSaturating now ((nowMs / 1000 : Nat) : Int) < -maxSkew) := by
    obtain ⟨h1, h2⟩ := abs_le.mp hskew
    omega
  unfold verifyResponse
  simp only [hscan]
  rw [if_neg hne, if_neg hfresh, if_pos]
  exact List.contains_iff_mem.mpr (List.mem_map.mpr ⟨secret, hsecret, rfl⟩)

/-! ## What is accepted was signed -/

def isBlank (c : Char) : Bool := Text.isSpace c || Text.isSpaceGo c

/-- The part reads `name=value`, with blanks anywhere around the two. -/
def PartCarries (part name value : List Char) : Prop :=
  ∃ s₁ s₂ s₃ s₄, (∀ c ∈ s₁ ++ s₂ ++ s₃ ++ s₄, isBlank c = true) ∧
    part = s₁ ++ name ++ s₂ ++ '=' :: (s₃ ++ value ++ s₄)

/-- One of the comma-separated parts of the header is `name=value`. -/
def Carries (header name value : List Char) : Prop := ∃ part ∈ header.splitOn ',', PartCarries part name value

/-- The server trims the two sides of `=`. -/
theorem partCarries_of_cut {part name value : List Char} (h : cut '=' part = some (name, value)) :
    PartCarries part (trimWith Text.isSpace name) (trimWith Text.isSpace value) := by
  obtain ⟨s₁, s₂, h₁, h₂, hname⟩ := trimWith_spec Text.isSpace name
  obtain ⟨s₃, s₄, h₃, h₄, hvalue⟩ := trimWith_spec Text.isSpace value
  refine ⟨s₁, s₂, s₃, s₄, ?_, ?_⟩
  · intro c hc
    have hspace : Text.isSpace c = true := by
      simp only [List.mem_append] at hc
      rcases hc with ((hc | hc) | hc) | hc
      · exact h₁ c hc
      · exact h₂ c hc
      · exact h₃ c hc
      · exact h₄ c hc
    rw [isBlank, hspace, Bool.true_or]
  · rw [← hname, ← hvalue]
    exact eq_of_cut h

/-- The agent trims the whole part. -/
theorem partCarries_of_cutGo {part name value : List Char}
    (h : cut '=' (trimWith Text.isSpaceGo part) = some (name, value)) : PartCarries part name value := by
  obtain ⟨s₁, s₄, h₁, h₄, hpart⟩ := trimWith_spec Text.isSpaceGo part
  refine ⟨s₁, [], [], s₄, ?_, ?_⟩
  · intro c hc
    have hspace : Text.isSpaceGo c = true := by
      simp only [List.append_nil, List.mem_append] at hc
      rcases hc with hc | hc
      · exact h₁ c hc
      · exact h₄ c hc
    rw [isBlank, hspace, Bool.or_true]
  · rw [eq_of_cut h] at hpart
    rw [hpart]
    simp

/-- What was found in some of the parts is found with one more in front. -/
theorem or_later {A : Prop} {P : List Char → Prop} {part : List Char} {parts : List (List Char)}
    (h : A ∨ ∃ p ∈ parts, P p) : A ∨ ∃ p ∈ part :: parts, P p := by
  rcases h with h | ⟨p, hp, hP⟩
  · exact .inl h
  · exact .inr ⟨p, List.mem_cons_of_mem _ hp, hP⟩

/-- Where the server's loop takes its time and its signatures from. -/
theorem parseParts_spec {parts : List (List Char)} {timestamp timestamp' : Option Nat} {sigs sigs' : List (List Char)}
    (h : parseParts parts timestamp sigs = some (timestamp', sigs')) :
    (timestamp' = timestamp ∨ ∃ part ∈ parts, ∃ value, PartCarries part ['t'] value ∧
        value.all Char.isDigit = true ∧ timestamp' = some (Nat.ofDigitChars 10 value 0)) ∧
      ∀ sig ∈ sigs', sig ∈ sigs ∨ ∃ part ∈ parts, ∃ value, PartCarries part ['v', '1'] value ∧
        sig = value.map Char.toLower := by
  induction parts generalizing timestamp sigs with
  | nil =>
      cases h
      exact ⟨.inl rfl, fun sig hsig => .inl hsig⟩
  | cons part parts ih =>
      rw [parseParts] at h
      split at h
      · cases h
      rename_i name value hcut
      have hpart := partCarries_of_cut hcut
      simp only at h
      split at h
      · -- `t=`: it replaces the time found so far
        rename_i ht
        rw [ht] at hpart
        split at h
        · rename_i hstamp
          obtain ⟨htime, hsigs⟩ := ih h
          refine ⟨.inr ?_, fun sig hsig => or_later (hsigs sig hsig)⟩
          rcases htime with htime | ⟨p, hp, v, hv⟩
          · simp only [isTimestamp, Bool.and_eq_true] at hstamp
            exact ⟨part, List.mem_cons_self, _, hpart, hstamp.2, htime⟩
          · exact ⟨p, List.mem_cons_of_mem _ hp, v, hv⟩
        · cases h
      split at h
      · -- `v1=`: one more signature
        rename_i hv1
        rw [hv1] at hpart
        split at h
        · obtain ⟨htime, hsigs⟩ := ih h
          refine ⟨or_later htime, ?_⟩
          intro sig hsig
          rcases hsigs sig hsig with hold | hlater
          · rcases List.mem_append.mp hold with hold | hnew
            · exact .inl hold
            · exact .inr ⟨part, List.mem_cons_self, _, hpart, List.mem_singleton.mp hnew⟩
          · exact or_later (.inr hlater)
        · cases h
      · obtain ⟨htime, hsigs⟩ := ih h
        exact ⟨or_later htime, fun sig hsig => or_later (hsigs sig hsig)⟩

/-- Where the agent's loop takes its time and its signatures from. -/
structure Scanned (parts : List (List Char)) (t t' : Int) (sigs sigs' : List (List UInt8)) : Prop where
  time : t' = t ∨ ∃ part ∈ parts, ∃ value, PartCarries part ['t'] value ∧ parseInt64 value = some t'
  signature : ∀ sig ∈ sigs', sig ∈ sigs ∨ ∃ part ∈ parts, ∃ value, PartCarries part ['v', '1'] value ∧
    hexDecode value = some sig

theorem Scanned.later {part : List Char} {parts : List (List Char)} {t t' : Int} {sigs sigs' : List (List UInt8)}
    (h : Scanned parts t t' sigs sigs') : Scanned (part :: parts) t t' sigs sigs' :=
  ⟨or_later h.time, fun sig hsig => or_later (h.signature sig hsig)⟩

theorem scanParts_spec {parts : List (List Char)} {t t' : Int} {sigs sigs' : List (List UInt8)}
    (h : scanParts parts t sigs = some (t', sigs')) : Scanned parts t t' sigs sigs' := by
  induction parts generalizing t sigs with
  | nil =>
      cases h
      exact ⟨.inl rfl, fun sig hsig => .inl hsig⟩
  | cons part parts ih =>
      rw [scanParts] at h
      split at h
      · exact (ih h).later
      rename_i key value hcut
      have hpart := partCarries_of_cutGo hcut
      split at h
      · rename_i ht
        rw [ht] at hpart
        split at h
        · cases h
        · rename_i parsed hparsed
          obtain ⟨htime, hsigs⟩ := ih h
          refine ⟨.inr ?_, fun sig hsig => or_later (hsigs sig hsig)⟩
          rcases htime with rfl | ⟨p, hp, v, hv⟩
          · exact ⟨part, List.mem_cons_self, _, hpart, hparsed⟩
          · exact ⟨p, List.mem_cons_of_mem _ hp, v, hv⟩
      split at h
      · rename_i hv1
        rw [hv1] at hpart
        split at h
        · exact (ih h).later
        · rename_i sig₀ hdecode
          split at h
          · obtain ⟨htime, hsigs⟩ := ih h
            refine ⟨or_later htime, ?_⟩
            intro sig hsig
            rcases hsigs sig hsig with hold | hlater
            · rcases List.mem_append.mp hold with hold | hnew
              · exact .inl hold
              · rw [List.mem_singleton.mp hnew]
                exact .inr ⟨part, List.mem_cons_self, _, hpart, hdecode⟩
            · exact or_later (.inr hlater)
          · exact (ih h).later
      · exact (ih h).later

/-- What a header that the server accepts carries: the time it checks, and an HMAC for that time. -/
theorem carries_of_parse {header : List Char} {parsed : ParsedSignature} {secrets : List String} {rawBody : String}
    (hparse : parseSignatureHeader (some header) = some parsed)
    (hverify : verifySignature hmac secrets parsed rawBody = true) :
    (∃ value, Carries header ['t'] value ∧ value.all Char.isDigit = true ∧
        Nat.ofDigitChars 10 value 0 = parsed.timestamp) ∧
      ∃ secret ∈ secrets, ∃ value, Carries header ['v', '1'] value ∧
        hexDecode value = some (digestOf hmac secret parsed.timestamp (utf8 rawBody.toList)).1 := by
  unfold parseSignatureHeader at hparse
  simp only at hparse
  split at hparse
  · cases hparse
  split at hparse
  · rename_i timestamp signatures hparts
    split at hparse
    · cases hparse
    cases hparse
    obtain ⟨htime, hsigs⟩ := parseParts_spec hparts
    obtain ⟨secret, hsecret, candidate, hcand, heq⟩ := (verifySignature_iff hmac).mp hverify
    constructor
    · rcases htime with htime | ⟨part, hpart, value, hcarries, hdigits, htime⟩
      · cases htime
      · exact ⟨value, ⟨part, hpart, hcarries⟩, hdigits, (Option.some.inj htime).symm⟩
    · rcases hsigs candidate hcand with hold | ⟨part, hpart, value, hcarries, rfl⟩
      · cases hold
      · rw [hexDecode_map_toLower] at heq
        exact ⟨secret, hsecret, value, ⟨part, hpart, hcarries⟩, heq⟩
  · cases hparse

/-- The same of a response the agent accepts. -/
theorem carries_of_verifyResponse {secret : String} {header : List Char} {body : List UInt8} {now maxSkew : Int}
    (h : verifyResponse hmac secret header body now maxSkew = none) :
    ∃ t, (∃ value, Carries header ['t'] value ∧ parseInt64 value = some t) ∧ |subSaturating now t| ≤ maxSkew ∧
      ∃ value, Carries header ['v', '1'] value ∧ hexDecode value = some (digestOf hmac secret t body).1 := by
  unfold verifyResponse at h
  split at h
  · cases h
  rename_i t sigs hscan
  obtain ⟨htime, hsigs⟩ := scanParts_spec hscan
  split at h
  · cases h
  rename_i hne
  rw [not_or] at hne
  split at h
  · cases h
  rename_i hfresh
  split at h
  · rename_i hmem
    refine ⟨t, ?_, abs_le.mpr (by omega), ?_⟩
    · rcases htime with htime | ⟨part, hpart, value, hcarries, hparsed⟩
      · exact absurd htime hne.1
      · exact ⟨value, ⟨part, hpart, hcarries⟩, hparsed⟩
    · rcases hsigs _ (List.contains_iff_mem.mp hmem) with hold | ⟨part, hpart, value, hcarries, hdecode⟩
      · cases hold
      · exact ⟨value, ⟨part, hpart, hcarries⟩, hdecode⟩
  · cases h

end Hmac

end IkelyaneMonitor.Telemetry
