import IkelyaneMonitor.Telemetry.Signature

/-!
# Authentication of agents (`lib/telemetry/auth.ts`, `lib/telemetry/errors.ts`)

* `authenticateAgent` : the checks of a signed request, in the source's order; `acceptedSecrets` : the secrets it is
  verified with, the previous one during the grace of a rotation;
* `authenticateAgent_ok` : what a request that passes carries, and `authenticateAgent_signed` : what becomes of a
  request that was signed as the agent does;
* `signatures_agree` : agent and server accept what the other signs, and nothing else.

Encryption at rest is a parameter. An unknown key is verified against a placeholder secret to take the same time; that
verdict is dropped and leaves no trace here.
-/

namespace IkelyaneMonitor.Telemetry
open Wire

inductive ErrorCode where
  | missingKeyId | missingSignature | malformedSignature | timestampOutOfTolerance | invalidSignature | hostDisabled
  | payloadTooLarge | invalidJson | invalidPayload | timestampOutOfRange | notRunning | internalError
  deriving DecidableEq, Repr

/-- `error.code` on the wire. -/
def ErrorCode.text : ErrorCode → String
  | .missingKeyId => "missing_key_id"
  | .missingSignature => "missing_signature"
  | .malformedSignature => "malformed_signature"
  | .timestampOutOfTolerance => "timestamp_out_of_tolerance"
  | .invalidSignature => "invalid_signature"
  | .hostDisabled => "host_disabled"
  | .payloadTooLarge => "payload_too_large"
  | .invalidJson => "invalid_json"
  | .invalidPayload => "invalid_payload"
  | .timestampOutOfRange => "timestamp_out_of_range"
  | .notRunning => "not_running"
  | .internalError => "internal_error"

/-- `TelemetryHttpError`. -/
structure HttpError where
  status : Nat
  code : ErrorCode
  message : String
  deriving DecidableEq, Repr

def internalError : HttpError := ⟨500, .internalError, "Internal error. Retry later."⟩

/-- The columns of a monitored host that authentication reads. -/
structure AgentHost where
  id : Nat
  orgId : Nat
  hostname : String
  keyId : String
  enabled : Bool
  firstSeenAt : Option Int
  hmacSecretEnc : String
  previousHmacSecretEnc : Option String
  previousSecretExpiresAt : Option Int
  deriving DecidableEq, Repr

structure AuthenticatedAgent where
  hostId : Nat
  orgId : Nat
  hostname : String
  keyId : String
  firstSeenAt : Option Int
  responseSecrets : List String
  deriving DecidableEq, Repr

structure AuthInput where
  keyId : Option String
  signatureHeader : Option (List Char)
  rawBody : String
  nowMs : Int
  maxSkewSeconds : Nat

def hostSecretAad (keyId : String) : String := "host:" ++ keyId

section Primitives
variable (hmac : (key message : List UInt8) → Digest) (decryptSecret : (payload aad : String) → Option String)

/-- The previous secret, while the grace of the last rotation lasts. -/
def previousStillValid (host : AgentHost) (nowMs : Int) : Option String :=
  match host.previousHmacSecretEnc, host.previousSecretExpiresAt with
  | some enc, some expiresAt => if enc ≠ "" ∧ nowMs < expiresAt then some enc else none
  | _, _ => none

/-- The secrets a request of the host is verified with; `none` when a ciphertext does not decrypt. -/
def acceptedSecrets (host : AgentHost) (nowMs : Int) : Option (List String) :=
  match decryptSecret host.hmacSecretEnc (hostSecretAad host.keyId) with
  | none => none
  | some current =>
    match previousStillValid host nowMs with
    | none => some [current]
    | some enc => (decryptSecret enc (hostSecretAad host.keyId)).map fun previous => [current, previous]

theorem previousStillValid_eq {host : AgentHost} {enc : String} {expiresAt : Int} (hne : enc ≠ "")
    (henc : host.previousHmacSecretEnc = some enc) (hexpires : host.previousSecretExpiresAt = some expiresAt) (nowMs : Int) :
    previousStillValid host nowMs = if nowMs < expiresAt then some enc else none := by
  simp only [previousStillValid, henc, hexpires, hne, ne_eq, not_false_iff, true_and]

def missingKeyId : HttpError := ⟨401, .missingKeyId, "The X-Ikelyane-Key-Id header is required."⟩
def missingSignature : HttpError := ⟨401, .missingSignature, "The X-Ikelyane-Signature header is required."⟩
def malformedSignature : HttpError :=
  ⟨401, .malformedSignature, "X-Ikelyane-Signature must look like 't=<unix seconds>,v1=<hex hmac-sha256>'."⟩
def timestampOutOfTolerance (maxSkewSeconds : Nat) : HttpError :=
  ⟨401, .timestampOutOfTolerance, "The signed timestamp differs from server time by more than " ++ maxSkewSeconds.repr ++
    " seconds. Check the agent's clock."⟩
def invalidSignature : HttpError := ⟨401, .invalidSignature, "Signature verification failed."⟩
def hostDisabled : HttpError := ⟨403, .hostDisabled, "This host is disabled in IkelyaneMonitor."⟩

/-- `hosts` is the table of monitored hosts, whose key ids are unique. A ciphertext that does not decrypt is answered as
any unexpected error. -/
def authenticateAgent (hosts : List AgentHost) (input : AuthInput) : Except HttpError AuthenticatedAgent :=
  match input.keyId with
  | none => .error missingKeyId
  | some keyId =>
    if keyId = "" then .error missingKeyId
    else if input.signatureHeader = none ∨ input.signatureHeader = some [] then .error missingSignature
    else
      match parseSignatureHeader input.signatureHeader with
      | none => .error malformedSignature
      | some parsed =>
        if !isTimestampFresh parsed.timestamp input.nowMs input.maxSkewSeconds then
          .error (timestampOutOfTolerance input.maxSkewSeconds)
        else
          match hosts.find? fun host => host.keyId == keyId with
          | none => .error invalidSignature
          | some host =>
            match acceptedSecrets decryptSecret host input.nowMs with
            | none => .error internalError
            | some secrets =>
              if !verifySignature hmac secrets parsed input.rawBody then .error invalidSignature
              else if !host.enabled then .error hostDisabled
              else .ok ⟨host.id, host.orgId, host.hostname, host.keyId, host.firstSeenAt, secrets⟩

/-- A request that passes: its header, the host its key names, and the checks it went through. -/
theorem authenticateAgent_ok {hosts : List AgentHost} {input : AuthInput} {agent : AuthenticatedAgent}
    (h : authenticateAgent hmac decryptSecret hosts input = .ok agent) :
    ∃ header parsed host, input.signatureHeader = some header ∧ parseSignatureHeader (some header) = some parsed ∧
      isTimestampFresh parsed.timestamp input.nowMs input.maxSkewSeconds = true ∧
      (hosts.find? fun h => h.keyId == host.keyId) = some host ∧ input.keyId = some host.keyId ∧ host.keyId ≠ "" ∧
      acceptedSecrets decryptSecret host input.nowMs = some agent.responseSecrets ∧
      verifySignature hmac agent.responseSecrets parsed input.rawBody = true ∧ host.enabled = true := by
  unfold authenticateAgent at h
  split at h
  · cases h
  rename_i keyId hkey
  split at h
  · cases h
  rename_i hne
  split at h
  · cases h
  rename_i hsome
  split at h
  · cases h
  rename_i parsed hparse
  split at h
  · cases h
  rename_i hfresh
  split at h
  · cases h
  rename_i host hfind
  split at h
  · cases h
  rename_i secrets hsecrets
  split at h
  · cases h
  rename_i hverify
  split at h
  · cases h
  rename_i henabled
  cases h
  obtain ⟨header, hheader⟩ : ∃ l, input.signatureHeader = some l := by
    rw [not_or] at hsome
    exact Option.ne_none_iff_exists'.mp hsome.1
  rw [hheader] at hparse
  obtain rfl : host.keyId = keyId := by simpa using List.find?_some hfind
  exact ⟨header, parsed, host, hheader, hparse, by simpa using hfresh, hfind, hkey, hne, hsecrets, by simpa using hverify,
    by simpa using henabled⟩

/-- A request of a known host whose time is within the tolerance, up to the secrets of the host. -/
theorem authenticateAgent_fresh {hosts : List AgentHost} {host : AgentHost} {secret body : String} {t maxSkewSeconds : Nat}
    {nowMs : Int} (hkey : host.keyId ≠ "") (hfind : (hosts.find? fun h => h.keyId == host.keyId) = some host)
    (ht : Digits9To12 t) (hfresh : |nowMs - t * 1000| ≤ maxSkewSeconds * 1000) :
    authenticateAgent hmac decryptSecret hosts
        ⟨some host.keyId, some (sign hmac secret (utf8 body.toList) t), body, nowMs, maxSkewSeconds⟩ =
      match acceptedSecrets decryptSecret host nowMs with
      | none => .error internalError
      | some secrets =>
        if !verifySignature hmac secrets ⟨t, [hexEncode (digestOf hmac secret t (utf8 body.toList)).1]⟩ body then
          .error invalidSignature
        else if !host.enabled then .error hostDisabled
        else .ok ⟨host.id, host.orgId, host.hostname, host.keyId, host.firstSeenAt, secrets⟩ := by
  have hparse := parse_sign hmac secret (utf8 body.toList) ht
  have hheader : ¬ ((some (sign hmac secret (utf8 body.toList) t) : Option (List Char)) = none ∨
      some (sign hmac secret (utf8 body.toList) t) = some []) := by
    rw [not_or]
    refine ⟨nofun, fun h => ?_⟩
    rw [h] at hparse
    cases hparse
  have hfresh' : isTimestampFresh t nowMs maxSkewSeconds = true := decide_eq_true hfresh
  simp only [authenticateAgent, hkey, hheader, hparse, hfresh', hfind, if_false, Bool.not_true, Bool.false_eq_true]

/-- The signature decides, then whether the host is enabled. -/
theorem authenticateAgent_signed {hosts : List AgentHost} {host : AgentHost} {secrets : List String} {secret body : String}
    {t maxSkewSeconds : Nat} {nowMs : Int} (hkey : host.keyId ≠ "")
    (hfind : (hosts.find? fun h => h.keyId == host.keyId) = some host)
    (hsecrets : acceptedSecrets decryptSecret host nowMs = some secrets) (ht : Digits9To12 t)
    (hfresh : |nowMs - t * 1000| ≤ maxSkewSeconds * 1000) :
    authenticateAgent hmac decryptSecret hosts
        ⟨some host.keyId, some (sign hmac secret (utf8 body.toList) t), body, nowMs, maxSkewSeconds⟩ =
      if ∃ other ∈ secrets, digestOf hmac other t (utf8 body.toList) = digestOf hmac secret t (utf8 body.toList) then
        if host.enabled = true then
          .ok ⟨host.id, host.orgId, host.hostname, host.keyId, host.firstSeenAt, secrets⟩
        else .error hostDisabled
      else .error invalidSignature := by
  have hverify : verifySignature hmac secrets ⟨t, [hexEncode (digestOf hmac secret t (utf8 body.toList)).1]⟩ body = true ↔
      ∃ other ∈ secrets, digestOf hmac other t (utf8 body.toList) = digestOf hmac secret t (utf8 body.toList) := by
    rw [verifySignature_iff]
    simp only [List.mem_singleton, exists_eq_left, hexDecode_hexEncode, Option.some.injEq]
    refine exists_congr fun other => and_congr_right fun _ => ?_
    rw [← Subtype.ext_iff]
    exact eq_comm
  rw [authenticateAgent_fresh hmac decryptSecret hkey hfind ht hfresh, hsecrets]
  by_cases h : ∃ other ∈ secrets, digestOf hmac other t (utf8 body.toList) = digestOf hmac secret t (utf8 body.toList)
  · rw [if_pos h]
    simp only [hverify.mpr h]
    cases host.enabled <;> rfl
  · rw [if_neg h]
    simp only [Bool.eq_false_iff.mpr (mt hverify.mp h)]
    rfl

/-- Agent and server accept what the other signs; the message signed says which time and body it is for; and a header
that is accepted, whatever else it holds, carries the HMAC of the body under an accepted secret for the time whose
freshness was checked. -/
theorem signatures_agree :
    (∀ (secret body : String) (t : Nat), Digits9To12 t →
      ∃ parsed, parseSignatureHeader (some (sign hmac secret (utf8 body.toList) t)) = some parsed ∧
        parsed.timestamp = t ∧ ∀ secrets, secret ∈ secrets → verifySignature hmac secrets parsed body = true) ∧
    (∀ (secrets : List String) (body : String) (nowMs : Nat) (now maxSkew : Int), secrets.length ≤ 4 →
      Digits9To12 (nowMs / 1000) → |subSaturating now ((nowMs / 1000 : Nat) : Int)| ≤ maxSkew →
      ∀ secret ∈ secrets,
        verifyResponse hmac secret (signResponse hmac secrets body nowMs) (utf8 body.toList) now maxSkew = none) ∧
    (∀ (t t' : Int) (body body' : List UInt8), signedMessage t body = signedMessage t' body' → t = t' ∧ body = body') ∧
    (∀ (hosts : List AgentHost) (input : AuthInput) (agent : AuthenticatedAgent),
      authenticateAgent hmac decryptSecret hosts input = .ok agent →
      ∃ header t, input.signatureHeader = some header ∧
        (∃ value, Carries header ['t'] value ∧ value.all Char.isDigit = true ∧ Nat.ofDigitChars 10 value 0 = t) ∧
        |input.nowMs - t * 1000| ≤ input.maxSkewSeconds * 1000 ∧
        ∃ secret ∈ agent.responseSecrets, ∃ value, Carries header ['v', '1'] value ∧
          hexDecode value = some (digestOf hmac secret t (utf8 input.rawBody.toList)).1) ∧
    (∀ (secret : String) (header : List Char) (body : List UInt8) (now maxSkew : Int),
      verifyResponse hmac secret header body now maxSkew = none →
      ∃ t, (∃ value, Carries header ['t'] value ∧ parseInt64 value = some t) ∧ |subSaturating now t| ≤ maxSkew ∧
        ∃ value, Carries header ['v', '1'] value ∧ hexDecode value = some (digestOf hmac secret t body).1) := by
  refine ⟨?_, ?_, ?_, ?_, ?_⟩
  · intro secret body t ht
    refine ⟨_, parse_sign hmac secret (utf8 body.toList) ht, rfl, fun secrets hsecret => ?_⟩
    rw [verifySignature_iff]
    exact ⟨secret, hsecret, _, List.mem_singleton.mpr rfl, hexDecode_hexEncode _⟩
  · intro secrets body nowMs now maxSkew _ ht hskew secret hsecret
    exact verifyResponse_signResponse hmac hsecret body ht hskew
  · intro t t' body body' h
    exact signedMessage_injective h
  · intro hosts input agent h
    obtain ⟨header, parsed, host, hheader, hparse, hfresh, -, -, -, -, hverify, -⟩ :=
      authenticateAgent_ok hmac decryptSecret h
    obtain ⟨htime, hsig⟩ := carries_of_parse hmac hparse hverify
    exact ⟨header, parsed.timestamp, hheader, htime, of_decide_eq_true hfresh, hsig⟩
  · intro secret header body now maxSkew h
    exact carries_of_verifyResponse hmac h

end Primitives

/-- A keyed digest to run the protocol with. -/
def sampleHmac (key message : List UInt8) : Digest :=
  ⟨((key ++ message).reverse ++ List.replicate 32 0).take 32, by simp; omega⟩

/-- One request and one response, signed on one side and accepted on the other. -/
theorem signatures_agree_sample :
    (∃ parsed, parseSignatureHeader (some (sign sampleHmac "s3cret" (utf8 "[]".toList) 1758000000)) = some parsed ∧
      verifySignature sampleHmac ["new", "s3cret"] parsed "[]" = true) ∧
    verifyResponse sampleHmac "s3cret" (signResponse sampleHmac ["new", "s3cret"] "[]" 1758000000500) (utf8 "[]".toList)
      1758000030000000000 300000000000 = none := by
  obtain ⟨hsign, hresponse, -⟩ := signatures_agree sampleHmac fun payload _ => some payload
  obtain ⟨parsed, hparse, -, hverify⟩ := hsign "s3cret" "[]" 1758000000 ⟨by decide, by decide⟩
  refine ⟨⟨parsed, hparse, hverify ["new", "s3cret"] (by decide)⟩, ?_⟩
  exact hresponse ["new", "s3cret"] "[]" 1758000000500 1758000030000000000 300000000000 (by decide)
    ⟨by decide, by decide⟩ (by decide) "s3cret" (by decide)

end IkelyaneMonitor.Telemetry
