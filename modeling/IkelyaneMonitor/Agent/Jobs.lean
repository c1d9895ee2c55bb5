import IkelyaneMonitor.Agent.Config
import IkelyaneMonitor.Telemetry.Signature
import IkelyaneMonitor.Wire.Json

/-!
# Jobs of the platform (`agent/internal/remediation/remediation.go`, `agent/internal/remediation/client.go`)

* `next` : the reading of a response of `GET /api/v1/remediation/next`;
* `refusal` : why the host must not run a job, by its own configuration;
* `allowed_of_refusal` : what a job that is not refused must be, whatever the platform sent;
* `refusal_exact_iff` : the refusal is exact, but for the timeouts that wrap (`WrapsUnder`, `timeout_iff`).

SHA-256 is a parameter, any function of bytes to 32 bytes, and so is the quoting of `%q`, which only the text of an error
shows. `Unmarshal` also takes names of fields that differ in case alone; the platform sends none.
-/

namespace IkelyaneMonitor.Agent
open Wire Telemetry

/-- One execution handed out by the platform. -/
structure Job where
  id : String
  runtime : String
  script : String
  sha256 : String
  /-- The entries of a map, in the order they are gone through. -/
  args : List (String × String)
  timeoutSec : Int
  incidentId : Option String
  deriving DecidableEq, Repr

/-! ## `Refusal` -/

/-- A reason code of the platform and a message for people. -/
structure Refused where
  reason : String
  message : String
  deriving DecidableEq, Repr

/-- `^[A-Z][A-Z0-9_]{0,63}$`. -/
def argName (name : String) : Bool :=
  match name.toList with
  | [] => false
  | c :: cs => c.isUpper && cs.length ≤ 63 && cs.all fun d => d.isUpper || d.isDigit || d == '_'

/-- `^[A-Za-z0-9_-]{1,64}$`. -/
def safeId (id : String) : Bool :=
  1 ≤ id.toList.length && id.toList.length ≤ 64 && id.toList.all fun c => c.isAlphanum || c == '_' || c == '-'

theorem ascii_of_safeId {id : String} (h : safeId id = true) : ∀ c ∈ id.toList, c.toNat < 128 := by
  simp only [safeId, Bool.and_eq_true, List.all_eq_true] at h
  intro c hc
  have hsafe := h.2 c hc
  simp only [Char.isAlphanum, Char.isAlpha, Char.isUpper, Char.isLower, Char.isDigit, Bool.or_eq_true, Bool.and_eq_true,
    decide_eq_true_eq, beq_iff_eq] at hsafe
  have hle : ∀ m : UInt32, c.val ≤ m → c.toNat ≤ m.toNat := fun m hm => UInt32.le_iff_toNat_le.mp hm
  rcases hsafe with (((⟨-, h⟩ | ⟨-, h⟩) | ⟨-, h⟩) | rfl) | rfl
  · exact Nat.lt_of_le_of_lt (hle _ h) (by decide)
  · exact Nat.lt_of_le_of_lt (hle _ h) (by decide)
  · exact Nat.lt_of_le_of_lt (hle _ h) (by decide)
  · decide
  · decide

theorem length_of_safeId {id : String} (h : safeId id = true) : 1 ≤ id.toList.length ∧ id.toList.length ≤ 64 := by
  simp only [safeId, Bool.and_eq_true, decide_eq_true_eq] at h
  exact h.1

def maxTimeout : Int := seconds 3600

section Refusal
variable (digest : List UInt8 → Digest) (quote : String → String)

def sha256Hex (s : String) : String := String.ofList (hexEncode (digest (utf8 s.toList)).1)

/-- `none` when the host may run the job. -/
def refusal (policy : Remediation) (job : Job) : Option Refused :=
  let refused (message : String) : Option Refused := some ⟨"refused_by_agent_policy", message⟩
  let actual := sha256Hex digest job.script
  if !safeId job.id then refused "malformed execution id"
  else if actual ≠ job.sha256 then refused ("script does not match its announced SHA-256 (got " ++ actual ++ ")")
  else if policy.mode ≠ "any" ∧ policy.mode ≠ "allowlist" then
    refused "remediation is disabled in this host's agent configuration"
  else if policy.mode = "allowlist" ∧ ¬ policy.allowedSha256.contains actual then
    refused ("script " ++ actual ++ " is not in this host's remediation allowlist")
  else if job.timeoutSec ≤ 0 ∨ maxTimeout < seconds job.timeoutSec then
    refused ("timeout " ++ job.timeoutSec.repr ++ "s is outside 1s..1h")
  else
    match job.args.find? fun arg => !argName arg.1 with
    | some arg => refused ("invalid argument name " ++ quote arg.1)
    | none => none

variable {digest quote}

theorem refusal_eq_none_iff {policy : Remediation} {job : Job} :
    refusal digest quote policy job = none ↔
      safeId job.id = true ∧ sha256Hex digest job.script = job.sha256 ∧
      (policy.mode = "any" ∨ policy.mode = "allowlist") ∧
      (policy.mode = "allowlist" → sha256Hex digest job.script ∈ policy.allowedSha256) ∧
      (0 < job.timeoutSec ∧ seconds job.timeoutSec ≤ maxTimeout) ∧ ∀ arg ∈ job.args, argName arg.1 = true := by
  unfold refusal
  constructor
  · intro h
    simp only at h
    split at h
    · cases h
    rename_i hid
    split at h
    · cases h
    rename_i hsha
    split at h
    · cases h
    rename_i hmode
    split at h
    · cases h
    rename_i hlisted
    split at h
    · cases h
    rename_i htimeout
    split at h
    · cases h
    rename_i hargs
    rw [not_or, Int.not_le, Int.not_lt] at htimeout
    refine ⟨by simpa using hid, not_not.mp hsha, ?_, ?_, htimeout, ?_⟩
    · by_contra hnot
      exact hmode (not_or.mp hnot)
    · intro hm
      by_contra hnot
      exact hlisted ⟨hm, by simpa using hnot⟩
    · intro arg harg
      simpa using List.find?_eq_none.mp hargs arg harg
  · rintro ⟨hid, hsha, hmode, hlisted, htimeout, hargs⟩
    have hargs : (job.args.find? fun arg => !argName arg.1) = none := by
      rw [List.find?_eq_none]
      intro arg harg
      rw [hargs arg harg]
      exact Bool.false_ne_true
    have hid : ¬ (!safeId job.id) = true := by
      rw [hid]
      exact Bool.false_ne_true
    have hmode : ¬ (policy.mode ≠ "any" ∧ policy.mode ≠ "allowlist") := fun hnot => not_or.mpr hnot hmode
    have hlisted : ¬ (policy.mode = "allowlist" ∧ ¬ policy.allowedSha256.contains (sha256Hex digest job.script) = true) := by
      rintro ⟨hm, hnot⟩
      exact hnot (List.contains_iff_mem.mpr (hlisted hm))
    have htimeout : ¬ (job.timeoutSec ≤ 0 ∨ maxTimeout < seconds job.timeoutSec) := by
      rw [not_or, Int.not_le, Int.not_lt]
      exact htimeout
    simp only
    rw [if_neg hid, if_neg (not_not.mpr hsha), if_neg hmode, if_neg hlisted, if_neg htimeout, hargs]

/-- What is asked of a job, its timeout apart. -/
def OtherwisePermitted (digest : List UInt8 → Digest) (policy : Remediation) (job : Job) : Prop :=
  safeId job.id = true ∧ sha256Hex digest job.script = job.sha256 ∧
    (policy.mode = "any" ∨ policy.mode = "allowlist" ∧ sha256Hex digest job.script ∈ policy.allowedSha256) ∧
    ∀ arg ∈ job.args, argName arg.1 = true

/-- A job that may run, without any arithmetic of 64 bits. -/
def Permitted (digest : List UInt8 → Digest) (policy : Remediation) (job : Job) : Prop :=
  OtherwisePermitted digest policy job ∧ 1 ≤ job.timeoutSec ∧ job.timeoutSec ≤ 3600

/-- More than an hour that comes out as an hour or less, once the nanoseconds are cut to 64 bits. -/
def WrapsUnder (timeoutSec : Int) : Prop :=
  3600 < timeoutSec ∧ (timeoutSec * 10 ^ 9 % 2 ^ 64 ≤ 3600 * 10 ^ 9 ∨ 2 ^ 63 ≤ timeoutSec * 10 ^ 9 % 2 ^ 64)

theorem seconds_le_iff (n : Int) :
    seconds n ≤ maxTimeout ↔ n * 10 ^ 9 % 2 ^ 64 ≤ 3600 * 10 ^ 9 ∨ 2 ^ 63 ≤ n * 10 ^ 9 % 2 ^ 64 := by
  have hmax : maxTimeout = 3600 * 10 ^ 9 := by decide
  rw [hmax, seconds]
  generalize n * 10 ^ 9 = x
  simp only [Int.bmod]
  split_ifs <;> omega

/-- The check of the timeout lets through what it is meant to, and what wraps. -/
theorem timeout_iff (n : Int) : 0 < n ∧ seconds n ≤ maxTimeout ↔ (1 ≤ n ∧ n ≤ 3600) ∨ WrapsUnder n := by
  rw [seconds_le_iff, WrapsUnder]
  have hexact : 0 < n → n ≤ 3600 → n * 10 ^ 9 % 2 ^ 64 ≤ 3600 * 10 ^ 9 := by
    intro hpos hle
    have hsmall : n * 10 ^ 9 % 2 ^ 64 = n * 10 ^ 9 := Int.emod_eq_of_lt (by omega) (by omega)
    omega
  constructor
  · rintro ⟨hpos, hle⟩
    by_cases hhour : n ≤ 3600
    · exact .inl ⟨hpos, hhour⟩
    · exact .inr ⟨Int.not_le.mp hhour, hle⟩
  · intro h
    apply h.elim
    · rintro ⟨hpos, hle⟩
      exact ⟨hpos, .inl (hexact hpos hle)⟩
    · rintro ⟨hhour, hwraps⟩
      exact ⟨by omega, hwraps⟩

theorem refusal_eq_none_iff_otherwise {policy : Remediation} {job : Job} :
    refusal digest quote policy job = none ↔
      OtherwisePermitted digest policy job ∧ ((1 ≤ job.timeoutSec ∧ job.timeoutSec ≤ 3600) ∨ WrapsUnder job.timeoutSec) := by
  rw [refusal_eq_none_iff, timeout_iff, OtherwisePermitted]
  have hmode : ("any" : String) ≠ "allowlist" := by decide
  constructor
  · rintro ⟨hid, hsha, hmodes, hlisted, htimeout, hargs⟩
    refine ⟨⟨hid, hsha, ?_, hargs⟩, htimeout⟩
    apply hmodes.imp_right
    intro hm
    exact ⟨hm, hlisted hm⟩
  · rintro ⟨⟨hid, hsha, hmodes, hargs⟩, htimeout⟩
    refine ⟨hid, hsha, hmodes.imp_right And.left, ?_, htimeout, hargs⟩
    intro hm
    apply hmodes.elim
    · intro hany
      exact absurd (hany.symm.trans hm) hmode
    · exact And.right

/-- A job is refused exactly when it may not run, but for the timeouts that wrap. -/
theorem refusal_exact_iff (digest : List UInt8 → Digest) (quote : String → String) (policy : Remediation) (job : Job) :
    (refusal digest quote policy job = none ↔ Permitted digest policy job) ↔
      ¬ (OtherwisePermitted digest policy job ∧ WrapsUnder job.timeoutSec) := by
  rw [refusal_eq_none_iff_otherwise, Permitted]
  have happart : WrapsUnder job.timeoutSec → ¬ (1 ≤ job.timeoutSec ∧ job.timeoutSec ≤ 3600) := by
    rintro ⟨hhour, -⟩ ⟨-, hle⟩
    omega
  constructor
  · rintro h ⟨hother, hwraps⟩
    exact happart hwraps (h.mp ⟨hother, .inr hwraps⟩).2
  · intro h
    constructor
    · rintro ⟨hother, htimeout⟩
      exact ⟨hother, htimeout.resolve_right fun hwraps => h ⟨hother, hwraps⟩⟩
    · rintro ⟨hother, htimeout⟩
      exact ⟨hother, .inl htimeout⟩

def anyPolicy : Remediation := { mode := "any", allowedSha256 := [], workDir := defaultRemediationDir }

/-- A job of 292 years. -/
def wrappingJob : Job where
  id := "e1"
  runtime := "bash"
  script := "true"
  sha256 := String.ofList (hexEncode (List.replicate 32 0))
  args := []
  timeoutSec := 9223372037
  incidentId := none

theorem wrapping_not_refused :
    ¬ (refusal (fun _ => ⟨List.replicate 32 0, rfl⟩) id anyPolicy wrappingJob = none ↔
      Permitted (fun _ => ⟨List.replicate 32 0, rfl⟩) anyPolicy wrappingJob) := by
  intro h
  have hnone : refusal (fun _ => ⟨List.replicate 32 0, rfl⟩) id anyPolicy wrappingJob = none := by
    decide
  have hhour := (h.mp hnone).2.2
  revert hhour
  decide

/-- Whatever the platform sends, a job that is not refused is one the host's own configuration lets through. -/
theorem allowed_of_refusal {policy : Remediation} {job : Job} (h : refusal digest quote policy job = none) :
    policy.mode ≠ "disabled" ∧ (policy.mode = "allowlist" → sha256Hex digest job.script ∈ policy.allowedSha256) := by
  obtain ⟨-, -, hmode, hlisted, -⟩ := refusal_eq_none_iff.mp h
  refine ⟨?_, hlisted⟩
  intro hdisabled
  rw [hdisabled] at hmode
  revert hmode
  decide

end Refusal

/-! ## `Next` -/

/-- What `Unmarshal` puts in a field of a struct: null and a field that is not there leave it as it is. -/
def fillString : Option (Json (List Char) Int) → Option String
  | none | some .null => some ""
  | some (.str text) => some (String.ofList text)
  | _ => none

def fillInt : Option (Json (List Char) Int) → Option Int
  | none | some .null => some 0
  | some (.num n) => if -2 ^ 63 ≤ n ∧ n < 2 ^ 63 then some n else none
  | _ => none

def fillPointer : Option (Json (List Char) Int) → Option (Option String)
  | none | some .null => some none
  | some (.str text) => some (some (String.ofList text))
  | _ => none

def fillEntry (entry : List Char × Json (List Char) Int) : Option (String × String) :=
  (fillString (some entry.2)).map fun value => (String.ofList entry.1, value)

def fillMap : Option (Json (List Char) Int) → Option (List (String × String))
  | none | some .null => some []
  | some (.obj entries) => entries.mapM fillEntry
  | _ => none

/-- The fields of a job, by name. -/
def fillJob (get : String → Option (Json (List Char) Int)) : Option Job := do
  let id ← fillString (get "id")
  let runtime ← fillString (get "runtime")
  let script ← fillString (get "script")
  let sha256 ← fillString (get "sha256")
  let args ← fillMap (get "args")
  let timeoutSec ← fillInt (get "timeoutSec")
  let incidentId ← fillPointer (get "incidentId")
  return { id, runtime, script, sha256, args, timeoutSec, incidentId }

def unmarshalJob : Json (List Char) Int → Option Job
  | .obj fields => fillJob fun name => Json.get? name (.obj fields)
  | _ => none

def fillExecution : Option (Json (List Char) Int) → Option (Option Job)
  | none | some .null => some none
  | some job => (unmarshalJob job).map some

/-- `{ execution: null | … }`. -/
def unmarshalNext : Json (List Char) Int → Option (Option Job)
  | .null => some none
  | .obj fields => fillExecution (Json.get? "execution" (.obj fields))
  | _ => none

def maxJobResponse : Nat := 2 ^ 20

structure Response where
  status : Nat
  body : List UInt8
  signature : List Char

inductive NextError where
  | http (status : Nat)
  | tooLarge
  | unverified (error : VerifyError)
  | malformed
  deriving DecidableEq, Repr

/-- `Client.Next`, once there is a response. The body is read up to one byte more than is taken. -/
def next (hmac : (key message : List UInt8) → Digest) (secret : String) (now maxSkew : Int) (response : Response) :
    Except NextError (Option Job) :=
  let body := response.body.take (maxJobResponse + 1)
  if response.status ≠ 200 then .error (.http response.status)
  else if maxJobResponse < body.length then .error .tooLarge
  else
    match verifyResponse hmac secret response.signature body now maxSkew with
    | some e => .error (.unverified e)
    | none =>
      match (parse (decode body)).bind unmarshalNext with
      | none => .error .malformed
      | some job => .ok job

/-- A response that fits and is verified gives the job it holds. -/
theorem next_of_fits {hmac : (key message : List UInt8) → Digest} {secret : String} {now maxSkew : Int} {response : Response}
    {job : Option Job} (hstatus : response.status = 200) (hfits : response.body.length ≤ maxJobResponse)
    (hverified : verifyResponse hmac secret response.signature response.body now maxSkew = none)
    (hjob : (parse (decode response.body)).bind unmarshalNext = some job) :
    next hmac secret now maxSkew response = .ok job := by
  have hbody : response.body.take (maxJobResponse + 1) = response.body :=
    List.take_of_length_le (Nat.le_succ_of_le hfits)
  unfold next
  simp only [hbody]
  rw [if_neg (not_not.mpr hstatus), if_neg (Nat.not_lt.mpr hfits), hverified]
  simp only [hjob]

end IkelyaneMonitor.Agent
