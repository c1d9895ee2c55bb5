import IkelyaneMonitor.Agent.Run
import IkelyaneMonitor.Remediation.Executions
import IkelyaneMonitor.Telemetry.Auth
import IkelyaneMonitor.Wire.Schema

/-!
# `POST /api/v1/remediation/result` (`app/api/v1/remediation/result/route.ts`)

* `resultSchema`, `resultInput` : the schema of a result and what becomes of it;
* `postResult` : the handler, in the order of its checks, down to the row of the execution;
* `outcome_stored_iff` : which outcomes of a script are stored: those whose text as JSON fits, without `U+0000` in what is
  kept of it, and with numbers in range.

PostgreSQL takes no `U+0000` in a text: the statement fails, which is answered as an unexpected error. An identifier is
written as `idText` writes it, and `idOf` finds the row of a text, if there is one.
-/

namespace IkelyaneMonitor.Remediation
open Wire Interleave
open Agent.Run (Process Ending Started run reportBody kept)
open Telemetry (HttpError AgentHost authenticateAgent Digest)

/-- `MAX_BODY_BYTES`. -/
def maxBodyBytes : Nat := 256 * 1024

def readStatus (text : List Char) : Option ResultStatus :=
  if text = "succeeded".toList then some .succeeded
  else if text = "failed".toList then some .failed
  else if text = "timed_out".toList then some .timedOut
  else if text = "skipped".toList then some .skipped
  else none

/-- `STATUS_REASONS`. -/
def StatusReason.text : StatusReason → String
  | .actionDisabled => "action_disabled"
  | .noTargetHost => "no_target_host"
  | .hostDisabled => "host_disabled"
  | .hostNotAccepting => "host_not_accepting"
  | .notInAllowlist => "not_in_allowlist"
  | .osNotAllowed => "os_not_allowed"
  | .alreadyQueued => "already_queued"
  | .cooldown => "cooldown"
  | .rateLimited => "rate_limited"
  | .cancelled => "cancelled"
  | .expired => "expired"
  | .agentLost => "agent_lost"
  | .refusedByAgentPolicy => "refused_by_agent_policy"
  | .unsupportedRuntime => "unsupported_runtime"
  | .interpreterNotFound => "interpreter_not_found"
  | .startFailed => "start_failed"

def statusReasons : List StatusReason :=
  [.actionDisabled, .noTargetHost, .hostDisabled, .hostNotAccepting, .notInAllowlist, .osNotAllowed, .alreadyQueued,
    .cooldown, .rateLimited, .cancelled, .expired, .agentLost, .refusedByAgentPolicy, .unsupportedRuntime,
    .interpreterNotFound, .startFailed]

def readReason (text : List Char) : Option StatusReason := statusReasons.find? fun reason => reason.text.toList == text

def between (low high n : Int) : Bool := low ≤ n && n ≤ high

def resultSchema : Schema Int :=
  .object
    [("executionId", .string fun text => 1 ≤ units text && units text ≤ 64),
      ("status", .string fun text => (readStatus text).isSome),
      ("reason", .nullish (.string fun text => (readReason text).isSome)),
      ("exitCode", .nullish (.number (between (-2147483648) 2147483647))),
      ("durationMs", .nullish (.number (between 0 (24 * 3600 * 1000)))),
      ("stdout", .optional (.string fun text => units text ≤ maxBodyBytes)),
      ("stderr", .optional (.string fun text => units text ≤ maxBodyBytes))]

def asText : Option (Json (List Char) Int) → Option (List Char)
  | some (.str text) => some text
  | _ => none

def asNumber : Option (Json (List Char) Int) → Option Int
  | some (.num n) => some n
  | _ => none

/-- `parsed.data`; `none` when no row has the identifier. -/
def resultInput (idOf : String → Option Nat) (j : Json (List Char) Int) : Option ExecutionResultInput := do
  let executionId ← (asText (j.get? "executionId")).bind fun text => idOf (String.ofList text)
  let status ← (asText (j.get? "status")).bind readStatus
  return {
    executionId := executionId
    status := status
    reason := (asText (j.get? "reason")).bind readReason
    exitCode := asNumber (j.get? "exitCode")
    durationMs := asNumber (j.get? "durationMs")
    stdout := (asText (j.get? "stdout")).map String.ofList
    stderr := (asText (j.get? "stderr")).map String.ofList }

/-- A text that PostgreSQL takes. -/
def storable (text : Option String) : Bool := text.all fun text => !text.toList.contains (Char.ofNat 0)

def resultTooLarge : HttpError := ⟨413, .payloadTooLarge, "Result body too large."⟩
def invalidJson : HttpError := ⟨400, .invalidJson, "Body must be JSON."⟩
def invalidResult : HttpError := ⟨422, .invalidPayload, "Invalid result."⟩
def notRunning : HttpError := ⟨409, .notRunning, "No running execution with this id for this host."⟩

section Handler
variable (hmac : (key message : List UInt8) → Digest) (decryptSecret : (payload aad : String) → Option String)
  (idOf : String → Option Nat) (sha256 : String → String)

/-- What the handler does with a value, once the request is authenticated. -/
def recordResult (orgId hostId : Nat) (j : Json (List Char) Int) (now : Int) (s : Store) : Except HttpError Store :=
  if !resultSchema.accepts (some j) then .error invalidResult
  else
    match resultInput idOf j with
    | none => .error notRunning
    | some input =>
      if !storable (truncateOutput input.stdout) || !storable (truncateOutput input.stderr)
        then .error Telemetry.internalError
      else
        match (recordExecutionResult orgId hostId input now).exec (sem sha256) 0 s with
        | some (s', .recorded true) => .ok s'
        | _ => .error notRunning

def postResult (hosts : List AgentHost) (maxSkewSeconds : Nat) (keyId : Option String) (signature : Option (List Char))
    (rawBody : String) (now : Int) (s : Store) : Except HttpError Store :=
  if maxBodyBytes < (utf8 rawBody.toList).length then .error resultTooLarge
  else
    match authenticateAgent hmac decryptSecret hosts ⟨keyId, signature, rawBody, now, maxSkewSeconds⟩ with
    | .error e => .error e
    | .ok agent =>
      match parse rawBody.toList with
      | none => .error invalidJson
      | some j => recordResult idOf sha256 agent.orgId agent.hostId j now s

end Handler

/-! ## What is stored -/

section Store
variable {s : Store} {e : RemediationExecution}

/-- The rows that the statement of a result updates. -/
def awaits (orgId hostId : Nat) (input : ExecutionResultInput) (e : RemediationExecution) : Bool :=
  e.id == input.executionId && e.orgId == orgId && e.hostId == some hostId && e.status == .running

theorem count_awaits {orgId hostId : Nat} {input : ExecutionResultInput} (he : e ∈ s.executions)
    (h : awaits orgId hostId input e = true) : s.executions.count (awaits orgId hostId input) = 1 := by
  have hle : s.executions.count (awaits orgId hostId input) ≤
      s.executions.count (fun e => Keyed.key e == input.executionId) := by
    refine List.countP_mono_left fun e' _ h' => ?_
    simp only [awaits, Bool.and_eq_true] at h'
    exact h'.1.1.1
  have hone := s.executions.count_key_le_one input.executionId
  have hpos : 0 < s.executions.count (awaits orgId hostId input) := List.countP_pos_iff.mpr ⟨e, he, h⟩
  omega

/-- The statement finds the running execution of the host. -/
theorem exec_recordExecutionResult (sha256 : String → String) {orgId hostId : Nat} {input : ExecutionResultInput} (now : Int)
    (he : e ∈ s.executions) (h : awaits orgId hostId input e = true) :
    ∃ s', (recordExecutionResult orgId hostId input now).exec (sem sha256) 0 s = some (s', .recorded true) ∧
      e.storeResult input now ∈ s'.executions := by
  have hcount := count_awaits he h
  refine ⟨{ s with
    executions := s.executions.updateMany (awaits orgId hostId input) (fun e => e.storeResult input now) (fun _ => rfl) },
    ?_, ?_⟩
  · show some (_, Outcome.recorded (s.executions.count (awaits orgId hostId input) == 1)) = _
    rw [hcount]
    rfl
  · exact List.mem_map.mpr ⟨e, he, if_pos h⟩

end Store

/-! ## The outcome of a script -/

def Ending.resultStatus : Ending → ResultStatus
  | .deadline => .timedOut
  | .exited code => if code = 0 then .succeeded else .failed
  | .broken _ => .failed

/-- A text in a field that is left out when it is empty. -/
def reportedText (bytes : List UInt8) : Option String := if bytes = [] then none else some (String.ofList (decode bytes))

/-- What is to be stored of a script that was started. -/
def outcomeInput (id : Nat) (p : Process) : ExecutionResultInput where
  executionId := id
  status := Ending.resultStatus p.ending
  reason := none
  exitCode := p.ending.exitCode
  durationMs := some p.durationMs
  stdout := reportedText (kept p.stdout.flatten)
  stderr := reportedText (kept p.stderr.flatten ++ p.ending.note)

/-- The value that the server reads from a report of a script that was started. -/
def outcomeFields (id : String) (p : Process) : List (String × Option (Json (List Char) Int)) :=
  [("executionId", some (.str id.toList)), ("status", some (.str p.ending.status.toList)), ("reason", none),
    ("exitCode", p.ending.exitCode.map .num), ("durationMs", some (.num p.durationMs)),
    ("stdout", (reportedText (kept p.stdout.flatten)).map fun text => .str text.toList),
    ("stderr", (reportedText (kept p.stderr.flatten ++ p.ending.note)).map fun text => .str text.toList)]

section Outcome
variable {digest : List UInt8 → Digest} {quote : String → String} {policy : Agent.Remediation} {job : Agent.Job} {p : Process}

theorem map_omitEmpty (bytes : List UInt8) :
    (Agent.Run.omitEmpty bytes).map (Json.map decode) = (reportedText bytes).map fun text => .str text.toList := by
  unfold Agent.Run.omitEmpty reportedText
  split
  · rfl
  · rw [Option.map_some, Option.map_some, Json.map, String.toList_ofList]

theorem parse_outcome (h : Started digest quote policy job p) :
    parse (reportBody (run digest quote policy job p)).toList = some (Json.record (outcomeFields job.id p)) := by
  have hexit : (p.ending.exitCode.map (Json.num : Int → Json (List UInt8) Int)).map (Json.map decode) =
      p.ending.exitCode.map .num := by
    cases p.ending.exitCode with
    | none => rfl
    | some code => rw [Option.map_some, Option.map_some, Option.map_some, Json.map]
  have hreason : (Agent.Run.omitEmpty (utf8 "".toList)).map (Json.map decode) = none := rfl
  rw [Agent.Run.parse_reportBody, Agent.Run.run_of_started h]
  simp only [Agent.Run.Result.fields, List.map_cons, List.map_nil, hexit, hreason, map_omitEmpty, Option.map_some, Json.map,
    decode_utf8]
  rfl

theorem readStatus_status (ending : Ending) : readStatus ending.status.toList = some (Ending.resultStatus ending) := by
  cases ending with
  | deadline => rfl
  | broken error =>
      rw [Agent.Run.Ending.status, Ending.resultStatus]
      rfl
  | exited code =>
      rw [Agent.Run.Ending.status, Ending.resultStatus]
      split <;> rfl

/-- The numbers of a report are in the ranges of the schema. -/
def numbersInRange (p : Process) : Prop :=
  p.ending.exitCode.all (between (-2147483648) 2147483647) = true ∧ between 0 (24 * 3600 * 1000) p.durationMs = true

theorem accepts_outcome {id : String} (hid : Agent.safeId id = true) (p : Process) :
    resultSchema.accepts (some (Json.record (outcomeFields id p))) = true ↔
      numbersInRange p ∧ (reportedText (kept p.stdout.flatten)).all (fun text => units text.toList ≤ maxBodyBytes) = true ∧
        (reportedText (kept p.stderr.flatten ++ p.ending.note)).all (fun text => units text.toList ≤ maxBodyBytes) =
          true := by
  have hunits : 1 ≤ units id.toList ∧ units id.toList ≤ 64 := by
    rw [units_of_ascii (Agent.ascii_of_safeId hid)]
    exact Agent.length_of_safeId hid
  have hstatus := readStatus_status p.ending
  have hduration : (Schema.nullish (.number (between 0 (24 * 3600 * 1000)))).accepts (some (.num p.durationMs)) =
      between 0 (24 * 3600 * 1000) p.durationMs := Schema.accepts_nullish_num (n := some p.durationMs)
  rw [resultSchema, Schema.accepts_record (by simp [outcomeFields])]
  simp only [List.forall_mem_cons, List.not_mem_nil, false_implies, implies_true, and_true, outcomeFields, List.lookup_cons,
    String.reduceBEq, Option.join_some, Schema.accepts_str, Schema.accepts_nullish_num, Schema.accepts_nullish_none,
    Schema.accepts_optional_str, hduration, hstatus, hunits, Option.isSome_some, decide_true, Bool.and_self, true_and,
    numbersInRange, and_assoc]

theorem asText_map (text : Option String) : (asText (text.map fun text => .str text.toList)).map String.ofList = text := by
  cases text <;> simp [asText]

theorem asNumber_map (n : Option Int) : asNumber (n.map .num) = n := by
  cases n <;> rfl

theorem resultInput_outcome {idOf : String → Option Nat} {id : String} {n : Nat} (hid : idOf id = some n) (p : Process) :
    resultInput idOf (Json.record (outcomeFields id p)) = some (outcomeInput n p) := by
  have hstatus := readStatus_status p.ending
  have hget : ∀ name, Json.get? name (Json.record (outcomeFields id p)) = ((outcomeFields id p).lookup name).join :=
    Json.get?_record (by simp [outcomeFields])
  unfold resultInput
  simp only [hget]
  simp only [outcomeFields, List.lookup_cons, String.reduceBEq, Option.join_some, asText_map, asNumber_map]
  simp only [asText, asNumber, Option.bind_some, String.ofList_toList, hid, hstatus]
  rfl

/-- What the outcome of a script must be for its report to be stored: its text as JSON fits the body, nothing that is kept
of it is `U+0000`, and its numbers are in range. -/
structure Fits (id : String) (p : Process) : Prop where
  size : Agent.Run.reportSize id p.ending.status p.ending.exitCode p.durationMs (kept p.stdout.flatten)
    (kept p.stderr.flatten ++ p.ending.note) ≤ maxBodyBytes
  stdout : storable (truncateOutput (reportedText (kept p.stdout.flatten))) = true
  stderr : storable (truncateOutput (reportedText (kept p.stderr.flatten ++ p.ending.note))) = true
  numbers : numbersInRange p

theorem length_outcome (h : Started digest quote policy job p) :
    (utf8 (reportBody (run digest quote policy job p)).toList).length =
      Agent.Run.reportSize job.id p.ending.status p.ending.exitCode p.durationMs (kept p.stdout.flatten)
        (kept p.stderr.flatten ++ p.ending.note) := by
  rw [Agent.Run.run_of_started h]
  exact Agent.Run.length_reportBody rfl

/-- What fits the body fits the schema. -/
theorem all_units_le {bytes : List UInt8} (h : Agent.Run.outputSize bytes ≤ maxBodyBytes) :
    (reportedText bytes).all (fun text => units text.toList ≤ maxBodyBytes) = true := by
  unfold reportedText
  unfold Agent.Run.outputSize at h
  split
  · rfl
  · rename_i hne
    rw [if_neg hne] at h
    have hunits := Agent.Run.units_decode_le_weight bytes
    rw [Option.all_some, String.toList_ofList]
    exact decide_eq_true (by omega)

theorem accepts_of_fits {id : String} (hid : Agent.safeId id = true) (h : Fits id p) :
    resultSchema.accepts (some (Json.record (outcomeFields id p))) = true := by
  have hsize := h.size
  unfold Agent.Run.reportSize at hsize
  exact (accepts_outcome hid p).mpr ⟨h.numbers, all_units_le (by omega), all_units_le (by omega)⟩

section Posted
variable {hmac : (key message : List UInt8) → Digest} {decryptSecret : (payload aad : String) → Option String}
  {idOf : String → Option Nat} {sha256 : String → String}

theorem recordResult_ok {orgId hostId : Nat} {j : Json (List Char) Int} {now : Int} {s s' : Store}
    (h : recordResult idOf sha256 orgId hostId j now s = .ok s') :
    resultSchema.accepts (some j) = true ∧ ∃ input, resultInput idOf j = some input ∧
      storable (truncateOutput input.stdout) = true ∧ storable (truncateOutput input.stderr) = true := by
  unfold recordResult at h
  split at h
  · cases h
  rename_i haccepts
  split at h
  · cases h
  rename_i input hinput
  split at h
  · cases h
  rename_i hstorable
  simp only [Bool.or_eq_true, Bool.not_eq_true', not_or, Bool.not_eq_false] at haccepts hstorable
  exact ⟨haccepts, input, hinput, hstorable⟩

theorem recordResult_of_running (sha256 : String → String) {orgId hostId : Nat} {j : Json (List Char) Int} (now : Int)
    {s : Store} {e : RemediationExecution} {input : ExecutionResultInput} (haccepts : resultSchema.accepts (some j) = true)
    (hinput : resultInput idOf j = some input) (hstdout : storable (truncateOutput input.stdout) = true)
    (hstderr : storable (truncateOutput input.stderr) = true) (he : e ∈ s.executions)
    (hawaits : awaits orgId hostId input e = true) :
    ∃ s', recordResult idOf sha256 orgId hostId j now s = .ok s' ∧ e.storeResult input now ∈ s'.executions := by
  obtain ⟨s', hexec, hmem⟩ := exec_recordExecutionResult sha256 now he hawaits
  refine ⟨s', ?_, hmem⟩
  unfold recordResult
  simp only [haccepts, hinput, hstdout, hstderr, hexec]
  rfl

/-- The outcome of a script that ran is stored while its execution is running exactly when it fits. -/
theorem outcome_stored_iff {idText : Nat → String} (hids : ∀ id, idOf (idText id) = some id)
    (hstarted : Started digest quote policy job p) {e : RemediationExecution} {s : Store} (he : e ∈ s.executions)
    (hrunning : e.status = .running) (hjob : job.id = idText e.id) {hosts : List AgentHost} {maxSkewSeconds : Nat}
    {keyId : Option String} {signature : Option (List Char)} {now : Int} {agent : Telemetry.AuthenticatedAgent}
    (hauth : authenticateAgent hmac decryptSecret hosts
      ⟨keyId, signature, reportBody (run digest quote policy job p), now, maxSkewSeconds⟩ = .ok agent)
    (horg : e.orgId = agent.orgId) (hhost : e.hostId = some agent.hostId) :
    ((utf8 (reportBody (run digest quote policy job p)).toList).length ≤ maxBodyBytes ∧
      (∃ j, parse (reportBody (run digest quote policy job p)).toList = some j ∧ resultSchema.accepts (some j) = true) ∧
      ∃ s', postResult hmac decryptSecret idOf sha256 hosts maxSkewSeconds keyId signature
          (reportBody (run digest quote policy job p)) now s = .ok s' ∧
        e.storeResult (outcomeInput e.id p) now ∈ s'.executions) ↔
      Fits job.id p := by
  have hid : Agent.safeId job.id = true := (Agent.refusal_eq_none_iff.mp hstarted.allowed).1
  have hparse := parse_outcome hstarted
  have hlength := length_outcome hstarted
  have hinput : resultInput idOf (Json.record (outcomeFields job.id p)) = some (outcomeInput e.id p) := by
    refine resultInput_outcome ?_ p
    rw [hjob]
    exact hids e.id
  constructor
  · rintro ⟨hsize, -, s', hpost, -⟩
    unfold postResult at hpost
    rw [if_neg (Nat.not_lt.mpr hsize)] at hpost
    simp only [hauth, hparse] at hpost
    obtain ⟨haccepts, input, hread, hstdout, hstderr⟩ := recordResult_ok hpost
    rw [hinput] at hread
    cases hread
    rw [hlength] at hsize
    exact ⟨hsize, hstdout, hstderr, ((accepts_outcome hid p).mp haccepts).1⟩
  · intro hfits
    have haccepts := accepts_of_fits hid hfits
    have hsize : (utf8 (reportBody (run digest quote policy job p)).toList).length ≤ maxBodyBytes := by
      rw [hlength]
      exact hfits.size
    have hawaits : awaits agent.orgId agent.hostId (outcomeInput e.id p) e = true := by
      unfold awaits outcomeInput
      rw [horg, hhost, hrunning]
      simp
    obtain ⟨s', hrecord, hmem⟩ := recordResult_of_running sha256 now haccepts hinput hfits.stdout hfits.stderr he
      hawaits
    refine ⟨hsize, ⟨_, hparse, haccepts⟩, s', ?_, hmem⟩
    unfold postResult
    rw [if_neg (Nat.not_lt.mpr hsize)]
    simp only [hauth, hparse]
    exact hrecord

end Posted

end Outcome

/-! ## A script that prints a file -/

/-- SHA-256 of `cat /run/state`. -/
def stateDigest : Digest :=
  ⟨[162, 215, 177, 23, 64, 112, 240, 42, 94, 156, 16, 221, 95, 169, 213, 142, 44, 32, 254, 3, 181, 113, 177, 43, 181, 10,
    29, 117, 73, 199, 123, 157], rfl⟩

def stateJob : Agent.Job where
  id := "c0"
  runtime := "bash"
  script := "cat /run/state"
  sha256 := "a2d7b1174070f02a5e9c10dd5fa9d58e2c20fe03b571b12bb50a1d7549c77b9d"
  args := []
  timeoutSec := 60
  incidentId := none

def anyPolicy : Agent.Remediation := ⟨"any", [], "/var/lib/ikelyane-agent/remediation"⟩

def stateProcess (output : List UInt8) : Process where
  windows := false
  lookPath := fun name => some ("/bin/" ++ name)
  mkdirAll := none
  writeFile := none
  start := none
  stdout := [output]
  stderr := []
  ending := .exited 0
  durationMs := 12

def stateExecution (id : Nat) : RemediationExecution where
  id := id
  orgId := 1
  actionId := 1
  incidentId := none
  hostId := some 1
  trigger := .manual
  status := .running
  statusReason := none
  runtime := .bash
  scriptBody := "cat /run/state"
  scriptSha256 := stateJob.sha256
  args := .null
  timeoutSec := 60
  requestedBy := none
  approvedBy := none
  startedAt := some 1757999999000
  finishedAt := none
  durationMs := none
  exitCode := none
  stdout := none
  stderr := none
  createdAt := 1757999990000

def stateStore : Store := ⟨1758000000000, .empty, .empty, Table.empty.insert stateExecution fun _ => rfl, []⟩

def stateHost : AgentHost := ⟨1, 1, "web-1", "ak_1", true, none, "s3cret", none, none⟩

def idNumber (n : Nat) : String := String.ofList ('c' :: n.repr.toList)

def numberOf (id : String) : Option Nat := some (Nat.ofDigitChars 10 id.toList.tail 0)

theorem numberOf_idNumber (n : Nat) : numberOf (idNumber n) = some n := by
  rw [numberOf, idNumber, String.toList_ofList, List.tail_cons, ofDigitChars_repr]

theorem started_state (output : List UInt8) : Started (fun _ => stateDigest) id anyPolicy stateJob (stateProcess output) :=
  ⟨by decide, rfl, rfl, rfl, rfl⟩

/-- A report signed at the time it is received. -/
theorem authenticate_report (body : String) :
    authenticateAgent Telemetry.sampleHmac (fun payload _ => some payload) [stateHost]
        ⟨some "ak_1", some (Telemetry.sign Telemetry.sampleHmac "s3cret" (utf8 body.toList) (1758000000 : Nat)), body,
          1758000000000, 300⟩ = .ok ⟨1, 1, "web-1", "ak_1", none, ["s3cret"]⟩ := by
  have hfind : ([stateHost].find? fun host => host.keyId == stateHost.keyId) = some stateHost := by decide
  have hsecrets : Telemetry.acceptedSecrets (fun payload _ => some payload) stateHost 1758000000000 = some ["s3cret"] := rfl
  have htime : Telemetry.Digits9To12 1758000000 := ⟨by decide, by decide⟩
  have hfresh : |(1758000000000 : Int) - (1758000000 : Nat) * 1000| ≤ (300 : Nat) * 1000 := by decide
  refine (Telemetry.authenticateAgent_signed Telemetry.sampleHmac _ (by decide) hfind hsecrets htime hfresh).trans ?_
  rw [if_pos ⟨"s3cret", List.mem_singleton.mpr rfl, rfl⟩]
  rfl

/-- A file with the byte zero in it is printed, reported and taken by the schema, and not stored. -/
theorem nul_output_not_stored :
    Started (fun _ => stateDigest) id anyPolicy stateJob (stateProcess [0]) ∧
    stateExecution 0 ∈ stateStore.executions ∧ (stateExecution 0).status = .running ∧
    ¬ ∃ s', postResult Telemetry.sampleHmac (fun payload _ => some payload) numberOf id [stateHost] 300 (some "ak_1")
      (some (Telemetry.sign Telemetry.sampleHmac "s3cret"
        (utf8 (reportBody (run (fun _ => stateDigest) id anyPolicy stateJob (stateProcess [0]))).toList) (1758000000 : Nat)))
      (reportBody (run (fun _ => stateDigest) id anyPolicy stateJob (stateProcess [0]))) 1758000000000 stateStore =
        .ok s' := by
  refine ⟨started_state [0], List.mem_singleton.mpr rfl, rfl, ?_⟩
  rintro ⟨s', hpost⟩
  unfold postResult at hpost
  split at hpost
  · cases hpost
  rw [authenticate_report] at hpost
  simp only [parse_outcome (started_state [0])] at hpost
  obtain ⟨-, input, hinput, hstdout, -⟩ := recordResult_ok hpost
  rw [resultInput_outcome (rfl : numberOf stateJob.id = some 0)] at hinput
  cases hinput
  revert hstdout
  decide

/-- A line of text is stored. -/
theorem line_output_stored :
    ∃ s', postResult Telemetry.sampleHmac (fun payload _ => some payload) numberOf id [stateHost] 300 (some "ak_1")
        (some (Telemetry.sign Telemetry.sampleHmac "s3cret"
          (utf8 (reportBody (run (fun _ => stateDigest) id anyPolicy stateJob (stateProcess [111, 107, 10]))).toList)
          (1758000000 : Nat)))
        (reportBody (run (fun _ => stateDigest) id anyPolicy stateJob (stateProcess [111, 107, 10]))) 1758000000000
          stateStore =
          .ok s' ∧
      (stateExecution 0).storeResult (outcomeInput 0 (stateProcess [111, 107, 10])) 1758000000000 ∈ s'.executions :=
  ((outcome_stored_iff numberOf_idNumber (started_state [111, 107, 10]) (e := stateExecution 0) (s := stateStore)
    (List.mem_singleton.mpr rfl) rfl (by decide) (authenticate_report _) rfl rfl).mpr
    ⟨by decide, by decide, by decide, by decide, by decide⟩).2.2

end IkelyaneMonitor.Remediation
