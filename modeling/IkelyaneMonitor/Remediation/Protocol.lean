import IkelyaneMonitor.Interleave.Arrivals
import IkelyaneMonitor.Remediation.Delivery
import IkelyaneMonitor.Remediation.Results

/-!
# The platform and its agents (`agent/cmd/ikelyane-agent/main.go`, `app/api/v1/remediation/next/route.ts`)

The calls of the platform, any number of agent processes, and the network between them.

* `Phase`, `World` : where `runRemediationLoop` stands in each process; the platform, the requests sent so far, and two
  records for the theorems, of the scripts that were started and of the runs that came to an end;
* `Event`, `World.step` : one thing that happens. A request reaches the platform at any time after it was sent, once, many
  times or never; an answer reaches the process that waits for it, or nobody. A process may stop at any point;
* `readResult` : what the handler of a report makes of it before it calls `recordExecutionResult` (`postResult_ok_iff`);
* `job_of_hear` : the job that a process reads is the one that was handed out.

Nobody else has the key of a host, so that requests of agents are sent by agents, and nobody alters an answer on its way.
What goes wrong with a request (no connection, an error of the platform, an answer that cannot be verified) is the process
giving up on it.
-/

namespace IkelyaneMonitor.Remediation.Protocol
open Wire Interleave
open Agent.Run (Process Result Started run reportBody)
open Telemetry (HttpError Digest)

/-! ## What the handlers read -/

section Handlers
variable (idOf : String → Option Nat)

/-- The input of `recordExecutionResult`, or the error that is answered instead. -/
def readResult (rawBody : String) : Except HttpError ExecutionResultInput :=
  if maxBodyBytes < (utf8 rawBody.toList).length then .error resultTooLarge
  else
    match parse rawBody.toList with
    | none => .error invalidJson
    | some j =>
      if !resultSchema.accepts (some j) then .error invalidResult
      else
        match resultInput idOf j with
        | none => .error notRunning
        | some input =>
          if !storable (truncateOutput input.stdout) || !storable (truncateOutput input.stderr) then
            .error Telemetry.internalError
          else .ok input

theorem postResult_ok_iff {hmac : (key message : List UInt8) → Digest}
    {decryptSecret : (payload aad : String) → Option String} {sha256 : String → String}
    {hosts : List Telemetry.AgentHost} {maxSkewSeconds : Nat} {keyId : Option String}
    {signature : Option (List Char)} {rawBody : String} {now : Int} {s s' : Store} :
    postResult hmac decryptSecret idOf sha256 hosts maxSkewSeconds keyId signature rawBody now s = .ok s' ↔
      ∃ agent input, Telemetry.authenticateAgent hmac decryptSecret hosts ⟨keyId, signature, rawBody, now, maxSkewSeconds⟩ =
          .ok agent ∧ readResult idOf rawBody = .ok input ∧
        (recordExecutionResult agent.orgId agent.hostId input now).exec (sem sha256) 0 s = some (s', .recorded true) := by
  unfold postResult readResult
  by_cases hsize : maxBodyBytes < (utf8 rawBody.toList).length
  · simp [hsize]
  simp only [if_neg hsize]
  cases Telemetry.authenticateAgent hmac decryptSecret hosts ⟨keyId, signature, rawBody, now, maxSkewSeconds⟩ with
  | error e => simp
  | ok agent =>
      cases parse rawBody.toList with
      | none => simp
      | some j =>
          simp only [recordResult]
          by_cases haccepts : (!resultSchema.accepts (some j)) = true
          · simp only [if_pos haccepts, reduceCtorEq, false_and, and_false, exists_false]
          simp only [if_neg haccepts]
          cases resultInput idOf j with
          | none => simp
          | some input =>
              by_cases hstorable : (!storable (truncateOutput input.stdout) || !storable (truncateOutput input.stderr)) = true
              · simp only [if_pos hstorable, reduceCtorEq, false_and, and_false, exists_false]
              simp only [if_neg hstorable, Except.ok.injEq, exists_and_left, exists_eq_left']
              split <;> simp_all

/-- The execution a report is about is the one its text names. -/
theorem executionId_of_readResult {r : Result} {input : ExecutionResultInput}
    (h : readResult idOf (reportBody r) = .ok input) : idOf r.executionId = some input.executionId := by
  unfold readResult at h
  rw [Agent.Run.parse_reportBody] at h
  split_ifs at h
  simp only at h
  split_ifs at h
  split at h
  · cases h
  rename_i hinput
  split_ifs at h
  cases h
  unfold resultInput at hinput
  have hget : asText (Json.get? "executionId"
      (Json.record (r.fields.map fun f => (f.1, f.2.map (Json.map decode))))) = some r.executionId.toList := by
    rw [Json.get?_record (by simp [Agent.Run.Result.fields])]
    simp only [Agent.Run.Result.fields, List.map_cons, List.lookup_cons, beq_self_eq_true, Option.map_some, Json.map,
      decode_utf8]
    rfl
  rw [hget, Option.bind_some, String.ofList_toList] at hinput
  cases hid : idOf r.executionId with
  | none =>
      rw [hid] at hinput
      cases hinput
  | some id =>
      rw [hid, Option.bind_eq_bind, Option.bind_some, Option.bind_eq_bind] at hinput
      obtain ⟨status, -, hinput⟩ := Option.bind_eq_some_iff.mp hinput
      cases hinput
      rfl

end Handlers

/-! ## The agents -/

/-- What a process was started with. -/
structure AgentProcess where
  orgId : Nat
  hostId : Nat
  secret : String
  policy : Agent.Remediation

/-- A request of an agent: `Next`, or `Report` with its body. -/
inductive Request where
  | next (agent : Nat)
  | report (agent : Nat) (body : String)
  deriving DecidableEq

/-- Where `runRemediationLoop` stands. Requests are known by their number. -/
inductive Phase where
  | idle
  | asking (request : Nat)
  | holding (request : Nat) (job : Agent.Job)
  | executing (request : Nat) (job : Agent.Job) (p : Process)
  | reporting (result : Result) (attempt : Nat) (request : Nat)

/-- A job, the process that has it and the request that brought it. -/
structure Held where
  agent : Nat
  request : Nat
  job : Agent.Job

structure World where
  /-- The platform: its calls, those of agents with the request they answer. -/
  server : Open (Option Nat × Op) Stmt Store Outcome
  sent : List Request
  phases : Nat → Phase
  started : List Held
  ran : List (Held × Process)

inductive Event where
  /-- A person, the evaluator or the worker calls the platform. -/
  | arrive (op : Op)
  | serve (call : Nat)
  | ask (agent : Nat)
  | deliver (request : Nat)
  | hear (agent call : Nat) (now : Int) (signature : List Char)
  | execute (agent : Nat) (p : Process)
  | finish (agent : Nat)
  | retry (agent : Nat)
  | answered (agent call : Nat)
  /-- No answer came and none is awaited any more, or the process was stopped and started again. -/
  | stop (agent : Nat)

/-- Only agents send these. -/
def byAgent : Op → Bool
  | .claimNextExecution .. | .recordExecutionResult .. => true
  | _ => false

/-- Five minutes, in nanoseconds. -/
def maxSkew : Int := 300 * 10 ^ 9

instance (digest : List UInt8 → Digest) (quote : String → String) (policy : Agent.Remediation) (job : Agent.Job)
    (p : Process) :
    Decidable (Started digest quote policy job p) :=
  decidable_of_iff (Agent.refusal digest quote policy job = none ∧
    (Agent.Run.interpreter p job.runtime).toOption.isSome = true ∧
      p.mkdirAll = none ∧ p.writeFile = none ∧ p.start = none)
    ⟨fun ⟨h₁, h₂, h₃, h₄, h₅⟩ => ⟨h₁, h₂, h₃, h₄, h₅⟩, fun ⟨h₁, h₂, h₃, h₄, h₅⟩ => ⟨h₁, h₂, h₃, h₄, h₅⟩⟩

/-- What the platform and the agents are made of: their digests, the texts of identifiers, and the processes. -/
structure Setting where
  sha256 : String → String
  hashtext : String → Int
  hmac : (key message : List UInt8) → Digest
  digest : List UInt8 → Digest
  quote : String → String
  idText : Nat → String
  idOf : String → Option Nat
  agents : Nat → AgentProcess

namespace Setting
variable (S : Setting)

/-- The call a request leads to, unless it is refused before. -/
def op? : Request → Option Op
  | .next a => some (.claimNextExecution (S.agents a).orgId (S.agents a).hostId)
  | .report a body =>
    (readResult S.idOf body).toOption.map (.recordExecutionResult (S.agents a).orgId (S.agents a).hostId)

def call (x : Option Nat × Op) : Call := x.2.call S.sha256 S.hashtext

/-- `Next`, once the platform has answered it. -/
def hear (a : Nat) (job : Option DeliveredExecution) (now : Int) (signature : List Char) :
    Except Agent.NextError (Option Agent.Job) :=
  Agent.next S.hmac (S.agents a).secret now maxSkew ⟨200, utf8 (nextBody S.idText job).toList, signature⟩

def result (a : Nat) (job : Agent.Job) (p : Process) : Result := run S.digest S.quote (S.agents a).policy job p

end Setting

namespace World

def setPhase (w : World) (a : Nat) (phase : Phase) : World := { w with phases := Function.update w.phases a phase }

def send (w : World) (request : Request) : World := { w with sent := w.sent ++ [request] }

def receive (S : Setting) (w : World) (x : Option Nat × Op) : World := { w with server := w.server.receive S.call x }

def began (w : World) (x : Held) : World := { w with started := w.started ++ [x] }

def finished (w : World) (x : Held) (p : Process) : World := { w with ran := w.ran ++ [(x, p)] }

def step (S : Setting) (w : World) : Event → Option World
  | .arrive op => if byAgent op then none else some (w.receive S (none, op))
  | .serve i => (w.server.serve (sem S.sha256) i).map fun server => { w with server := server }
  | .ask a =>
    match w.phases a with
    | .idle =>
      if (S.agents a).policy.mode = "disabled" then none
      else some ((w.send (.next a)).setPhase a (.asking w.sent.length))
    | _ => none
  | .deliver q => (w.sent[q]?.bind S.op?).map fun op => w.receive S (some q, op)
  | .hear a i now signature =>
    match w.phases a, w.server.received[i]?, w.server.calls i with
    | .asking q, some (some q', _), .ret (.claimed job) =>
      if q' = q then
        match S.hear a job now signature with
        | .ok (some job) => some (w.setPhase a (.holding q job))
        | _ => some (w.setPhase a .idle)
      else none
    | _, _, _ => none
  | .execute a p =>
    match w.phases a with
    | .holding q job =>
      let w' := if Started S.digest S.quote (S.agents a).policy job p then w.began ⟨a, q, job⟩ else w
      some (w'.setPhase a (.executing q job p))
    | _ => none
  | .finish a =>
    match w.phases a with
    | .executing q job p =>
      let result := S.result a job p
      some (((w.finished ⟨a, q, job⟩ p).send (.report a (reportBody result))).setPhase a (.reporting result 1 w.sent.length))
    | _ => none
  | .retry a =>
    match w.phases a with
    | .reporting result attempt _ =>
      if attempt < 3 then
        some ((w.send (.report a (reportBody result))).setPhase a (.reporting result (attempt + 1) w.sent.length))
      else none
    | _ => none
  | .answered a i =>
    match w.phases a, w.server.received[i]?, w.server.calls i with
    | .reporting _ _ q, some (some q', _), .ret (.recorded _) => if q' = q then some (w.setPhase a .idle) else none
    | _, _, _ => none
  | .stop a => some (w.setPhase a .idle)

/-- No request yet, and no execution. -/
def start (clock : Int) (actions : Table RemediationAction) (hosts : Table MonitoredHost) : World where
  server := ⟨⟨clock, actions, hosts, .empty, []⟩, [], fun _ => .ret .done⟩
  sent := []
  phases := fun _ => .idle
  started := []
  ran := []

/-- What happens one event after the other. -/
def run (S : Setting) : World → List Event → Option World
  | w, [] => some w
  | w, e :: es => (w.step S e).bind fun w' => w'.run S es

end World

/-! ## What Next reads -/

section Next
variable {idText : Nat → String}

/-- Only a timeout that does not fit 64 bits is not read as it was written. -/
theorem job_of_unmarshalJob {d : DeliveredExecution} {job : Agent.Job}
    (h : Agent.unmarshalJob (Json.record (d.fields idText)) = some job) : job = d.job idText := by
  by_cases htimeout : d.timeoutSec < 2 ^ 63
  · rw [unmarshalJob_fields idText d htimeout] at h
    exact (Option.some.inj h).symm
  · have hget : ∀ name, Json.get? name (Json.record (d.fields idText)) = ((d.fields idText).lookup name).join :=
      Json.get?_record (by simp [DeliveredExecution.fields])
    have hint : Agent.fillInt (some (.num (d.timeoutSec : Int))) = none := by
      rw [Agent.fillInt, if_neg]
      omega
    change Agent.fillJob (fun name => Json.get? name (Json.record (d.fields idText))) = some job at h
    simp only [hget] at h
    simp only [Agent.fillJob, DeliveredExecution.fields, List.lookup_cons, String.reduceBEq, Option.join_some, hint] at h
    simp only [Option.bind_eq_bind, Option.bind_none, Option.bind_fun_none, reduceCtorEq] at h

theorem job_of_hear {S : Setting} {a : Nat} {job? : Option DeliveredExecution} {now : Int} {signature : List Char}
    {job : Agent.Job} (h : S.hear a job? now signature = .ok (some job)) : ∃ d, job? = some d ∧ job = d.job S.idText := by
  unfold Setting.hear Agent.next at h
  simp only [ne_eq, not_true_eq_false, if_false] at h
  split_ifs at h with hsize
  split at h
  · cases h
  split at h
  · cases h
  rename_i hread
  cases h
  have hbody : (utf8 (nextBody S.idText job?).toList).take (Agent.maxJobResponse + 1) =
    utf8 (nextBody S.idText job?).toList := by
    refine List.take_of_length_le ?_
    rw [List.length_take] at hsize
    omega
  have hplain : Quoting.plain.text = id := rfl
  rw [hbody, decode_utf8] at hread
  unfold nextBody at hread
  rw [String.toList_ofList, parse_render, hplain, Json.map_id, Option.bind_some] at hread
  change Agent.fillExecution (Json.get? "execution" (Json.record [("execution", some _)])) = _ at hread
  rw [Json.get?_record (by simp)] at hread
  cases job? with
  | none => cases hread
  | some d =>
      change (Agent.unmarshalJob (Json.record (d.fields S.idText))).map some = _ at hread
      obtain ⟨job', hjob, heq⟩ := Option.map_eq_some_iff.mp hread
      cases heq
      exact ⟨d, rfl, job_of_unmarshalJob hjob⟩

end Next

end IkelyaneMonitor.Remediation.Protocol
