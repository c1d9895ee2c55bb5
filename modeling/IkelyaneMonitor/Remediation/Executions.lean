import IkelyaneMonitor.Interleave.Prog
import IkelyaneMonitor.Auth.Permissions
import IkelyaneMonitor.Remediation.Actions

/-!
# Execution lifecycle (`modules/remediation/executions.ts`)

The tables the lifecycle works on, its SQL statements, and the functions as trees of them:

* `Stmt` : one constructor for each statement sent to PostgreSQL, with its parameters; `sem` : what it does to the tables.
  A transaction whose only write is its last statement (`createExecution`) commits with that statement;
* `createExecution`, `requestRun`, `triggerForIncident`, `approveExecution`, `cancelExecution`, `claimNextExecution`,
  `recordExecutionResult`, `sweepExecutions` : the functions of the module, and the edits of `actions.ts`;
* `Op` : the calls that run concurrently, time passing among them.

SHA-256 and PostgreSQL's `hashtext` are parameters. Audit rows and incident timeline events go to tables nothing here
reads and are left out.
-/

namespace IkelyaneMonitor.Remediation
open Interleave Auth

structure RemediationExecution where
  id : Nat
  orgId : Nat
  actionId : Nat
  incidentId : Option Nat
  hostId : Option Nat
  trigger : ExecutionTrigger
  status : ExecutionStatus
  statusReason : Option StatusReason
  runtime : ScriptRuntime
  scriptBody : String
  scriptSha256 : String
  args : JsonValue
  timeoutSec : Nat
  requestedBy : Option Nat
  approvedBy : Option Nat
  startedAt : Option Int
  finishedAt : Option Int
  durationMs : Option Int
  exitCode : Option Int
  stdout : Option String
  stderr : Option String
  createdAt : Int

instance : Keyed RemediationExecution := ⟨RemediationExecution.id⟩

def resultGraceMs : Int := 2 * 60 * 1000
def pendingTtlMs : Int := 60 * 60 * 1000
def approvalTtlMs : Int := 24 * 60 * 60 * 1000
def maxOutputBytes : Nat := 64 * 1024

structure Store where
  clock : Int
  actions : Table RemediationAction
  hosts : Table MonitoredHost
  executions : Table RemediationExecution
  /-- Advisory locks held by open transactions, each with its holder. -/
  locks : List (Int × Nat)

structure CreateInput where
  orgId : Nat
  actionId : Nat
  hostId : Option Nat
  trigger : ExecutionTrigger
  incidentId : Option Nat
  requestedBy : Option Nat
  needsApproval : Bool

structure CreatedExecution where
  id : Nat
  status : ExecutionStatus
  statusReason : Option StatusReason
  deriving DecidableEq, Repr

/-- What `createExecution` has gathered when it writes the row: the action as it read it, the host it found and the
verdict of the guard-rails at `now`. -/
structure NewExecution where
  input : CreateInput
  action : RemediationAction
  hostId : Option Nat
  violation : Option StatusReason
  now : Int

def NewExecution.status (d : NewExecution) : ExecutionStatus :=
  if d.violation.isSome then .skipped else if d.input.needsApproval then .awaitingApproval else .pending

structure DeliveredExecution where
  id : Nat
  runtime : ScriptRuntime
  script : String
  sha256 : String
  args : List (String × String)
  timeoutSec : Nat
  incidentId : Option Nat

def RemediationExecution.delivered (e : RemediationExecution) : DeliveredExecution where
  id := e.id
  runtime := e.runtime
  script := e.scriptBody
  sha256 := e.scriptSha256
  args := readArgs (some e.args)
  timeoutSec := e.timeoutSec
  incidentId := e.incidentId

inductive ResultStatus where
  | succeeded | failed | timedOut | skipped
  deriving DecidableEq, Repr

structure ExecutionResultInput where
  executionId : Nat
  status : ResultStatus
  reason : Option StatusReason
  exitCode : Option Int
  durationMs : Option Int
  stdout : Option String
  stderr : Option String

/-- `RESULT_STATUS`. -/
def ResultStatus.execution : ResultStatus → ExecutionStatus
  | .succeeded => .succeeded
  | .failed => .failed
  | .timedOut => .timedOut
  | .skipped => .skipped

/-- Cut to `MAX_OUTPUT_BYTES`. A character cut in two decodes to one U+FFFD, which is removed; so is one that was in the
text, when the cut falls right after it. -/
def truncateOutput (text : Option String) : Option String :=
  match text with
  | none => none
  | some text =>
    if text = "" then none
    else if text.utf8ByteSize ≤ maxOutputBytes then some text
    else
      let whole := Text.bytePrefix maxOutputBytes text.toList
      if (String.ofList whole).utf8ByteSize = maxOutputBytes ∧ whole.getLast? = some (Char.ofNat 0xFFFD) then
        some (String.ofList whole.dropLast)
      else some (String.ofList whole)

inductive Stmt where
  | newDate
  | tick (ms : Nat)
  | findAction (id orgId : Nat)
  | findHost (id orgId : Nat)
  | advisoryLock (key : Int)
  | findRecent (actionId hostId : Nat) (since : Int)
  | createExecution (d : NewExecution)
  | findExecution (id orgId : Nat)
  | approve (id : Nat) (violation : Option StatusReason) (approvedBy : Nat) (now : Int)
  | cancel (id orgId : Nat) (now : Int)
  | countExecution (id orgId : Nat)
  | findNextPending (orgId hostId : Nat)
  | claim (id : Nat) (now : Int)
  | storeResult (orgId hostId : Nat) (input : ExecutionResultInput) (now : Int)
  | expirePending (t : Int)
  | expireApproval (t : Int)
  | timeOutLost (t : Int)
  | createAction (orgId : Nat) (input : RemediationActionInput)
  | updateAction (id : Nat) (input : RemediationActionInput)
  | setActionEnabled (id orgId : Nat) (enabled : Bool)
  | deleteAction (id orgId : Nat)
  | updateHost (host : MonitoredHost)

/-! ## The rows the statements write -/

def NewExecution.row (sha256 : String → String) (d : NewExecution) (createdAt : Int) (id : Nat) :
    RemediationExecution where
  id := id
  orgId := d.input.orgId
  actionId := d.action.id
  incidentId := d.input.incidentId
  hostId := d.hostId
  trigger := d.input.trigger
  status := d.status
  statusReason := d.violation
  runtime := d.action.runtime
  scriptBody := d.action.scriptBody
  scriptSha256 := sha256 d.action.scriptBody
  args := argsJson (readArgs d.action.args)
  timeoutSec := d.action.timeoutSec
  requestedBy := d.input.requestedBy
  approvedBy := none
  startedAt := none
  finishedAt := if d.violation.isSome then some d.now else none
  durationMs := none
  exitCode := none
  stdout := none
  stderr := none
  createdAt := createdAt

namespace RemediationExecution

def approve (e : RemediationExecution) (violation : Option StatusReason) (approvedBy : Nat) (now : Int) :
    RemediationExecution :=
  { e with
    status := if violation.isSome then .skipped else .pending
    statusReason := violation
    approvedBy := some approvedBy
    finishedAt := if violation.isSome then some now else e.finishedAt }

/-- Cancelled by a person (`cancelled`) or by the sweeper (`expired`). -/
def cancel (e : RemediationExecution) (reason : StatusReason) (now : Int) : RemediationExecution :=
  { e with status := .cancelled, statusReason := some reason, finishedAt := some now }

def claim (e : RemediationExecution) (now : Int) : RemediationExecution :=
  { e with status := .running, startedAt := some now }

def storeResult (e : RemediationExecution) (input : ExecutionResultInput) (now : Int) : RemediationExecution :=
  { e with
    status := input.status.execution
    statusReason := input.reason
    exitCode := input.exitCode
    durationMs := input.durationMs
    stdout := truncateOutput input.stdout
    stderr := truncateOutput input.stderr
    finishedAt := some now }

def timeOut (e : RemediationExecution) (t : Int) : RemediationExecution :=
  { e with status := .timedOut, statusReason := some .agentLost, finishedAt := some t }

/-- `"startedAt" + make_interval(secs => "timeoutSec" + grace) < t`; a null `startedAt` compares to nothing. -/
def lost (e : RemediationExecution) (t : Int) : Bool :=
  e.startedAt.any fun started => started + (e.timeoutSec * 1000 + resultGraceMs) < t

end RemediationExecution

section Semantics
variable (sha256 : String → String)

/-- What statement `w` of caller `i` does. The reads change nothing; the advisory lock waits for its other holders and is
held until the transaction ends. -/
def sem (i : Nat) : Stmt → Store → Option Store
  | .tick ms, s => some { s with clock := s.clock + ms }
  | .advisoryLock key, s =>
    if s.locks.any fun l => l.1 == key && l.2 != i then none else some { s with locks := (key, i) :: s.locks }
  | .createExecution d, s =>
    some { s with
      -- the foreign key: the action may have been deleted since it was read
      executions := if (s.actions.get? d.action.id).isSome then
          s.executions.insert (d.row sha256 s.clock) fun _ => rfl else s.executions
      locks := s.locks.filter fun l => l.2 != i }
  | .approve id violation approvedBy now, s =>
    some { s with
      executions := s.executions.updateMany (fun e => e.id == id && e.status == .awaitingApproval)
        (fun e => e.approve violation approvedBy now) fun _ => rfl }
  | .cancel id orgId now, s =>
    some { s with
      executions := s.executions.updateMany
        (fun e => e.id == id && e.orgId == orgId && (e.status == .awaitingApproval || e.status == .pending))
        (fun e => e.cancel .cancelled now) fun _ => rfl }
  | .claim id now, s =>
    some { s with
      executions := s.executions.updateMany (fun e => e.id == id && e.status == .pending)
        (fun e => e.claim now) fun _ => rfl }
  | .storeResult orgId hostId input now, s =>
    some { s with
      executions := s.executions.updateMany
        (fun e => e.id == input.executionId && e.orgId == orgId && e.hostId == some hostId && e.status == .running)
        (fun e => e.storeResult input now) fun _ => rfl }
  | .expirePending t, s =>
    some { s with
      executions := s.executions.updateMany
        (fun e => e.status == .pending && decide (e.createdAt < t - pendingTtlMs))
        (fun e => e.cancel .expired t) fun _ => rfl }
  | .expireApproval t, s =>
    some { s with
      executions := s.executions.updateMany
        (fun e => e.status == .awaitingApproval && decide (e.createdAt < t - approvalTtlMs))
        (fun e => e.cancel .expired t) fun _ => rfl }
  | .timeOutLost t, s =>
    some { s with
      executions := s.executions.updateMany (fun e => e.status == .running && e.lost t)
        (fun e => e.timeOut t) fun _ => rfl }
  | .createAction orgId input, s => some { s with actions := s.actions.insert (input.row orgId) fun _ => rfl }
  | .updateAction id input, s =>
    some { s with actions := s.actions.updateMany (fun a => a.id == id) input.edit fun _ => rfl }
  | .setActionEnabled id orgId enabled, s =>
    some { s with
      actions := s.actions.updateMany (fun a => a.id == id && a.orgId == orgId)
        (fun a => { a with enabled := enabled }) fun _ => rfl }
  | .deleteAction id orgId, s =>
    -- `onDelete: Cascade` takes the executions of the action with it
    if s.actions.rows.any fun a => a.id == id && a.orgId == orgId then
      some { s with
        actions := s.actions.deleteMany fun a => a.id == id && a.orgId == orgId
        executions := s.executions.deleteMany fun e => e.actionId == id }
    else some s
  | .updateHost host, s =>
    some { s with
      hosts := s.hosts.updateMany (fun h => h.id == host.id && h.orgId == host.orgId)
        (fun h => { host with id := h.id }) fun _ => rfl }
  | _, s => some s

end Semantics

/-! ## Queries -/

namespace Store

def findAction (s : Store) (id orgId : Nat) : Option RemediationAction :=
  s.actions.find? fun a => a.id == id && a.orgId == orgId

def findHost (s : Store) (id orgId : Nat) : Option MonitoredHost :=
  s.hosts.find? fun h => h.id == id && h.orgId == orgId

def findExecution (s : Store) (id orgId : Nat) : Option RemediationExecution :=
  s.executions.find? fun e => e.id == id && e.orgId == orgId

def recent (s : Store) (actionId hostId : Nat) (since : Int) : List RecentExecution :=
  (s.executions.rows.filter fun e =>
    e.actionId == actionId && e.hostId == some hostId && (decide (since ≤ e.createdAt) || e.status.live)).map
      fun e => ⟨e.status, e.createdAt⟩

end Store

/-- The first of the oldest executions of a list. -/
def oldest : List RemediationExecution → Option RemediationExecution
  | [] => none
  | e :: es =>
    match oldest es with
    | none => some e
    | some e' => if e'.createdAt < e.createdAt then some e' else some e

def Store.nextPending (s : Store) (orgId hostId : Nat) : Option RemediationExecution :=
  oldest (s.executions.rows.filter fun e => e.orgId == orgId && e.hostId == some hostId && e.status == .pending)

/-! ## The functions -/

inductive ExecutionWriteError where
  | forbidden | notFound | invalidStatus
  deriving DecidableEq, Repr

inductive Outcome where
  | created (execution : Option CreatedExecution)
  | requested (result : Except ExecutionWriteError CreatedExecution)
  | approved (result : Except ExecutionWriteError CreatedExecution)
  | cancelled (result : Except ExecutionWriteError Unit)
  | claimed (job : Option DeliveredExecution)
  | recorded (stored : Bool)
  | swept (count : Nat)
  | edited (result : Except RemediationWriteError Unit)
  /-- The database refused a statement and the transaction rolled back. -/
  | thrown
  | done

abbrev Call := Prog Stmt Store Outcome

section Functions
variable (sha256 : String → String) (hashtext : String → Int)

/-- The key of the advisory lock of an action on a host. -/
def lockKey (actionId hostId : Nat) : Int := hashtext s!"remediation:{actionId}:{hostId}"

/-- Start of the lookback: the longer of an hour and the cooldown. -/
def lookback (action : RemediationAction) (now : Int) : Int := now - max 3600 (action.cooldownSec : Int) * 1000

/-- The insert that ends `createExecution`, and what the function then returns to `k`. -/
def insertExecution (d : NewExecution) (k : Option CreatedExecution → Call) : Call :=
  .stmt (.createExecution d) fun s =>
    if (s.actions.get? d.action.id).isSome then k (some ⟨s.executions.next, d.status, d.violation⟩) else .ret .thrown

def createExecution (input : CreateInput) (now : Int) (k : Option CreatedExecution → Call) : Call :=
  .stmt (.findAction input.actionId input.orgId) fun s =>
    match s.findAction input.actionId input.orgId with
    | none => k none
    | some action =>
      match input.hostId <|> action.targetHostId with
      | none => insertExecution ⟨input, action, none, some .noTargetHost, now⟩ k
      | some hostId =>
        .stmt (.findHost hostId input.orgId) fun s =>
          match s.findHost hostId input.orgId with
          | none => insertExecution ⟨input, action, none, some .noTargetHost, now⟩ k
          | some host =>
            .stmt (.advisoryLock (lockKey hashtext action.id host.id)) fun _ =>
              .stmt (.findRecent action.id host.id (lookback action now)) fun s =>
                let recent := s.recent action.id host.id (lookback action now)
                let violation :=
                  guardrailViolation action.guardAction host.guardHost (sha256 action.scriptBody) recent now
                insertExecution ⟨input, action, some host.id, violation, now⟩ k

def requestRun (actor : Actor) (actionId : Nat) (hostId : Option Nat) : Call :=
  if !can actor.role .remediationRun then .ret (.requested (.error .forbidden))
  else
    .stmt .newDate fun s =>
      createExecution sha256 hashtext ⟨actor.orgId, actionId, hostId, .manual, none, some actor.userId, false⟩ s.clock
        fun
          | none => .ret (.requested (.error .notFound))
          | some created => .ret (.requested (.ok created))

/-- The run an opened incident queues or suggests. `incidentHost` is the incident's source when that is a host. -/
def triggerForIncident (orgId : Nat) (remediationActionId : Option Nat) (autoRemediate : Bool) (incidentId : Nat)
    (incidentHost : Option Nat) (now : Int) : Call :=
  match remediationActionId with
  | none => .ret (.created none)
  | some actionId =>
    .stmt (.findAction actionId orgId) fun s =>
      match s.findAction actionId orgId with
      | none => .ret (.created none)
      | some action =>
        createExecution sha256 hashtext
          ⟨orgId, actionId, incidentHost, .alert, some incidentId, none, !autoRemediate || action.requiresApproval⟩ now
          fun created => .ret (.created created)

/-- The checks of an approval: those of creation, less what this very execution would trip. -/
def approvalViolation (s : Store) (e : RemediationExecution) (action : RemediationAction) (now : Int) :
    Option StatusReason :=
  match e.hostId.bind s.hosts.get? with
  | some host =>
    guardrailViolation { action.guardAction with cooldownSec := 0, maxRunsPerHour := 1000 } host.guardHost e.scriptSha256
      [] now
  | none => some .noTargetHost

def approveExecution (actor : Actor) (id : Nat) (now : Int) : Call :=
  if !can actor.role .remediationRun then .ret (.approved (.error .forbidden))
  else
    .stmt (.findExecution id actor.orgId) fun s =>
      match s.findExecution id actor.orgId with
      | none => .ret (.approved (.error .notFound))
      | some e =>
        if e.status ≠ .awaitingApproval then .ret (.approved (.error .invalidStatus))
        else
          match s.actions.get? e.actionId with
          | none => .ret (.approved (.error .notFound))
          | some action =>
            let violation := approvalViolation s e action now
            .stmt (.approve id violation actor.userId now) fun s =>
              if s.executions.count (fun e => e.id == id && e.status == .awaitingApproval) ≠ 1 then
                .ret (.approved (.error .invalidStatus))
              else .ret (.approved (.ok ⟨id, if violation.isSome then .skipped else .pending, violation⟩))

def cancelExecution (actor : Actor) (id : Nat) (now : Int) : Call :=
  if !can actor.role .remediationRun then .ret (.cancelled (.error .forbidden))
  else
    .stmt (.cancel id actor.orgId now) fun s =>
      if s.executions.count (fun e => e.id == id && e.orgId == actor.orgId &&
          (e.status == .awaitingApproval || e.status == .pending)) ≠ 1 then
        .stmt (.countExecution id actor.orgId) fun s =>
          if s.executions.count (fun e => e.id == id && e.orgId == actor.orgId) = 1 then
            .ret (.cancelled (.error .invalidStatus))
          else .ret (.cancelled (.error .notFound))
      else .ret (.cancelled (.ok ()))

/-- `attempts` rounds of reading the oldest pending execution and trying to take it. -/
def claimNextExecution (orgId hostId : Nat) (now : Int) : (attempts : Nat) → Call
  | 0 => .ret (.claimed none)
  | attempts + 1 =>
    .stmt (.findNextPending orgId hostId) fun s =>
      match s.nextPending orgId hostId with
      | none => .ret (.claimed none)
      | some next =>
        .stmt (.claim next.id now) fun s =>
          if s.executions.count (fun e => e.id == next.id && e.status == .pending) ≠ 1 then
            claimNextExecution orgId hostId now attempts
          else .ret (.claimed (some next.delivered))

def recordExecutionResult (orgId hostId : Nat) (input : ExecutionResultInput) (now : Int) : Call :=
  .stmt (.storeResult orgId hostId input now) fun s =>
    .ret (.recorded (s.executions.count (fun e => e.id == input.executionId && e.orgId == orgId &&
      e.hostId == some hostId && e.status == .running) == 1))

def sweepExecutions (t : Int) : Call :=
  .stmt (.expirePending t) fun s₁ =>
    .stmt (.expireApproval t) fun s₂ =>
      .stmt (.timeOutLost t) fun s₃ =>
        .ret (.swept (s₁.executions.count (fun e => e.status == .pending && decide (e.createdAt < t - pendingTtlMs)) +
          s₂.executions.count (fun e => e.status == .awaitingApproval && decide (e.createdAt < t - approvalTtlMs)) +
          s₃.executions.count (fun e => e.status == .running && e.lost t)))

/-! ## Edits of the actions -/

/-- `hostInOrg`: no target host, or one of the organization. -/
def withHostInOrg (orgId : Nat) (hostId : Option Nat) (k : Call) : Call :=
  match hostId with
  | none => k
  | some hostId =>
    .stmt (.findHost hostId orgId) fun s =>
      if (s.findHost hostId orgId).isSome then k else .ret (.edited (.error .invalidHost))

def createRemediationAction (actor : Actor) (input : RemediationActionInput) : Call :=
  if !can actor.role .remediationWrite then .ret (.edited (.error .forbidden))
  else
    match validate input with
    | some invalid => .ret (.edited (.error invalid))
    | none =>
      withHostInOrg actor.orgId input.targetHostId (.stmt (.createAction actor.orgId input) fun _ => .ret (.edited (.ok ())))

def updateRemediationAction (actor : Actor) (id : Nat) (input : RemediationActionInput) : Call :=
  if !can actor.role .remediationWrite then .ret (.edited (.error .forbidden))
  else
    match validate input with
    | some invalid => .ret (.edited (.error invalid))
    | none =>
      withHostInOrg actor.orgId input.targetHostId
        (.stmt (.findAction id actor.orgId) fun s =>
          if (s.findAction id actor.orgId).isSome then
            .stmt (.updateAction id input) fun s =>
              if (s.actions.get? id).isSome then .ret (.edited (.ok ())) else .ret .thrown
          else .ret (.edited (.error .notFound)))

def setRemediationActionEnabled (actor : Actor) (id : Nat) (enabled : Bool) : Call :=
  if !can actor.role .remediationWrite then .ret (.edited (.error .forbidden))
  else
    .stmt (.setActionEnabled id actor.orgId enabled) fun s =>
      if (s.findAction id actor.orgId).isSome then .ret (.edited (.ok ())) else .ret (.edited (.error .notFound))

def deleteRemediationAction (actor : Actor) (id : Nat) : Call :=
  if !can actor.role .remediationWrite then .ret (.edited (.error .forbidden))
  else
    .stmt (.deleteAction id actor.orgId) fun s =>
      if (s.findAction id actor.orgId).isSome then .ret (.edited (.ok ())) else .ret (.edited (.error .notFound))

/-! ## Calls in flight -/

/-- The calls of the four parties. A call takes `now` when it starts, except that the evaluator passes `createExecution`
the time its batch was received, `age` milliseconds before. -/
inductive Op where
  | createExecution (input : CreateInput) (age : Nat)
  | requestRun (actor : Actor) (actionId : Nat) (hostId : Option Nat)
  | triggerForIncident (orgId : Nat) (actionId : Option Nat) (autoRemediate : Bool) (incidentId : Nat)
    (incidentHost : Option Nat) (age : Nat)
  | approveExecution (actor : Actor) (id : Nat)
  | cancelExecution (actor : Actor) (id : Nat)
  | claimNextExecution (orgId hostId : Nat)
  | recordExecutionResult (orgId hostId : Nat) (input : ExecutionResultInput)
  | sweepExecutions
  | createRemediationAction (actor : Actor) (input : RemediationActionInput)
  | updateRemediationAction (actor : Actor) (id : Nat) (input : RemediationActionInput)
  | setRemediationActionEnabled (actor : Actor) (id : Nat) (enabled : Bool)
  | deleteRemediationAction (actor : Actor) (id : Nat)
  /-- Whatever else writes a host row: its policy with each heartbeat, its operating system, its switch. -/
  | updateHost (host : MonitoredHost)
  | tick (ms : Nat)

def Op.call : Op → Call
  | .createExecution input age =>
    .stmt .newDate fun s => Remediation.createExecution sha256 hashtext input (s.clock - age) fun r => .ret (.created r)
  | .requestRun actor actionId hostId => Remediation.requestRun sha256 hashtext actor actionId hostId
  | .triggerForIncident orgId actionId auto incidentId host age =>
    .stmt .newDate fun s =>
      Remediation.triggerForIncident sha256 hashtext orgId actionId auto incidentId host (s.clock - age)
  | .approveExecution actor id => .stmt .newDate fun s => Remediation.approveExecution actor id s.clock
  | .cancelExecution actor id => .stmt .newDate fun s => Remediation.cancelExecution actor id s.clock
  | .claimNextExecution orgId hostId =>
    .stmt .newDate fun s => Remediation.claimNextExecution orgId hostId s.clock 3
  | .recordExecutionResult orgId hostId input =>
    .stmt .newDate fun s => Remediation.recordExecutionResult orgId hostId input s.clock
  | .sweepExecutions => .stmt .newDate fun s => Remediation.sweepExecutions s.clock
  | .createRemediationAction actor input => Remediation.createRemediationAction actor input
  | .updateRemediationAction actor id input => Remediation.updateRemediationAction actor id input
  | .setRemediationActionEnabled actor id enabled => Remediation.setRemediationActionEnabled actor id enabled
  | .deleteRemediationAction actor id => Remediation.deleteRemediationAction actor id
  | .updateHost host => .stmt (.updateHost host) fun _ => .ret .done
  | .tick ms => .stmt (.tick ms) fun _ => .ret .done

abbrev System := Conf Nat Stmt Store Outcome

/-- Call `i` is `ops i`, none has started, and no execution exists yet. -/
def start (ops : Nat → Op) (clock : Int) (actions : Table RemediationAction) (hosts : Table MonitoredHost) : System where
  store := ⟨clock, actions, hosts, .empty, []⟩
  calls := fun i => (ops i).call sha256 hashtext

end Functions

end IkelyaneMonitor.Remediation
