import IkelyaneMonitor.Agent.Disk
import IkelyaneMonitor.Telemetry.Replays

/-!
# Agents that report to a server (`runCycle`, `flushBuffer` and `sendOrBuffer` of `agent/cmd/ikelyane-agent/main.go`, over
`app/api/v1/telemetry/route.ts`)

* `Setting` : the server's keys and limits, and the agents; `World` : the server, the requests on their way, the processes of
  the agents with their buffers, and a record of what was made, stored and lost;
* `Event`, `World.step`, `World.run` : one thing that happens, and a history. A request is served at any time after it was
  sent, any number of times or never, and its reply is heard or not; a process may be stopped at any time and then starts anew
  on the files that are there;
* `Cause` : why a sample is lost.

The server stores a request in one transaction, and a transaction that fails stores nothing. The buffer is the directory of
`Disk`.
-/

namespace IkelyaneMonitor.Agent.Reporting
open Telemetry Disk Wire

/-- A server, and its agents by number. -/
structure Setting where
  hmac : (key message : List UInt8) → Digest
  decryptSecret : (payload aad : String) → Option String
  decode : String → Decoded
  toISOString : Int → String
  draw : Telemetry.Source → Nat
  env : Env
  client : Nat → Client
  hostId : Nat → Nat
  orgId : Nat → Nat

/-- A body, with the clock of the agent in seconds when it was signed. -/
structure Request where
  agent : Nat
  body : String
  clock : Int
  deriving DecidableEq, Repr

structure Reply where
  status : Nat
  code : Option ErrorCode
  deriving DecidableEq, Repr

/-- Where `runCycle` is. -/
inductive Phase where
  /-- Between two cycles, or stopped. -/
  | idle
  /-- Before a turn of the loop of `flushBuffer`, with the entries that are left. -/
  | flushing (turn : Nat) (entries : List Disk.Entry)
  /-- In `Send` of that loop. -/
  | resending (turn : Nat) (e : Disk.Entry) (entries : List Disk.Entry) (request : Nat)
  /-- After the flush. -/
  | collecting
  /-- In `Send` of a fresh sample. -/
  | sending (body : String) (request : Nat)
  deriving DecidableEq, Repr

/-- What comes back to a request. -/
inductive Answer where
  /-- A reply of the server to it. -/
  | reply (r : Reply)
  /-- A reply that the server did not make. -/
  | other (r : Reply)
  | nothing
  deriving DecidableEq, Repr

/-- `Result.Outcome` of `Send`. -/
def Answer.outcome : Answer → Agent.Outcome
  | .reply r | .other r => classify r.status r.code
  | .nothing => .retry

/-- Why a sample is lost. -/
inductive Cause where
  /-- Its file was past its age when the buffer was read. -/
  | aged (f : File) (now : Int)
  /-- There were this many files when room was made. -/
  | evicted (f : File) (files : Nat)
  /-- Another sample was written under the name of its file. -/
  | overwritten (f : File) (now : Int)
  /-- The server refused it. -/
  | refused (request : Nat) (r : Reply)
  /-- Something else answered in place of the server. -/
  | intercepted (r : Reply)
  /-- The process was stopped while it sent it. -/
  | stopped
  deriving DecidableEq

structure Loss where
  agent : Nat
  body : String
  cause : Cause
  deriving DecidableEq

structure World where
  store : Store
  hosts : List AgentHost
  sent : List Request
  /-- The replies of the server, each to a request. -/
  replies : List (Nat × Reply)
  phases : Nat → Phase
  dirs : Nat → List File
  /-- The samples that were made, in their order. -/
  made : List (Nat × String)
  /-- The requests that were stored, in the order in which they were. -/
  stored : List (Nat × Delivery)
  lost : List Loss

inductive Event where
  /-- The hosts are changed by their operators. -/
  | administer (hosts : List AgentHost)
  /-- The server handles a request. -/
  | serve (request : Nat) (now : Int)
  /-- The server fails on a request. -/
  | fail (request : Nat)
  /-- A cycle starts with the buffer. -/
  | tick (a : Nat) (now : Int)
  | turn (a : Nat) (clock : Int)
  /-- A sample is made, if it can be encoded. -/
  | collect (a : Nat) (body : Option String) (clock : Int)
  | hear (a : Nat) (answer : Answer) (now : Int)
  | stop (a : Nat)
  deriving DecidableEq

namespace World

/-- Before any sample. -/
def start (store : Store) (hosts : List AgentHost) : World where
  store := store
  hosts := hosts
  sent := []
  replies := []
  phases := fun _ => .idle
  dirs := fun _ => []
  made := []
  stored := []
  lost := []

def setPhase (w : World) (a : Nat) (phase : Phase) : World := { w with phases := Function.update w.phases a phase }

/-- The files of the agent are now `dir`; those of `gone` are lost for the cause they are given. -/
def setDir (w : World) (a : Nat) (dir : List File) (gone : List File) (cause : File → Cause) : World :=
  { w with dirs := Function.update w.dirs a dir, lost := w.lost ++ gone.map fun f => ⟨a, f.body, cause f⟩ }

/-- `Remove`. -/
def remove (w : World) (a : Nat) (path : List Char) : World :=
  { w with dirs := Function.update w.dirs a (removeFile path (w.dirs a)) }

def lose (w : World) (a : Nat) (body : String) (cause : Cause) : World := { w with lost := w.lost ++ [⟨a, body, cause⟩] }

def send (w : World) (a : Nat) (body : String) (clock : Int) : World := { w with sent := w.sent ++ [⟨a, body, clock⟩] }

def reply (w : World) (request : Nat) (r : Reply) : World := { w with replies := w.replies ++ [(request, r)] }

/-- `Pending`. -/
def read (w : World) (a : Nat) (now : Int) : World :=
  let dir := (Disk.pending now (w.dirs a)).1
  w.setDir a dir ((w.dirs a).filter (· ∉ dir)) (.aged · now)

/-- `Push`. -/
def keep (w : World) (a : Nat) (body : String) (now : Int) : World :=
  let dir := Disk.evictIfFull (w.dirs a)
  let w' := w.setDir a dir ((w.dirs a).filter (· ∉ dir)) (.evicted · (w.dirs a).length)
  w'.setDir a (Disk.push now body (w.dirs a)) (dir.filter fun f => f.name = fileName now) (.overwritten · now)

/-- What becomes of a sample that `Send` returned for with no retry: it was stored, or is lost. -/
def conclude (w : World) (a : Nat) (body : String) (request : Nat) : Answer → World
  | .reply r => if classify r.status r.code = .stored then w else w.lose a body (.refused request r)
  | .other r => w.lose a body (.intercepted r)
  | .nothing => w

/-- The server made the reply. -/
def heard (w : World) (request : Nat) : Answer → Bool
  | .reply r => (request, r) ∈ w.replies
  | .other _ | .nothing => true

section Setting
variable (S : Setting)

/-- The host of the agent, with what of it lasts. -/
def agent (a : Nat) : AuthenticatedAgent where
  hostId := S.hostId a
  orgId := S.orgId a
  hostname := ""
  keyId := (S.client a).keyId
  firstSeenAt := none
  responseSecrets := []

/-- The answer of the server to a request. -/
def answer (w : World) (r : Request) (now : Int) : Except HttpError (Store × IngestResult) :=
  post S.hmac S.decryptSecret S.decode S.toISOString S.draw S.env w.hosts (some (S.client r.agent).keyId)
    (some (sign S.hmac (S.client r.agent).secret (utf8 r.body.toList) r.clock)) r.body now w.store

/-- The delivery that a stored request is. -/
def delivery (r : Request) (now : Int) : List Delivery :=
  match S.decode r.body with
  | .payload payload => [⟨⟨agent S r.agent, payload⟩, S.env.context now⟩]
  | .notJson | .invalid => []

def serve (w : World) (request : Nat) (r : Request) (now : Int) : World :=
  match w.answer S r now with
  | .ok (store, _) =>
    { w.reply request ⟨200, none⟩ with
      store := store
      stored := w.stored ++ (delivery S r now).map (request, ·) }
  | .error e => w.reply request ⟨e.status, some e.code⟩

def step (w : World) : Event → Option World
  | .administer hosts => some { w with hosts := hosts }
  | .serve request now => (w.sent[request]?).map fun r => w.serve S request r now
  | .fail request => if request < w.sent.length then some (w.reply request ⟨500, some .internalError⟩) else none
  | .tick a now =>
    match w.phases a with
    | .idle => some ((w.read a now).setPhase a (.flushing 0 (Disk.pending now (w.dirs a)).2))
    | _ => none
  | .turn a clock =>
    match w.phases a with
    | .flushing _ [] => some (w.setPhase a .collecting)
    | .flushing turn (e :: entries) =>
      if bufferFlushBatch ≤ turn then some (w.setPhase a .collecting)
      else some ((w.send a e.body clock).setPhase a (.resending turn e entries w.sent.length))
    | _ => none
  | .collect a body clock =>
    match w.phases a, body with
    | .collecting, none => some (w.setPhase a .idle)
    | .collecting, some body =>
      some (({ w with made := w.made ++ [(a, body)] }.send a body clock).setPhase a (.sending body w.sent.length))
    | _, _ => none
  | .hear a answer now =>
    match w.phases a with
    | .resending turn e entries request =>
      if !w.heard request answer then none
      else if answer.outcome = .retry then some (w.setPhase a .collecting)
      else some (((w.remove a e.path).conclude a e.body request answer).setPhase a (.flushing (turn + 1) entries))
    | .sending body request =>
      if !w.heard request answer then none
      else if answer.outcome = .retry then some ((w.keep a body now).setPhase a .idle)
      else some ((w.conclude a body request answer).setPhase a .idle)
    | _ => none
  | .stop a =>
    match w.phases a with
    | .sending body _ => some ((w.lose a body .stopped).setPhase a .idle)
    | _ => some (w.setPhase a .idle)

def run : List Event → World → Option World
  | [], w => some w
  | event :: events, w => (w.step S event).bind (run events)

end Setting

end World

end IkelyaneMonitor.Agent.Reporting
