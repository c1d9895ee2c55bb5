import IkelyaneMonitor.Telemetry.Route

/-!
# The agent's buffer (`agent/internal/buffer/buffer.go`, `agent/internal/telemetry/client.go`, `flushBuffer` and
`sendOrBuffer` of `agent/cmd/ikelyane-agent/main.go`)

* `Deployment`, `World` : what decides the answer to a request at one moment; `send` : the outcome of a request then;
* `pending`, `push` with `evictIfFull` : the files of the buffer; `flushBuffer`, `sendOrBuffer` : what a cycle does with
  them, and what it loses (`Loss`);
* `Hopeless` : no later request with the same body is stored, whatever the clock of the agent and the flag of the host;
* `Fair` : the moments at which a refusal says that; `losses_justified` : in a run whose requests are all made then, a payload
  leaves the buffer only when it was stored, is hopeless, is too old or makes room; `dropped_while_disabled` : in another.

A body is what `json.Marshal` wrote, a text. The files of the buffer are read and written without errors. A name is the time
it was written, in nanoseconds, and the files are listed in the order of their names.
-/

namespace IkelyaneMonitor.Agent
open Telemetry Wire

inductive Outcome where
  | stored | retry | bug | clockSkew | hostDisabled
  deriving DecidableEq, Repr

/-- What becomes of a request on its way. -/
inductive Path where
  /-- The application answers. -/
  | served
  /-- Nothing comes back. -/
  | lost
  /-- Something else answers, with this status. -/
  | other (status : Nat)
  deriving DecidableEq, Repr

structure Client where
  keyId : String
  secret : String
  deriving DecidableEq, Repr

/-- A server and an agent that reports to it. -/
structure Deployment where
  hmac : (key message : List UInt8) → Digest
  decryptSecret : (payload aad : String) → Option String
  decode : String → Decoded
  toISOString : Int → String
  draw : Telemetry.Source → Nat
  env : Env
  hosts : List AgentHost
  client : Client

/-- The moment of a request: the time of the server in milliseconds, the clock of the agent in seconds, which hosts are
enabled, and what is stored. -/
structure World (dep : Deployment) where
  now : Int
  clock : Int
  enabled : Nat → Bool
  store : { s : Store // Drawn dep.draw s }
  path : Path

/-- The switch of `Send`. -/
def classify (status : Nat) (code : Option ErrorCode) : Outcome :=
  if status = 200 then .stored
  else if status = 403 ∧ code = some .hostDisabled then .hostDisabled
  else if status = 401 ∧ code = some .timestampOutOfTolerance then .clockSkew
  else if 500 ≤ status then .retry
  else .bug

/-- One payload in the buffer: the name of its file, when it was last written, and its bytes. -/
structure Entry where
  name : Int
  modTime : Int
  body : String
  deriving DecidableEq, Repr

def maxEntries : Nat := 500

/-- Seven days, in nanoseconds. -/
def maxAge : Int := 7 * 24 * 60 * 60 * 10 ^ 9

def bufferFlushBatch : Nat := 20

def Entry.expired (now : Int) (e : Entry) : Bool := e.modTime < now - maxAge

section Cycle
variable {dep : Deployment}

def World.row (w : World dep) (host : AgentHost) : AgentHost := { host with enabled := w.enabled host.id }

/-- The table of hosts at the moment of a request. -/
def World.table (w : World dep) : List AgentHost := dep.hosts.map w.row

/-- The answer of the application. -/
def World.answer (w : World dep) (body : String) : Except HttpError (Store × IngestResult) :=
  post dep.hmac dep.decryptSecret dep.decode dep.toISOString dep.draw dep.env w.table (some dep.client.keyId)
    (some (sign dep.hmac dep.client.secret (utf8 body.toList) w.clock)) body w.now w.store.1

def send (w : World dep) (body : String) : Outcome :=
  match w.path with
  | .lost => .retry
  | .other status => classify status none
  | .served =>
    match w.answer body with
    | .ok _ => classify 200 none
    | .error e => classify e.status (some e.code)

/-- Why a payload left the buffer. -/
inductive Cause (dep : Deployment) where
  /-- It was past its age when the buffer was read. -/
  | aged (now : Int)
  /-- There were this many files when room was made. -/
  | evicted (files : Nat)
  /-- Another file was written under its name. -/
  | overwritten
  /-- It was sent, and not to be kept. -/
  | answered (w : World dep)

structure Loss (dep : Deployment) where
  entry : Entry
  cause : Cause dep

/-- The loop of `flushBuffer`, from its `i`-th turn on. -/
def flushFrom (world : Nat → World dep) : Nat → List Entry → List Entry × List (Loss dep)
  | _, [] => ([], [])
  | i, e :: entries =>
    if bufferFlushBatch ≤ i then (e :: entries, [])
    else
      match send (world i) e.body with
      | .retry => (e :: entries, [])
      | .stored | .bug | .clockSkew | .hostDisabled =>
        let rest := flushFrom world (i + 1) entries
        (rest.1, ⟨e, .answered (world i)⟩ :: rest.2)

/-- `now` is the clock in nanoseconds when the buffer is read, `world i` the moment of the `i`-th request. -/
def flushBuffer (now : Int) (world : Nat → World dep) (buffer : List Entry) : List Entry × List (Loss dep) :=
  let sent := flushFrom world 0 (buffer.filter fun e => !e.expired now)
  (sent.1, (buffer.filter fun e => e.expired now).map (⟨·, .aged now⟩) ++ sent.2)

def evictIfFull (dep : Deployment) (buffer : List Entry) : List Entry × List (Loss dep) :=
  if buffer.length < maxEntries then (buffer, [])
  else
    let toDrop := buffer.length - maxEntries + 1
    (buffer.drop toDrop, (buffer.take toDrop).map (⟨·, .evicted buffer.length⟩))

def push (dep : Deployment) (now : Int) (body : String) (buffer : List Entry) : List Entry × List (Loss dep) :=
  let room := evictIfFull dep buffer
  (room.1.filter (fun e => e.name < now) ++ ⟨now, now, body⟩ :: room.1.filter (fun e => now < e.name),
    room.2 ++ (room.1.filter fun e => e.name = now).map (⟨·, .overwritten⟩))

def sendOrBuffer (now : Int) (w : World dep) (body : String) (buffer : List Entry) : List Entry × List (Loss dep) :=
  match send w body with
  | .retry => push dep now body buffer
  | .stored | .bug | .clockSkew | .hostDisabled => (buffer, [])

/-- The parts of a cycle that touch the buffer. -/
inductive Event (dep : Deployment) where
  | flush (now : Int) (world : Nat → World dep)
  | sample (now : Int) (w : World dep) (body : String)

def step (buffer : List Entry) : Event dep → List Entry × List (Loss dep)
  | .flush now world => flushBuffer now world buffer
  | .sample now w body => sendOrBuffer now w body buffer

/-- The buffer after a sequence of events, and all that was lost on the way. -/
def run : List (Event dep) → List Entry → List Entry × List (Loss dep)
  | [], buffer => (buffer, [])
  | event :: events, buffer =>
    let one := step buffer event
    let rest := run events one.1
    (rest.1, one.2 ++ rest.2)

/-! ## What the buffer is to keep -/

/-- The application takes the body at that moment. -/
def Stored (w : World dep) (body : String) : Prop :=
  w.path = .served ∧ ∃ result, w.answer body = .ok result

/-- The same bytes, signed again, are refused at every later moment. -/
def Hopeless (w : World dep) (body : String) : Prop :=
  ∀ w' : World dep, w.now ≤ w'.now → ¬ Stored w' body

def Loss.Justified (l : Loss dep) : Prop :=
  match l.cause with
  | .aged now => l.entry.modTime < now - maxAge
  | .evicted files => maxEntries ≤ files
  | .overwritten => False
  | .answered w => Stored w l.entry.body ∨ Hopeless w l.entry.body

/-- A body that is too large, or not a payload. -/
def Malformed (dep : Deployment) (body : String) : Prop :=
  dep.env.maxBodyBytes < (utf8 body.toList).length ∨ ∀ payload, dep.decode body ≠ .payload payload

/-- The clock of the agent is within the tolerance, the host is enabled and no time of the payload is in the future of the
server, unless the body is malformed; and what answers in place of the application reports a fault of its own. -/
def Fair (w : World dep) (body : String) : Prop :=
  match w.path with
  | .lost => True
  | .other status => 500 ≤ status
  | .served =>
    Malformed dep body ∨ (∃ t : Nat, w.clock = t ∧ Digits9To12 t ∧ |w.now - t * 1000| ≤ dep.env.maxClockSkewSeconds * 1000) ∧
      (∀ host ∈ dep.hosts, host.keyId = dep.client.keyId → w.enabled host.id = true) ∧
      ∀ payload, dep.decode body = .payload payload →
        ∀ time ∈ payload.times, time.ms ≤ w.now + dep.env.maxClockSkewSeconds * 1000

/-- A secret of the host gives the signature of another secret on no message. -/
def Unforgeable (dep : Deployment) : Prop :=
  ∀ host ∈ dep.hosts, host.keyId = dep.client.keyId → ∀ (secret : String) (now : Int) (secrets : List String),
    acceptedSecrets dep.decryptSecret host now = some secrets → secret ∈ secrets →
    ∀ (t : Nat) (body : List UInt8), digestOf dep.hmac secret t body = digestOf dep.hmac dep.client.secret t body →
      secret = dep.client.secret

/-- The requests of an event are made at fair moments, and a file is written under a new name. -/
def Event.Meets (buffer : List Entry) : Event dep → Prop
  | .flush now world => ∀ i e, (buffer.filter fun e => !e.expired now)[i]? = some e → i < bufferFlushBatch →
      Fair (world i) e.body
  | .sample now _ _ => ∀ e ∈ buffer, e.name ≠ now

/-- Every event of the run meets the condition. -/
def Meets : List (Event dep) → List Entry → Prop
  | [], _ => True
  | event :: events, buffer =>
    event.Meets buffer ∧ Meets events (step buffer event).1

/-! ## Requests at fair moments -/

theorem acceptedSecrets_mono {decryptSecret : (payload aad : String) → Option String} {host : AgentHost} {now now' : Int}
    {secrets secrets' : List String} (hle : now ≤ now') (h : acceptedSecrets decryptSecret host now = some secrets)
    (h' : acceptedSecrets decryptSecret host now' = some secrets') : secrets' ⊆ secrets := by
  have hvalid : ∀ enc, previousStillValid host now' = some enc → previousStillValid host now = some enc := by
    intro enc henc
    unfold previousStillValid at henc ⊢
    split at henc
    · rename_i old expiresAt hold hexpires
      split at henc
      · rename_i hlive
        rw [if_pos ⟨hlive.1, by omega⟩]
        exact henc
      · cases henc
    · cases henc
  unfold acceptedSecrets at h h'
  cases hcurrent : decryptSecret host.hmacSecretEnc (hostSecretAad host.keyId) with
  | none =>
      rw [hcurrent] at h
      cases h
  | some current =>
      rw [hcurrent] at h h'
      simp only at h h'
      cases hprevious' : previousStillValid host now' with
      | some enc =>
          rw [hprevious'] at h'
          rw [hvalid enc hprevious'] at h
          rw [Option.some.inj (h.symm.trans h')]
          exact List.Subset.refl _
      | none =>
          rw [hprevious'] at h'
          obtain rfl := Option.some.inj h'
          intro secret hsecret
          rw [List.mem_singleton.mp hsecret]
          cases hprevious : previousStillValid host now with
          | none =>
              rw [hprevious] at h
              rw [← Option.some.inj h]
              exact List.mem_cons_self
          | some enc =>
              rw [hprevious] at h
              obtain ⟨previous, -, rfl⟩ := Option.map_eq_some_iff.mp h
              exact List.mem_cons_self

theorem find_table (w : World dep) (keyId : String) :
    (w.table.find? fun host => host.keyId == keyId) =
      (dep.hosts.find? fun host => host.keyId == keyId).map w.row := by
  rw [World.table, List.find?_map]
  rfl

theorem key_row {host : AgentHost} (hhost : (dep.hosts.find? fun host => host.keyId == dep.client.keyId) = some host)
    (w : World dep) : (w.row host).keyId = dep.client.keyId := by
  show host.keyId = _
  simpa using List.find?_some hhost

theorem find_row {host : AgentHost} (hhost : (dep.hosts.find? fun host => host.keyId == dep.client.keyId) = some host)
    (w : World dep) : (w.table.find? fun row => row.keyId == (w.row host).keyId) = some (w.row host) := by
  rw [key_row hhost, find_table, hhost]
  rfl

/-- With the clocks within the tolerance and a secret that the host knows, its flag decides. -/
theorem authenticate_of_clock {w : World dep} {host : AgentHost} (hne : dep.client.keyId ≠ "")
    (hhost : (dep.hosts.find? fun host => host.keyId == dep.client.keyId) = some host) {t : Nat} (hclock : w.clock = t)
    (ht : Digits9To12 t) (hfresh : |w.now - t * 1000| ≤ dep.env.maxClockSkewSeconds * 1000) {secrets : List String}
    (hsecrets : acceptedSecrets dep.decryptSecret host w.now = some secrets) (hmem : dep.client.secret ∈ secrets)
    (body : String) :
    authenticateAgent dep.hmac dep.decryptSecret w.table ⟨some dep.client.keyId,
        some (sign dep.hmac dep.client.secret (utf8 body.toList) w.clock), body, w.now, dep.env.maxClockSkewSeconds⟩ =
      if w.enabled host.id = true then
        .ok ⟨host.id, host.orgId, host.hostname, host.keyId, host.firstSeenAt, secrets⟩
      else .error hostDisabled := by
  rw [← key_row hhost w] at hne
  rw [hclock, ← key_row hhost w,
    authenticateAgent_signed dep.hmac dep.decryptSecret hne (find_row hhost w) hsecrets ht hfresh, if_pos ⟨_, hmem, rfl⟩]
  rfl

/-- What a request that is stored at some moment says about the host: it knows the secret of the agent. -/
theorem secret_of_stored (h : Unforgeable dep) {w : World dep} {body : String} (hstored : Stored w body) :
    dep.client.keyId ≠ "" ∧ ∃ host, (dep.hosts.find? fun host => host.keyId == dep.client.keyId) = some host ∧
      ∃ secrets, acceptedSecrets dep.decryptSecret host w.now = some secrets ∧ dep.client.secret ∈ secrets := by
  obtain ⟨-, hanswer⟩ := hstored
  obtain ⟨-, ⟨agent, hagent⟩, -⟩ := (stored_iff w.store.2).mp hanswer
  obtain ⟨header, parsed, host, hheader, hparse, -, hfind, hkey, hne, hsecrets, hverify, -⟩ :=
    authenticateAgent_ok dep.hmac dep.decryptSecret hagent
  simp only [Option.some.injEq] at hheader hkey hsecrets hverify
  subst hheader
  -- the signature that was verified is the agent's own
  obtain ⟨t, hclock, ht⟩ := digits_of_parse_sign dep.hmac hparse
  rw [hclock, parse_sign dep.hmac dep.client.secret (utf8 body.toList) ht] at hparse
  obtain rfl := Option.some.inj hparse
  obtain ⟨secret, hsecret, candidate, hcandidate, hdecode⟩ := (verifySignature_iff dep.hmac).mp hverify
  rw [List.mem_singleton.mp hcandidate, hexDecode_hexEncode] at hdecode
  rw [← hkey, find_table] at hfind
  obtain ⟨row, hrow, rfl⟩ := Option.map_eq_some_iff.mp hfind
  have hsame : secret = dep.client.secret := by
    apply h row (List.mem_of_find?_eq_some hrow) hkey.symm secret w.now agent.responseSecrets hsecrets hsecret t
    exact (Subtype.ext (Option.some.inj hdecode)).symm
  exact ⟨hkey ▸ hne, row, hrow, agent.responseSecrets, hsecrets, hsame ▸ hsecret⟩

/-- At a fair moment a body that can ever be stored is stored, or the server reports a fault of its own. -/
theorem send_of_fair (h : Unforgeable dep) {w : World dep} {body : String} (hfair : Fair w body) :
    send w body = .retry ∨ Stored w body ∨ Hopeless w body := by
  unfold Fair at hfair
  cases hpath : w.path with
  | lost => exact .inl (by rw [send, hpath])
  | other status =>
      rw [hpath] at hfair
      refine .inl ?_
      have hle : 500 ≤ status := hfair
      rw [send, hpath]
      simp only [classify]
      rw [if_neg (by omega), if_neg (by omega), if_neg (by omega), if_pos hle]
  | served =>
      rw [hpath] at hfair
      by_cases hhope : Hopeless w body
      · exact .inr (.inr hhope)
      -- some later request is stored
      simp only [Hopeless, not_forall, not_not] at hhope
      obtain ⟨w', hlater, hstored⟩ := hhope
      obtain ⟨hne, host, hhost, secrets', hsecrets', hmem'⟩ := secret_of_stored h hstored
      obtain ⟨hsize, -, payload, hdecode, hwindow⟩ := (stored_iff w'.store.2).mp hstored.2
      rcases hfair with hmalformed | ⟨⟨t, hclock, ht, hfresh⟩, henabled, hfuture⟩
      · rcases hmalformed with hlarge | hnone
        · omega
        · exact absurd hdecode (hnone payload)
      have hflag : w.enabled host.id = true := henabled host (List.mem_of_find?_eq_some hhost) (key_row hhost w)
      cases hsecrets : acceptedSecrets dep.decryptSecret host w.now with
      | none =>
          -- a ciphertext that does not decrypt is a fault of the server
          refine .inl ?_
          have hanswer : w.answer body = .error internalError := by
            have hnone : acceptedSecrets dep.decryptSecret (w.row host) w.now = none := hsecrets
            rw [← key_row hhost w] at hne
            rw [World.answer, post, if_neg (Nat.not_lt.mpr hsize), hclock, ← key_row hhost w,
              authenticateAgent_fresh dep.hmac dep.decryptSecret hne (find_row hhost w) ht hfresh, hnone]
          rw [send, hpath]
          simp only [hanswer]
          decide
      | some secrets =>
          have hmem := acceptedSecrets_mono hlater hsecrets hsecrets' hmem'
          refine .inr (.inl ⟨hpath, (stored_iff w.store.2).mpr ⟨hsize, ?_, payload, hdecode, ?_⟩⟩)
          · rw [authenticate_of_clock hne hhost hclock ht hfresh hsecrets hmem, if_pos hflag]
            exact ⟨_, rfl⟩
          · rw [inWindow_iff] at hwindow ⊢
            intro time htime
            have hold := hwindow time htime
            have hnew := hfuture payload hdecode time htime
            rw [IngestContext.covers_iff] at hold ⊢
            simp only [Env.context] at hold ⊢
            push_cast at hold ⊢
            omega

/-! ## What a cycle loses -/

/-- What the loop removes was sent, and not to be sent again. -/
theorem sent_of_flushFrom {world : Nat → World dep} {entries : List Entry} {i : Nat} {l : Loss dep}
    (hl : l ∈ (flushFrom world i entries).2) :
    ∃ k, entries[k]? = some l.entry ∧ i + k < bufferFlushBatch ∧ l.cause = .answered (world (i + k)) ∧
      send (world (i + k)) l.entry.body ≠ .retry := by
  induction entries generalizing i with
  | nil => cases hl
  | cons e entries ih =>
      rw [flushFrom] at hl
      split at hl
      · cases hl
      rename_i hbatch
      split at hl
      · cases hl
      all_goals
        rename_i hsend
        rcases List.mem_cons.mp hl with rfl | hrest
        · exact ⟨0, rfl, by omega, rfl, by rw [Nat.add_zero, hsend]; decide⟩
        · obtain ⟨k, hk, hlt, hcause, hne⟩ := ih hrest
          have hshift : i + (k + 1) = i + 1 + k := by omega
          exact ⟨k + 1, hk, by omega, by rw [hshift]; exact hcause, by rw [hshift]; exact hne⟩

theorem kept_or_lost_flushFrom (world : Nat → World dep) (entries : List Entry) (i : Nat) {e : Entry} (he : e ∈ entries) :
    e ∈ (flushFrom world i entries).1 ∨ ∃ l ∈ (flushFrom world i entries).2, l.entry = e := by
  induction entries generalizing i with
  | nil => cases he
  | cons head entries ih =>
      rw [flushFrom]
      split
      · exact .inl he
      split
      · exact .inl he
      all_goals
        rcases List.mem_cons.mp he with rfl | hrest
        · exact .inr ⟨_, List.mem_cons_self, rfl⟩
        · rcases ih (i + 1) hrest with hkept | ⟨l, hl, hentry⟩
          · exact .inl hkept
          · exact .inr ⟨l, List.mem_cons_of_mem _ hl, hentry⟩

theorem justified_of_flush (h : Unforgeable dep) {now : Int} {world : Nat → World dep} {buffer : List Entry}
    (hmeets : (Event.flush now world).Meets buffer) {l : Loss dep} (hl : l ∈ (flushBuffer now world buffer).2) :
    l.Justified := by
  rcases List.mem_append.mp hl with haged | hsent
  · obtain ⟨e, he, rfl⟩ := List.mem_map.mp haged
    have hold : e.expired now = true := (List.mem_filter.mp he).2
    rw [Entry.expired, decide_eq_true_iff] at hold
    exact hold
  · obtain ⟨k, hk, hlt, hcause, hne⟩ := sent_of_flushFrom hsent
    rw [Nat.zero_add] at hlt hcause hne
    unfold Loss.Justified
    rw [hcause]
    rcases send_of_fair h (hmeets k l.entry hk hlt) with hretry | hdone
    · exact absurd hretry hne
    · exact hdone

theorem kept_or_lost_flush (now : Int) (world : Nat → World dep) (buffer : List Entry) {e : Entry} (he : e ∈ buffer) :
    e ∈ (flushBuffer now world buffer).1 ∨ ∃ l ∈ (flushBuffer now world buffer).2, l.entry = e := by
  by_cases hold : e.expired now = true
  · exact .inr ⟨_, List.mem_append_left _ (List.mem_map_of_mem (List.mem_filter.mpr ⟨he, hold⟩)), rfl⟩
  · have hfresh : e ∈ buffer.filter fun e => !e.expired now := List.mem_filter.mpr ⟨he, by simpa using hold⟩
    rcases kept_or_lost_flushFrom world _ 0 hfresh with hkept | ⟨l, hl, hentry⟩
    · exact .inl hkept
    · exact .inr ⟨l, List.mem_append_right _ hl, hentry⟩

theorem mem_of_evictIfFull {buffer : List Entry} {e : Entry} (he : e ∈ (evictIfFull dep buffer).1) : e ∈ buffer := by
  unfold evictIfFull at he
  split at he
  · exact he
  · exact List.mem_of_mem_drop he

theorem justified_of_push {now : Int} {body : String} {buffer : List Entry} (hnew : ∀ e ∈ buffer, e.name ≠ now)
    {l : Loss dep} (hl : l ∈ (push dep now body buffer).2) : l.Justified := by
  rcases List.mem_append.mp hl with hroom | hname
  · unfold evictIfFull at hroom
    split at hroom
    · cases hroom
    · rename_i hfull
      obtain ⟨e, -, rfl⟩ := List.mem_map.mp hroom
      exact Nat.not_lt.mp hfull
  · obtain ⟨e, he, rfl⟩ := List.mem_map.mp hname
    obtain ⟨he, hsame⟩ := List.mem_filter.mp he
    exact absurd (of_decide_eq_true hsame) (hnew e (mem_of_evictIfFull he))

theorem kept_or_lost_push (now : Int) (body : String) (buffer : List Entry) {e : Entry} (he : e ∈ buffer) :
    e ∈ (push dep now body buffer).1 ∨ ∃ l ∈ (push dep now body buffer).2, l.entry = e := by
  have hroom : e ∈ (evictIfFull dep buffer).1 ∨ ∃ l ∈ (evictIfFull dep buffer).2, l.entry = e := by
    unfold evictIfFull
    split
    · exact .inl he
    · rw [← List.take_append_drop (buffer.length - maxEntries + 1) buffer, List.mem_append] at he
      rcases he with hdropped | hkept
      · exact .inr ⟨_, List.mem_map_of_mem hdropped, rfl⟩
      · exact .inl hkept
  rcases hroom with hkept | ⟨l, hl, hentry⟩
  · -- a file of another name stays before or after the new one
    rcases lt_trichotomy e.name now with hlt | heq | hgt
    · exact .inl (List.mem_append_left _ (List.mem_filter.mpr ⟨hkept, decide_eq_true hlt⟩))
    · exact .inr ⟨_, List.mem_append_right _ (List.mem_map_of_mem (List.mem_filter.mpr ⟨hkept, decide_eq_true heq⟩)), rfl⟩
    · exact .inl (List.mem_append_right _ (List.mem_cons_of_mem _ (List.mem_filter.mpr ⟨hkept, decide_eq_true hgt⟩)))
  · exact .inr ⟨l, List.mem_append_left _ hl, hentry⟩

theorem justified_of_step (h : Unforgeable dep) {buffer : List Entry} {event : Event dep} (hmeets : event.Meets buffer)
    {l : Loss dep} (hl : l ∈ (step buffer event).2) : l.Justified := by
  rcases event with ⟨now, world⟩ | ⟨now, w, body⟩
  · exact justified_of_flush h hmeets hl
  · rw [step, sendOrBuffer] at hl
    split at hl
    · exact justified_of_push hmeets hl
    all_goals cases hl

theorem kept_or_lost_step (buffer : List Entry) (event : Event dep) {e : Entry} (he : e ∈ buffer) :
    e ∈ (step buffer event).1 ∨ ∃ l ∈ (step buffer event).2, l.entry = e := by
  rcases event with ⟨now, world⟩ | ⟨now, w, body⟩
  · exact kept_or_lost_flush now world buffer he
  · rw [step, sendOrBuffer]
    split
    · exact kept_or_lost_push now body buffer he
    all_goals exact .inl he

/-- In a run that meets the condition a payload leaves the buffer only when it was stored, cannot be stored any more, is too
old or makes room; any other is still there. -/
theorem losses_justified (dep : Deployment) (h : Unforgeable dep) (events : List (Event dep)) (buffer : List Entry)
    (hmeets : Meets events buffer) :
    (∀ l ∈ (run events buffer).2, l.Justified) ∧
      ∀ e ∈ buffer, e ∈ (run events buffer).1 ∨ ∃ l ∈ (run events buffer).2, l.entry = e := by
  induction events generalizing buffer with
  | nil => exact ⟨fun _ => (nomatch ·), fun e he => .inl he⟩
  | cons event events ih =>
      obtain ⟨hone, hrest⟩ := hmeets
      obtain ⟨hjustified, hkept⟩ := ih _ hrest
      refine ⟨fun l hl => ?_, fun e he => ?_⟩
      · rcases List.mem_append.mp hl with hstep | hlater
        · exact justified_of_step h hone hstep
        · exact hjustified l hlater
      · rcases kept_or_lost_step buffer event he with hstays | ⟨l, hl, hentry⟩
        · rcases hkept e hstays with hfinal | ⟨l, hl, hentry⟩
          · exact .inl hfinal
          · exact .inr ⟨l, List.mem_append_right _ hl, hentry⟩
        · exact .inr ⟨l, List.mem_append_left _ hl, hentry⟩

end Cycle

/-! ## A disabled host -/

/-- A payload on one database, which did not answer. -/
def samplePayload : TelemetryPayload where
  agent := ⟨"1.0.0", none⟩
  system := none
  snmpDevices := none
  databases := some [{
    collectedAt := ⟨"2025-09-16T05:20:00.000Z", 1758000000000⟩
    «instance» := ⟨"main", .postgresql, none, none, none, none, none, none⟩
    reachable := false
    metrics := ⟨none, none, none, none, none, none, none, none, none⟩
    slowQueries := [] }]

/-- A host that keeps its secret in the clear, and one body that the schema takes. -/
def sampleDeployment : Deployment where
  hmac := sampleHmac
  decryptSecret := fun payload _ => some payload
  decode := fun body => if body = "payload" then .payload samplePayload else .invalid
  toISOString := toString
  draw := fun _ => 0
  env := ⟨1048576, 300, 7⟩
  hosts := [⟨1, 1, "web-1", "ak_1", true, none, "s3cret", none, none⟩]
  client := ⟨"ak_1", "s3cret"⟩

/-- A request at the same time on both clocks. -/
def sampleWorld (enabled : Bool) : World sampleDeployment where
  now := 1758000000000
  clock := 1758000000
  enabled := fun _ => enabled
  store := ⟨Store.empty, drawn_empty _⟩
  path := .served

theorem authenticate_sample (enabled : Bool) (body : String) :
    authenticateAgent sampleDeployment.hmac sampleDeployment.decryptSecret (sampleWorld enabled).table
        ⟨some sampleDeployment.client.keyId, some (sign sampleDeployment.hmac sampleDeployment.client.secret
          (utf8 body.toList)
          (sampleWorld enabled).clock), body, (sampleWorld enabled).now, sampleDeployment.env.maxClockSkewSeconds⟩ =
      if enabled = true then .ok ⟨1, 1, "web-1", "ak_1", none, ["s3cret"]⟩ else .error hostDisabled := by
  have hclock : (sampleWorld enabled).clock = (1758000000 : Nat) := rfl
  have hfresh : |(1758000000000 : Int) - (1758000000 : Nat) * 1000| ≤ (300 : Nat) * 1000 := by decide
  exact authenticate_of_clock (by decide) rfl hclock ⟨by decide, by decide⟩ hfresh rfl (List.mem_singleton.mpr rfl) body

theorem stored_sample : Stored (sampleWorld true) "payload" := by
  have hsize : ¬ sampleDeployment.env.maxBodyBytes < (utf8 "payload".toList).length := by decide
  refine ⟨rfl, (stored_iff (drawn_empty _)).mpr ⟨Nat.not_lt.mp hsize, ?_, samplePayload, rfl, rfl⟩⟩
  rw [authenticate_sample, if_pos rfl]
  exact ⟨_, rfl⟩

/-- The payload, and a body that the schema refuses. -/
def sampleBuffer : List Entry := [⟨0, 0, "payload"⟩, ⟨1, 0, "oversight"⟩]

/-- While the host is disabled, a flush drops payloads that would be stored as soon as it is enabled. -/
theorem dropped_while_disabled :
    ∃ l ∈ (run [.flush 0 fun _ => sampleWorld false] sampleBuffer).2, ¬ l.Justified := by
  have hsize : ¬ sampleDeployment.env.maxBodyBytes < (utf8 "payload".toList).length := by decide
  have hrefused : (sampleWorld false).answer "payload" = .error hostDisabled := by
    rw [World.answer, post, if_neg hsize, authenticate_sample, if_neg Bool.false_ne_true]
  have hsend : send (sampleWorld false) "payload" = .hostDisabled := by
    rw [send]
    simp only [sampleWorld] at hrefused ⊢
    rw [hrefused]
    decide
  refine ⟨⟨⟨0, 0, "payload"⟩, .answered (sampleWorld false)⟩, ?_, ?_⟩
  · simp [sampleBuffer, run, step, flushBuffer, flushFrom, hsend, Entry.expired, maxAge, bufferFlushBatch]
  · rintro (⟨-, result, hok⟩ | hhopeless)
    · rw [hrefused] at hok
      cases hok
    · exact hhopeless (sampleWorld true) (Int.le_refl _) stored_sample

/-- With the host enabled the flush empties the buffer: the payload was stored, and the other body never can be. -/
theorem flushed_while_enabled :
    ∃ stored refused, run [.flush 0 fun _ => sampleWorld true] sampleBuffer = ([], [stored, refused]) ∧
      stored.Justified ∧ Stored (sampleWorld true) stored.entry.body ∧
      refused.Justified ∧ ¬ Stored (sampleWorld true) refused.entry.body := by
  have hmeets : Meets [.flush 0 fun _ => sampleWorld true] sampleBuffer := by
    refine ⟨fun i e _ _ => ?_, trivial⟩
    refine .inr ⟨⟨1758000000, rfl, ⟨by decide, by decide⟩, ?_⟩, fun _ _ _ => rfl, fun payload hpayload time htime => ?_⟩
    · show |(1758000000000 : Int) - (1758000000 : Nat) * 1000| ≤ (300 : Nat) * 1000
      decide
    · have hpayload : (if e.body = "payload" then Decoded.payload samplePayload else .invalid) = .payload payload := hpayload
      split at hpayload
      · obtain rfl := Decoded.payload.inj hpayload
        rw [List.mem_singleton.mp htime]
        show (1758000000000 : Int) ≤ 1758000000000 + (300 : Nat) * 1000
        decide
      · cases hpayload
  have hunforgeable : Unforgeable sampleDeployment := by
    intro host hhost _ secret now secrets hsecrets hsecret t body _
    obtain rfl := List.mem_singleton.mp hhost
    obtain rfl := Option.some.inj hsecrets
    exact List.mem_singleton.mp hsecret
  have hsend : send (sampleWorld true) "payload" = .stored := by
    obtain ⟨hserved, result, hok⟩ := stored_sample
    rw [send, hserved]
    dsimp only
    rw [hok]
    rfl
  have hsize : ¬ sampleDeployment.env.maxBodyBytes < (utf8 "oversight".toList).length := by decide
  have hinvalid : (sampleWorld true).answer "oversight" = .error invalidPayload := by
    rw [World.answer, post, if_neg hsize, authenticate_sample, if_pos rfl]
    rfl
  have hrefused : send (sampleWorld true) "oversight" = .bug := by
    rw [send]
    simp only [sampleWorld] at hinvalid ⊢
    rw [hinvalid]
    decide
  have hrun : run [.flush 0 fun _ => sampleWorld true] sampleBuffer =
      ([], [⟨⟨0, 0, "payload"⟩, .answered (sampleWorld true)⟩, ⟨⟨1, 0, "oversight"⟩, .answered (sampleWorld true)⟩]) := by
    simp [sampleBuffer, run, step, flushBuffer, flushFrom, hsend, hrefused, Entry.expired, maxAge, bufferFlushBatch]
  have hall := (losses_justified sampleDeployment hunforgeable _ _ hmeets).1
  rw [hrun] at hall
  refine ⟨_, _, hrun, hall _ List.mem_cons_self, stored_sample, hall _ (List.mem_cons_of_mem _ List.mem_cons_self), ?_⟩
  rintro ⟨-, result, hok⟩
  rw [hinvalid] at hok
  cases hok

end IkelyaneMonitor.Agent
