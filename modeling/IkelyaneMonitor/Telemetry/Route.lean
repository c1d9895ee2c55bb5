import IkelyaneMonitor.Telemetry.Ingest

/-!
# `POST /api/v1/telemetry` (`app/api/v1/telemetry/route.ts`)

* `post` : the handler, in the order of its checks;
* `stored_iff` : what a request that the agent signed must meet to be stored.

The decoding of the body (`JSON.parse`, then the schema) is a parameter here: a function of the text alone, whatever it
accepts.
-/

namespace IkelyaneMonitor.Telemetry
open Wire

/-- The settings of `lib/env.ts` that the handler reads. -/
structure Env where
  maxBodyBytes : Nat
  maxClockSkewSeconds : Nat
  maxBackfillDays : Nat
  deriving DecidableEq, Repr

def Env.context (env : Env) (now : Int) : IngestContext :=
  ⟨now, env.maxBackfillDays * 24 * 60 * 60 * 1000, env.maxClockSkewSeconds * 1000⟩

/-- What a body turns out to be. -/
inductive Decoded where
  | notJson
  | invalid
  | payload (payload : TelemetryPayload)

def payloadTooLarge (env : Env) : HttpError :=
  ⟨413, .payloadTooLarge, "Body exceeds " ++ env.maxBodyBytes.repr ++ " bytes."⟩
def invalidJson : HttpError := ⟨400, .invalidJson, "The request body is not valid JSON."⟩
def invalidPayload : HttpError := ⟨422, .invalidPayload, "The payload does not match the telemetry schema."⟩

section Handler
variable (hmac : (key message : List UInt8) → Digest) (decryptSecret : (payload aad : String) → Option String)
  (decode : String → Decoded) (toISOString : Int → String) (draw : Source → Nat) (env : Env)

/-- A request of an agent declares the length it has, so that the check of the header and the one of the body are one. -/
def post (hosts : List AgentHost) (keyId : Option String) (signature : Option (List Char)) (rawBody : String) (now : Int)
    (s : Store) : Except HttpError (Store × IngestResult) :=
  if env.maxBodyBytes < (utf8 rawBody.toList).length then .error (payloadTooLarge env)
  else
    match authenticateAgent hmac decryptSecret hosts ⟨keyId, signature, rawBody, now, env.maxClockSkewSeconds⟩ with
    | .error e => .error e
    | .ok agent =>
      match decode rawBody with
      | .notJson => .error invalidJson
      | .invalid => .error invalidPayload
      | .payload payload => ingestTelemetry toISOString draw agent payload (env.context now) s

variable {hmac decryptSecret decode toISOString draw env} {hosts : List AgentHost} {s : Store}

/-- A request is stored exactly when its size, its signature, its form and its times are right. -/
theorem stored_iff (hs : Drawn draw s) {keyId : Option String} {signature : Option (List Char)} {rawBody : String}
    {now : Int} :
    (∃ result, post hmac decryptSecret decode toISOString draw env hosts keyId signature rawBody now s = .ok result) ↔
      (utf8 rawBody.toList).length ≤ env.maxBodyBytes ∧
      (∃ agent, authenticateAgent hmac decryptSecret hosts ⟨keyId, signature, rawBody, now, env.maxClockSkewSeconds⟩ =
        .ok agent) ∧
      ∃ payload, decode rawBody = .payload payload ∧ payload.inWindow (env.context now) = true := by
  unfold post
  constructor
  · rintro ⟨result, h⟩
    split at h
    · cases h
    rename_i hsize
    split at h
    · cases h
    rename_i agent hagent
    split at h
    · cases h
    · cases h
    · rename_i payload hdecode
      exact ⟨Nat.not_lt.mp hsize, ⟨agent, hagent⟩, payload, hdecode, inWindow_of_ingestTelemetry toISOString h⟩
  · rintro ⟨hsize, ⟨agent, hagent⟩, payload, hdecode, hwindow⟩
    obtain ⟨result, hok, -, -⟩ := ingestTelemetry_of_inWindow toISOString agent hs hwindow
    rw [if_neg (Nat.not_lt.mpr hsize)]
    simp only [hagent, hdecode]
    exact ⟨_, hok⟩

end Handler

/-! ## The times of a payload -/

def TelemetryPayload.times (payload : TelemetryPayload) : List Timestamp :=
  (payload.system.map SystemMetrics.collectedAt).toList ++
    (payload.snmpDevices.getD []).map SnmpDevice.collectedAt ++
    (payload.databases.getD []).flatMap fun db => db.collectedAt :: db.slowQueries.map SlowQuery.capturedAt

theorem inWindow_iff (payload : TelemetryPayload) (ctx : IngestContext) :
    payload.inWindow ctx = true ↔ ∀ time ∈ payload.times, ctx.covers time = true := by
  have hdatabase : ∀ db : DatabaseMetric, db.inWindow ctx = true ↔
      ∀ time ∈ db.collectedAt :: db.slowQueries.map SlowQuery.capturedAt, ctx.covers time = true := by
    intro db
    simp [DatabaseMetric.inWindow]
  simp only [TelemetryPayload.inWindow, TelemetryPayload.times, Bool.and_eq_true, List.all_eq_true, hdatabase,
    List.mem_append, List.mem_flatMap, or_imp, forall_and]
  refine and_congr (and_congr ?_ ?_) ?_
  · cases payload.system <;> simp
  · simp
  · constructor
    · intro h time hmem
      obtain ⟨db, hdb, htime⟩ := hmem
      exact h db hdb time htime
    · intro h db hdb time htime
      exact h time ⟨db, hdb, htime⟩

end IkelyaneMonitor.Telemetry
