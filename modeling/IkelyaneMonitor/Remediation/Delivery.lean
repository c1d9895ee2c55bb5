import IkelyaneMonitor.Agent.Jobs
import IkelyaneMonitor.Remediation.Lifecycle
import IkelyaneMonitor.Telemetry.Ingest
import IkelyaneMonitor.Wire.Schema

/-!
# From the platform's guard-rails to the agent's own (`app/api/v1/remediation/next/route.ts`, `modules/servers/ingest.ts`)

* `report`, `readPolicy`, `recordHeartbeat` : how the policy of an agent gets to the columns of its host;
* `nextBody` : the text of the response that hands out an execution;
* `size_nextBody_le`, `unmarshal_nextBody` : what was accepted as an action fits the response and is read by the agent as
  it was written;
* `policies_agree` : what the guard-rails let through, the agent does not refuse; what it does not refuse, its own
  configuration allows, whatever the platform sends.

An identifier is written as `idText` writes it: `cuid()` gives letters and digits.
-/

namespace IkelyaneMonitor.Remediation
open Wire
open Telemetry (AgentInfo RemediationPolicy HealthStatus Digest)

/-! ## What the agent reports -/

/-- The policy in a payload: `allowedSha256` is there in one mode only, and left out when it is empty. -/
def report (policy : Agent.Remediation) : Json (List Char) Int :=
  let allowed := if policy.mode = "allowlist" then policy.allowedSha256 else []
  Json.record
    [("mode", some (.str policy.mode.toList)),
      ("allowedSha256", if allowed = [] then none else some (.arr (allowed.map fun sha => .str sha.toList)))]

def readMode (text : List Char) : Option RemediationMode :=
  if text = "disabled".toList then some .disabled
  else if text = "allowlist".toList then some .allowlist
  else if text = "any".toList then some .any
  else none

/-- `/^[0-9a-f]{64}$/`. -/
def isSha256Text (text : List Char) : Bool := text.length == 64 && text.all isLowerHex

/-- `agent.remediation` of the telemetry schema. -/
def remediationSchema : Schema Int :=
  .object
    [("mode", .string fun text => (readMode text).isSome),
      ("allowedSha256", .optional (.array 200 (.string isSha256Text)))]

def textOf : Json (List Char) Int → Option String
  | .str text => some (String.ofList text)
  | _ => none

/-- What the schema makes of it; a list that is not there is empty. -/
def readPolicy (j : Json (List Char) Int) : Option RemediationPolicy :=
  if remediationSchema.accepts (some j) then
    match j.get? "mode", j.get? "allowedSha256" with
    | some (.str mode), some (.arr items) => (readMode mode).map fun mode => ⟨mode, items.filterMap textOf⟩
    | some (.str mode), _ => (readMode mode).map fun mode => ⟨mode, []⟩
    | _, _ => none
  else none

/-- The columns of a host that a heartbeat writes, over those the guard-rails read. -/
structure HostRow extends MonitoredHost where
  status : HealthStatus
  lastSeenAt : Option Int
  agentVersion : Option String
  firstSeenAt : Option Int

def recordHeartbeat (firstSeenAt : Option Int) (agentInfo : AgentInfo) (now : Int) (host : HostRow) : HostRow :=
  { host with
    status := .up
    lastSeenAt := some now
    agentVersion := some agentInfo.version
    -- an agent that reports no policy is not accepting any
    remediationMode := some ((agentInfo.remediation.map RemediationPolicy.mode).getD .disabled)
    remediationAllowlist :=
      match agentInfo.remediation with
      | some ⟨.allowlist, allowed⟩ => allowed
      | _ => []
    firstSeenAt := if firstSeenAt.isSome then host.firstSeenAt else some now }

theorem mode_of_readMode {text : String} {mode : RemediationMode} (h : readMode text.toList = some mode) :
    (mode = .any → text = "any") ∧ (mode = .allowlist → text = "allowlist") := by
  unfold readMode at h
  split_ifs at h with hdisabled hallowlist hany
  · cases h
    exact ⟨(nomatch ·), (nomatch ·)⟩
  · cases h
    exact ⟨(nomatch ·), fun _ => String.toList_inj.mp hallowlist⟩
  · cases h
    exact ⟨fun _ => String.toList_inj.mp hany, (nomatch ·)⟩

theorem filterMap_textOf (texts : List String) :
    (texts.map fun text => (Json.str text.toList : Json (List Char) Int)).filterMap textOf = texts := by
  rw [List.filterMap_map]
  conv_rhs => rw [← List.filterMap_some (l := texts)]
  refine List.filterMap_congr fun text _ => ?_
  simp [textOf]

/-- The list an agent reports. -/
def reported (policy : Agent.Remediation) : List String := if policy.mode = "allowlist" then policy.allowedSha256 else []

theorem get?_mode_report (policy : Agent.Remediation) :
    (report policy).get? "mode" = some (.str policy.mode.toList) := by
  rw [report, Json.get?_record (by simp)]
  rfl

theorem get?_allowedSha256_report (policy : Agent.Remediation) :
    (report policy).get? "allowedSha256" =
      if reported policy = [] then none else some (.arr ((reported policy).map fun sha => .str sha.toList)) := by
  rw [report, Json.get?_record (by simp)]
  rfl

theorem accepts_report (policy : Agent.Remediation) :
    remediationSchema.accepts (some (report policy)) = true ↔
      (readMode policy.mode.toList).isSome = true ∧ (reported policy).length ≤ 200 ∧
        ∀ sha ∈ reported policy, isSha256Text sha.toList = true := by
  have hfields : remediationSchema.accepts (some (report policy)) = Schema.acceptsFields
      [("mode", .string fun text => (readMode text).isSome), ("allowedSha256", .optional (.array 200 (.string isSha256Text)))]
      (report policy) := by
    rw [remediationSchema, report, Json.record, Schema.accepts]
  rw [hfields, Schema.acceptsFields_iff, List.forall_mem_cons, List.forall_mem_singleton, get?_mode_report,
    get?_allowedSha256_report, Schema.accepts_str, Schema.accepts_optional]
  refine and_congr Iff.rfl ?_
  split
  · rename_i hempty
    simp [hempty]
  · rw [Option.all_some, Schema.accepts_arr, List.length_map]
    simp only [List.forall_mem_map, Schema.accepts_str]

/-- What the columns of a host say of the policy that was reported to it. -/
theorem readPolicy_report {policy : Agent.Remediation} {stored : RemediationPolicy}
    (h : readPolicy (report policy) = some stored) :
    (stored.mode = .any → policy.mode = "any") ∧
      (stored.mode = .allowlist → policy.mode = "allowlist" ∧ stored.allowedSha256 = policy.allowedSha256) := by
  have hlist : policy.mode = "allowlist" → reported policy = policy.allowedSha256 := fun hm => if_pos hm
  unfold readPolicy at h
  split at h
  · rw [get?_mode_report, get?_allowedSha256_report] at h
    by_cases hempty : reported policy = []
    · rw [if_pos hempty] at h
      obtain ⟨mode, hread, rfl⟩ := Option.map_eq_some_iff.mp h
      have hm := mode_of_readMode hread
      exact ⟨hm.1, fun hlisted => ⟨hm.2 hlisted, by rw [← hlist (hm.2 hlisted), hempty]⟩⟩
    · rw [if_neg hempty] at h
      simp only at h
      obtain ⟨mode, hread, rfl⟩ := Option.map_eq_some_iff.mp h
      have hm := mode_of_readMode hread
      exact ⟨hm.1, fun hlisted => ⟨hm.2 hlisted, by rw [filterMap_textOf, hlist (hm.2 hlisted)]⟩⟩
  · cases h

theorem isSha256Text_of_isSha256 {sha : String} (h : Agent.isSha256 sha = true) : isSha256Text sha.toList = true := by
  simp only [Agent.isSha256, Bool.and_eq_true, beq_iff_eq] at h
  obtain ⟨hsize, hhex⟩ := h
  have hascii : ∀ c ∈ sha.toList, c.toNat < 128 := fun c hc => lt_of_isLowerHex (List.all_eq_true.mp hhex c hc)
  rw [utf8ByteSize_eq, length_utf8_of_ascii hascii] at hsize
  rw [isSha256Text, hsize, hhex]
  rfl

/-- A policy that was loaded is stored as reported, unless its list is longer than the schema takes. -/
theorem stored_of_load {unmarshalDatabases : String → Option (List Agent.Database)} {source : Agent.Source}
    {cfg : Agent.Config} (hload : Agent.load unmarshalDatabases source = .ok cfg)
    (hcount : (reported cfg.remediation).length ≤ 200) :
    ∃ stored, readPolicy (report cfg.remediation) = some stored := by
  obtain ⟨hmode, -, hshas⟩ := Agent.remediation_of_load hload
  have hread : ∃ mode, readMode cfg.remediation.mode.toList = some mode := by
    rcases hmode with h | h | h <;> rw [h]
    · exact ⟨.disabled, rfl⟩
    · exact ⟨.any, rfl⟩
    · exact ⟨.allowlist, rfl⟩
  have hlist : ∀ sha ∈ reported cfg.remediation, isSha256Text sha.toList = true := by
    intro sha hsha
    unfold reported at hsha
    split at hsha
    · exact isSha256Text_of_isSha256 (hshas sha hsha)
    · cases hsha
  obtain ⟨mode, hmode⟩ := hread
  have haccepts := (accepts_report cfg.remediation).mpr ⟨by rw [hmode]; rfl, hcount, hlist⟩
  rw [readPolicy, if_pos haccepts, get?_mode_report, get?_allowedSha256_report]
  by_cases hempty : reported cfg.remediation = []
  · rw [if_pos hempty]
    simp [hmode]
  · rw [if_neg hempty]
    simp [hmode]

/-! ## The response that hands out an execution -/

/-- `runtime.toLowerCase()`. -/
def ScriptRuntime.text : ScriptRuntime → String
  | .bash => "bash"
  | .powershell => "powershell"
  | .python => "python"

section Body
variable (idText : Nat → String)

def argsObject (args : List (String × String)) : Json (List Char) Int :=
  .obj (args.map fun arg => (arg.1.toList, .str arg.2.toList))

def DeliveredExecution.fields (job : DeliveredExecution) : List (String × Option (Json (List Char) Int)) :=
  [("id", some (.str (idText job.id).toList)), ("runtime", some (.str job.runtime.text.toList)),
    ("script", some (.str job.script.toList)), ("sha256", some (.str job.sha256.toList)),
    ("args", some (argsObject job.args)), ("timeoutSec", some (.num job.timeoutSec)),
    ("incidentId", some (match job.incidentId with
      | some id => .str (idText id).toList
      | none => .null))]

/-- `JSON.stringify({ execution })`. -/
def nextBody (job : Option DeliveredExecution) : String :=
  String.ofList (render Quoting.plain (Json.record [("execution", some (match job with
    | some job => Json.record (job.fields idText)
    | none => .null))]))

/-- The job an agent makes of it. -/
def DeliveredExecution.job (job : DeliveredExecution) : Agent.Job where
  id := idText job.id
  runtime := job.runtime.text
  script := job.script
  sha256 := job.sha256
  args := job.args
  timeoutSec := job.timeoutSec
  incidentId := job.incidentId.map idText

theorem fillMap_argsObject (args : List (String × String)) : Agent.fillMap (some (argsObject args)) = some args := by
  rw [argsObject, Agent.fillMap]
  induction args with
  | nil => rfl
  | cons arg args ih =>
      rw [List.map_cons, List.mapM_cons, ih]
      simp [Agent.fillEntry, Agent.fillString]

theorem unmarshalJob_fields (job : DeliveredExecution) (htimeout : job.timeoutSec < 2 ^ 63) :
    Agent.unmarshalJob (Json.record (job.fields idText)) = some (job.job idText) := by
  have hget : ∀ name, Json.get? name (Json.record (job.fields idText)) = ((job.fields idText).lookup name).join :=
    Json.get?_record (by simp [DeliveredExecution.fields])
  have hargs := fillMap_argsObject job.args
  have hint : Agent.fillInt (some (.num (job.timeoutSec : Int))) = some (job.timeoutSec : Int) := by
    rw [Agent.fillInt, if_pos]
    omega
  have hincident : Agent.fillPointer (some (match job.incidentId with
      | some id => .str (idText id).toList
      | none => .null)) = some (job.incidentId.map idText) := by
    cases job.incidentId <;> simp [Agent.fillPointer]
  show Agent.fillJob (fun name => Json.get? name (Json.record (job.fields idText))) = _
  simp only [hget]
  simp only [Agent.fillJob, DeliveredExecution.fields, List.lookup_cons, String.reduceBEq, Option.join_some, hargs, hint,
    hincident, Agent.fillString, String.ofList_toList]
  rfl

/-- The agent reads the response as it was written. -/
theorem unmarshal_nextBody (job : DeliveredExecution) (htimeout : job.timeoutSec < 2 ^ 63) :
    (parse (nextBody idText (some job)).toList).bind Agent.unmarshalNext = some (some (job.job idText)) := by
  have hjob := unmarshalJob_fields idText job htimeout
  have hplain : Quoting.plain.text = id := rfl
  rw [nextBody, String.toList_ofList, parse_render, hplain, Json.map_id, Option.bind_some]
  show Agent.fillExecution (Json.get? "execution" (Json.record [("execution", some (Json.record (job.fields idText)))])) = _
  rw [Json.get?_record (by simp)]
  show (Agent.unmarshalJob (Json.record (job.fields idText))).map some = _
  rw [hjob]
  rfl

/-! ## The size of the response -/

/-- What the sizes of a response follow from. -/
structure DeliveredExecution.Bounded (job : DeliveredExecution) : Prop where
  script : job.script.toList.length ≤ maxScriptBytes
  sha256 : job.sha256.toList.length ≤ 64
  argCount : job.args.length ≤ maxArgs
  args : ∀ arg ∈ job.args, arg.1.toList.length ≤ 64 ∧ arg.2.toList.length ≤ 1000
  timeoutSec : job.timeoutSec ≤ 3600

theorem size_text_le {text : List Char} {n : Nat} (h : text.length ≤ n) :
    (utf8 (render Quoting.plain (.str text))).length ≤ 6 * n + 2 := by
  have hplain := length_utf8_plain_le text
  rw [length_utf8_str]
  omega

theorem size_argsObject_le {args : List (String × String)} (hcount : args.length ≤ maxArgs)
    (h : ∀ arg ∈ args, arg.1.toList.length ≤ 64 ∧ arg.2.toList.length ≤ 1000) :
    (utf8 (render Quoting.plain (argsObject args))).length ≤ 127802 := by
  have hsum : fieldsSize Quoting.plain (args.map fun arg => (arg.1.toList, Json.str arg.2.toList)) ≤ args.length * 6390 := by
    rw [← List.length_map (fun arg : String × String => (arg.1.toList, (Json.str arg.2.toList : Json (List Char) Int)))]
    apply fieldsSize_le
    intro f hf
    obtain ⟨arg, harg, rfl⟩ := List.mem_map.mp hf
    have hname := length_utf8_plain_le arg.1.toList
    have hvalue := size_text_le (h arg harg).2
    have hlength := (h arg harg).1
    simp only [keyText]
    omega
  have hmax : maxArgs = 20 := rfl
  have hle := length_utf8_obj_le Quoting.plain (args.map fun arg => (arg.1.toList, Json.str arg.2.toList))
  rw [argsObject]
  omega

theorem size_nextBody_le (hid : ∀ id, (idText id).toList.length ≤ 64) {job : DeliveredExecution} (h : job.Bounded) :
    (utf8 (nextBody idText (some job)).toList).length ≤ Agent.maxJobResponse := by
  have hidText := fun id => size_text_le (hid id)
  have hscript := size_text_le h.script
  have hsha := size_text_le h.sha256
  have hargs := size_argsObject_le h.argCount h.args
  have hname : job.runtime.text.toList.length ≤ 10 := by cases job.runtime <;> decide
  have hruntime := size_text_le hname
  have htimeout : (utf8 (render Quoting.plain (.num (job.timeoutSec : Int)))).length ≤ 4 := by
    rw [length_utf8_num]
    exact (Nat.length_repr_le_iff (by decide)).mpr (Nat.lt_of_le_of_lt h.timeoutSec (by decide))
  have hincident : (utf8 (render Quoting.plain (match job.incidentId with
      | some id => .str (idText id).toList
      | none => .null))).length ≤ 386 := by
    cases job.incidentId with
    | some id => exact hidText id
    | none =>
        simp only [render]
        decide
  have hmax : Agent.maxJobResponse = 1048576 := rfl
  have hbytes : maxScriptBytes = 65536 := rfl
  have hjob := length_utf8_record Quoting.plain "id" (.str (idText job.id).toList) (job.fields idText).tail
  have hbody := length_utf8_record Quoting.plain "execution" (Json.record (job.fields idText)) []
  have hid := hidText job.id
  rw [nextBody, String.toList_ofList]
  simp only [recordSize, fieldSize, DeliveredExecution.fields, List.tail_cons, List.map_cons, List.map_nil, List.sum_cons,
    List.sum_nil]
    at hjob hbody ⊢
  have hkeys : (utf8 (keyText "execution".toList)).length + (utf8 (keyText "id".toList)).length +
      (utf8 (keyText "runtime".toList)).length + (utf8 (keyText "script".toList)).length +
      (utf8 (keyText "sha256".toList)).length + (utf8 (keyText "args".toList)).length +
      (utf8 (keyText "timeoutSec".toList)).length + (utf8 (keyText "incidentId".toList)).length = 54 := by decide
  simp only [hbody, hjob]
  omega

end Body

/-! ## What was accepted as an action -/

/-- `createHash("sha256").update(script, "utf8").digest("hex")`. -/
def scriptSha256 (digest : List UInt8 → Digest) (script : String) : String :=
  String.ofList (hexEncode (digest (utf8 script.toList)).1)

theorem length_of_isArgName {name : String} (h : isArgName name = true) : name.toList.length ≤ 64 := by
  unfold isArgName at h
  split at h
  · cases h
  · rename_i c cs hname
    simp only [Bool.and_eq_true, decide_eq_true_eq] at h
    rw [hname, List.length_cons]
    omega

theorem of_validate {input : RemediationActionInput} (h : validate input = none) :
    input.scriptBody.toList.length ≤ maxScriptBytes ∧ input.args.length ≤ maxArgs ∧
      ∀ arg ∈ input.args, isArgName arg.1 = true ∧ arg.2.toList.length ≤ 1000 := by
  unfold validate at h
  split at h
  · cases h
  rename_i hscript
  split at h
  · cases h
  rename_i hargs
  rw [not_or, not_or, Nat.not_lt] at hscript
  rw [not_or, Nat.not_lt, Bool.not_eq_true, List.any_eq_false] at hargs
  refine ⟨?_, hargs.1, ?_⟩
  · have hbytes := length_le_utf8 input.scriptBody.toList
    rw [utf8ByteSize_eq] at hscript
    omega
  · intro arg harg
    have hone := hargs.2 arg harg
    simp only [Bool.or_eq_true, Bool.not_eq_true', decide_eq_true_eq, not_or, Nat.not_lt, Bool.not_eq_false] at hone
    have hunits : arg.2.toList.length ≤ Text.utf16Length arg.2 := length_le_units arg.2.toList
    exact ⟨hone.1.1, Nat.le_trans hunits hone.1.2⟩

/-- The row of an action as it was last edited, enabled or not. -/
def RemediationActionInput.Stored (input : RemediationActionInput) (action : RemediationAction) : Prop :=
  { action with enabled := true } = input.row action.orgId action.id

section Delivered
variable {digest : List UInt8 → Digest} {input : RemediationActionInput} {d : NewExecution} {createdAt : Int} {id : Nat}
  {e : RemediationExecution}

/-- What an execution hands out is what was accepted, whatever became of the execution and of the action since. -/
theorem delivered_eq (hstored : input.Stored d.action) (he : Moves (d.row (scriptSha256 digest) createdAt id) e) :
    e.delivered.script = input.scriptBody ∧ e.delivered.sha256 = scriptSha256 digest input.scriptBody ∧
      e.delivered.timeoutSec = input.timeoutSec ∧
      e.delivered.args = input.args.filter fun arg => isArgName arg.1 := by
  have hsnapshot := he.snapshot
  have hscript : d.action.scriptBody = input.scriptBody := congrArg RemediationAction.scriptBody hstored
  have hargs : d.action.args = some (argsJson input.args) := congrArg RemediationAction.args hstored
  have htimeout : d.action.timeoutSec = input.timeoutSec := congrArg RemediationAction.timeoutSec hstored
  simp only [RemediationExecution.snapshot, NewExecution.row, Snapshot.mk.injEq] at hsnapshot
  obtain ⟨-, hbody, hsha, hjson, hsec⟩ := hsnapshot
  refine ⟨?_, ?_, ?_, ?_⟩
  · rw [RemediationExecution.delivered, hbody, hscript]
  · rw [RemediationExecution.delivered, hsha, hscript]
  · rw [RemediationExecution.delivered, hsec, htimeout]
  · rw [RemediationExecution.delivered, hjson, readArgs_argsJson, hargs, readArgs_of_argsJson]

theorem bounded_delivered (hvalid : validate input = none) (htimeout : input.timeoutSec ≤ 3600)
    (hstored : input.Stored d.action) (he : Moves (d.row (scriptSha256 digest) createdAt id) e) : e.delivered.Bounded := by
  obtain ⟨hscript, hcount, hargs⟩ := of_validate hvalid
  obtain ⟨hbody, hsha, hsec, hlist⟩ := delivered_eq hstored he
  refine ⟨?_, ?_, ?_, ?_, ?_⟩
  · rw [hbody]
    exact hscript
  · rw [hsha, scriptSha256, String.toList_ofList, length_hexEncode, (digest _).2]
  · rw [hlist]
    exact Nat.le_trans (List.length_filter_le _ _) hcount
  · intro arg harg
    rw [hlist] at harg
    have hone := hargs arg (List.mem_filter.mp harg).1
    exact ⟨length_of_isArgName hone.1, hone.2⟩
  · rw [hsec]
    exact htimeout

end Delivered

theorem seconds_le {n : Nat} (h : 1 ≤ n ∧ n ≤ 3600) : 0 < (n : Int) ∧ Agent.seconds n ≤ Agent.maxTimeout := by
  have hmax : Agent.maxTimeout = 3600 * 10 ^ 9 := by decide
  have hsmall : Agent.seconds n = n * 10 ^ 9 := by
    unfold Agent.seconds
    apply Int.bmod_eq_of_le <;> omega
  rw [hmax, hsmall]
  omega

/-- A host whose columns hold the policy of its agent lets through only what the agent lets through. -/
theorem allowed_of_accepting {policy : Agent.Remediation} {stored : RemediationPolicy}
    (hreport : readPolicy (report policy) = some stored) (firstSeenAt : Option Int) (version : String) (seenAt : Int)
    (row : HostRow) {sha : String}
    (h : (recordHeartbeat firstSeenAt ⟨version, some stored⟩ seenAt row).remediationMode = some .any ∨
      (recordHeartbeat firstSeenAt ⟨version, some stored⟩ seenAt row).remediationMode = some .allowlist ∧
        sha ∈ (recordHeartbeat firstSeenAt ⟨version, some stored⟩ seenAt row).remediationAllowlist) :
    (policy.mode = "any" ∨ policy.mode = "allowlist") ∧ (policy.mode = "allowlist" → sha ∈ policy.allowedSha256) := by
  obtain ⟨mode, allowed⟩ := stored
  obtain ⟨hany, hallowlist⟩ := readPolicy_report hreport
  rcases h with hmode | ⟨hmode, hsha⟩
  · have hpolicy := hany (Option.some.inj hmode)
    refine ⟨Or.inl hpolicy, ?_⟩
    intro hother
    rw [hpolicy] at hother
    exact absurd hother (by decide)
  · obtain ⟨hpolicy, heq⟩ := hallowlist (Option.some.inj hmode)
    have hlist : mode = .allowlist := Option.some.inj hmode
    subst hlist
    refine ⟨Or.inr hpolicy, fun _ => ?_⟩
    rw [← heq]
    exact hsha

/-- Platform and agent agree on which jobs run, for every policy of an agent. What the guard-rails of the platform let
through for a host whose columns hold the policy reaches the agent whole and is not refused there; what is not refused, the
policy allows, whatever was sent. -/
theorem policies_agree (digest : List UInt8 → Digest) (quote : String → String) (idText : Nat → String)
    (hid : ∀ id, Agent.safeId (idText id) = true) (policy : Agent.Remediation) :
    (∀ (stored : RemediationPolicy), readPolicy (report policy) = some stored →
      ∀ (input : RemediationActionInput), validate input = none → 1 ≤ input.timeoutSec ∧ input.timeoutSec ≤ 3600 →
      ∀ (d : NewExecution) (createdAt : Int) (id : Nat) (e : RemediationExecution), input.Stored d.action →
        Moves (d.row (scriptSha256 digest) createdAt id) e →
      ∀ (firstSeenAt : Option Int) (version : String) (seenAt : Int) (row : HostRow) (action : GuardAction)
        (recent : List RecentExecution) (now : Int),
        guardrailViolation action
          (recordHeartbeat firstSeenAt ⟨version, some stored⟩ seenAt row).guardHost e.scriptSha256 recent now = none →
        (utf8 (nextBody idText (some e.delivered)).toList).length ≤ Agent.maxJobResponse ∧
        ∃ job, (parse (decode (utf8 (nextBody idText (some e.delivered)).toList))).bind Agent.unmarshalNext =
          some (some job) ∧
          Agent.refusal digest quote policy job = none) ∧
    ∀ job : Agent.Job,
      (policy.mode = "allowlist" → Agent.refusal digest quote policy job = none →
        Agent.sha256Hex digest job.script ∈ policy.allowedSha256) ∧
      (policy.mode = "disabled" → Agent.refusal digest quote policy job ≠ none) := by
  constructor
  · intro stored hreport input hvalid htimeout d createdAt id e hstored he firstSeenAt version seenAt row action recent
      now hguard
    obtain ⟨hscript, hsha, hsec, hlist⟩ := delivered_eq hstored he
    have hbounded := bounded_delivered hvalid htimeout.2 hstored he
    have hallowed := allowed_of_accepting hreport firstSeenAt version seenAt row (accepting_of_guardrailViolation hguard)
    have hlt : e.delivered.timeoutSec < 2 ^ 63 := Nat.lt_of_le_of_lt hbounded.timeoutSec (by decide)
    refine ⟨size_nextBody_le idText (fun id => (Agent.length_of_safeId (hid id)).2) hbounded, e.delivered.job idText, ?_, ?_⟩
    · rw [decode_utf8]
      exact unmarshal_nextBody idText e.delivered hlt
    · rw [Agent.refusal_eq_none_iff]
      have hdigest : Agent.sha256Hex digest e.delivered.script = e.delivered.sha256 := by
        rw [hscript, hsha]
        rfl
      refine ⟨hid e.id, hdigest, hallowed.1, ?_, ?_, ?_⟩
      · intro hmode
        show Agent.sha256Hex digest e.delivered.script ∈ _
        rw [hdigest]
        exact hallowed.2 hmode
      · show 0 < (e.delivered.timeoutSec : Int) ∧ Agent.seconds e.delivered.timeoutSec ≤ Agent.maxTimeout
        rw [hsec]
        exact seconds_le htimeout
      · intro arg harg
        have hmem : arg ∈ e.delivered.args := harg
        rw [hlist] at hmem
        exact (List.mem_filter.mp hmem).2
  · intro job
    refine ⟨fun hmode h => (Agent.allowed_of_refusal h).2 hmode, fun hmode h => (Agent.allowed_of_refusal h).1 hmode⟩

/-- SHA-256 of the script `uptime`. -/
def uptimeDigest : Digest :=
  ⟨[221, 41, 28, 214, 41, 75, 175, 239, 42, 126, 156, 55, 142, 179, 32, 232, 113, 152, 214, 218, 226, 20, 39, 42, 221, 181,
    105, 119, 87, 80, 200, 2], rfl⟩

def uptimePolicy : Agent.Remediation where
  mode := "allowlist"
  allowedSha256 := ["dd291cd6294bafef2a7e9c378eb320e87198d6dae214272addb569775750c802"]
  workDir := "/var/lib/ikelyane-agent/remediation"

def uptimeInput : RemediationActionInput where
  runtime := .bash
  scriptBody := "uptime"
  args := [("SERVICE", "nginx")]
  timeoutSec := 60
  targetHostId := none
  allowedOsFamilies := []
  requiresApproval := false
  cooldownSec := 300
  maxRunsPerHour := 4

def uptimeExecution : NewExecution where
  input := ⟨1, 1, some 1, .manual, none, some 1, false⟩
  action := uptimeInput.row 1 1
  hostId := some 1
  violation := none
  now := 0

def uptimeHost : HostRow := ⟨⟨1, 1, true, .linux, none, []⟩, .unknown, none, none, none⟩

theorem policies_agree_uptime :
    (utf8 (nextBody (fun _ => "cm0uptime0000000000000001")
      (some (uptimeExecution.row (scriptSha256 fun _ => uptimeDigest) 0 1).delivered)).toList).length ≤ Agent.maxJobResponse ∧
    ∃ job, (parse (decode (utf8 (nextBody (fun _ => "cm0uptime0000000000000001")
        (some (uptimeExecution.row (scriptSha256 fun _ => uptimeDigest) 0 1).delivered)).toList))).bind
          Agent.unmarshalNext = some (some job) ∧
      Agent.refusal (fun _ => uptimeDigest) id uptimePolicy job = none :=
  (policies_agree (fun _ => uptimeDigest) id (fun _ => "cm0uptime0000000000000001") (fun _ => by decide) uptimePolicy).1
    ⟨.allowlist, uptimePolicy.allowedSha256⟩ (by rfl) uptimeInput (by decide) (by decide) uptimeExecution 0 1 _ rfl
    Relation.ReflTransGen.refl none "1.4.0" 0 uptimeHost uptimeExecution.action.guardAction [] 0 (by decide)

end IkelyaneMonitor.Remediation
