import IkelyaneMonitor.Agent.Jobs

/-!
# Running a job (`agent/internal/remediation/remediation.go`, `agent/internal/remediation/client.go`)

* `CappedBuffer` : what is kept of an output; `text_writes` : what it says after any writes;
* `run` : the outcome of a job, with what the operating system did as an argument, `Process`;
* `Result.json`, `reportBody` : the body of `Client.Report`;
* `weight`, `length_reportBody` : how many bytes `encoding/json` takes for it.

Outputs are bytes. The environment that a script gets is read by nothing here.
-/

namespace IkelyaneMonitor.Agent.Run
open Wire Telemetry

/-! ## Capped outputs -/

def maxOutputBytes : Nat := 64 * 1024

structure CappedBuffer where
  buf : List UInt8
  truncated : Bool
  deriving DecidableEq, Repr

namespace CappedBuffer

def empty : CappedBuffer := ⟨[], false⟩

def write (c : CappedBuffer) (p : List UInt8) : CappedBuffer :=
  let room := maxOutputBytes - c.buf.length
  if 0 < room then
    if room < p.length then ⟨c.buf ++ p.take room, true⟩ else ⟨c.buf ++ p, c.truncated⟩
  else if 0 < p.length then ⟨c.buf, true⟩
  else c

/-- `strings.ToValidUTF8(s, "")`. -/
def validUtf8 (bytes : List UInt8) : List UInt8 := utf8 ((runes bytes).filterMap id)

def notice : List UInt8 := utf8 "\n[output truncated]".toList

/-- `String`. -/
def text (c : CappedBuffer) : List UInt8 := if c.truncated then validUtf8 c.buf ++ notice else c.buf

end CappedBuffer

/-- What is reported of an output: all of it, or the characters in its first bytes and a notice. -/
def kept (output : List UInt8) : List UInt8 :=
  if output.length ≤ maxOutputBytes then output
  else CappedBuffer.validUtf8 (output.take maxOutputBytes) ++ CappedBuffer.notice

/-- A buffer after some output. -/
def CappedBuffer.Holds (c : CappedBuffer) (output : List UInt8) : Prop :=
  c.buf = output.take maxOutputBytes ∧ c.truncated = decide (maxOutputBytes < output.length)

theorem holds_empty : CappedBuffer.empty.Holds [] := ⟨rfl, rfl⟩

theorem CappedBuffer.Holds.write {c : CappedBuffer} {output : List UInt8} (h : c.Holds output) (p : List UInt8) :
    (c.write p).Holds (output ++ p) := by
  obtain ⟨hbuf, htruncated⟩ := h
  have hlength : c.buf.length = min maxOutputBytes output.length := by rw [hbuf, List.length_take]
  unfold CappedBuffer.write CappedBuffer.Holds
  simp only
  split
  · rename_i hroom
    have htake : output.take maxOutputBytes = output := List.take_of_length_le (by omega)
    have hsize : c.buf.length = output.length := by omega
    rw [htake] at hbuf
    split
    · rename_i hlong
      refine ⟨?_, ?_⟩
      · rw [hbuf, List.take_append, List.take_of_length_le (by omega : output.length ≤ maxOutputBytes)]
      · rw [List.length_append]
        symm
        exact decide_eq_true (by omega)
    · rename_i hshort
      refine ⟨?_, ?_⟩
      · rw [hbuf, List.take_of_length_le]
        rw [List.length_append]
        omega
      · rw [htruncated, List.length_append]
        exact decide_eq_decide.mpr (by omega)
  · rename_i hroom
    have hfull : maxOutputBytes ≤ output.length := by omega
    split
    · rename_i hmore
      refine ⟨?_, ?_⟩
      · rw [hbuf, List.take_append_of_le_length hfull]
      · rw [List.length_append]
        symm
        exact decide_eq_true (by omega)
    · rename_i hempty
      have hp : p = [] := List.length_eq_zero_iff.mp (by omega)
      rw [hp, List.append_nil]
      exact ⟨hbuf, htruncated⟩

theorem holds_writes {c : CappedBuffer} {output : List UInt8} (h : c.Holds output) (writes : List (List UInt8)) :
    (writes.foldl CappedBuffer.write c).Holds (output ++ writes.flatten) := by
  induction writes generalizing c output with
  | nil =>
      rw [List.flatten_nil, List.append_nil]
      exact h
  | cons p writes ih =>
      rw [List.foldl_cons, List.flatten_cons, ← List.append_assoc]
      exact ih (h.write p)

/-- However an output is written, what is reported of it depends on its bytes alone. -/
theorem text_writes (writes : List (List UInt8)) :
    (writes.foldl CappedBuffer.write CappedBuffer.empty).text = kept writes.flatten := by
  obtain ⟨hbuf, htruncated⟩ := holds_writes holds_empty writes
  rw [List.nil_append] at hbuf htruncated
  unfold CappedBuffer.text kept
  rw [hbuf, htruncated]
  by_cases hlong : maxOutputBytes < writes.flatten.length
  · rw [if_pos (decide_eq_true hlong), if_neg (Nat.not_le.mpr hlong)]
  · rw [if_pos (Nat.not_lt.mp hlong), decide_eq_false hlong, if_neg Bool.false_ne_true,
      List.take_of_length_le (Nat.not_lt.mp hlong)]

/-! ## `Run` -/

structure Result where
  executionId : String
  status : String
  reason : String
  exitCode : Option Int
  durationMs : Int
  stdout : List UInt8
  stderr : List UInt8
  deriving DecidableEq, Repr

/-- How a script that was started came to its end, as `Wait` and the context tell it. -/
inductive Ending where
  | deadline
  | exited (code : Int)
  | broken (error : List UInt8)
  deriving DecidableEq, Repr

/-- What the operating system did, with the texts of its errors. -/
structure Process where
  windows : Bool
  lookPath : String → Option String
  mkdirAll : Option (List UInt8)
  writeFile : Option (List UInt8)
  start : Option (List UInt8)
  stdout : List (List UInt8)
  stderr : List (List UInt8)
  ending : Ending
  durationMs : Int

/-- The executable, its arguments before the script and the extension of the script, or why there are none. -/
def interpreter (p : Process) (runtime : String) : Except String (String × List String × String) :=
  let find (candidates : List String) (args : List String) (ext : String) : Except String (String × List String × String) :=
    match candidates.findSome? p.lookPath with
    | some path => .ok (path, args, ext)
    | none => .error "interpreter_not_found"
  if runtime = "bash" then
    if p.windows then .error "unsupported_runtime" else find ["bash"] ["--noprofile", "--norc"] ".sh"
  else if runtime = "powershell" then
    find ["pwsh", "powershell"] ["-NoProfile", "-NonInteractive", "-ExecutionPolicy", "Bypass", "-File"] ".ps1"
  else if runtime = "python" then find ["python3", "python"] ["-I"] ".py"
  else .error "unsupported_runtime"

def Ending.status : Ending → String
  | .deadline => "timed_out"
  | .exited code => if code = 0 then "succeeded" else "failed"
  | .broken _ => "failed"

def Ending.exitCode : Ending → Option Int
  | .exited code => some code
  | _ => none

/-- What is added to the errors of the script. -/
def Ending.note : Ending → List UInt8
  | .broken error => utf8 ['\n'] ++ error
  | _ => []

section Outcome
variable (digest : List UInt8 → Digest) (quote : String → String)

def run (policy : Remediation) (job : Job) (p : Process) : Result :=
  let skip (reason : String) (message : List UInt8) : Result := ⟨job.id, "skipped", reason, none, p.durationMs, [], message⟩
  match refusal digest quote policy job with
  | some refused => skip refused.reason (utf8 refused.message.toList)
  | none =>
    match interpreter p job.runtime with
    | .error reason => skip reason (utf8 ("cannot run " ++ quote job.runtime ++ " scripts on this host").toList)
    | .ok _ =>
      match p.mkdirAll, p.writeFile, p.start with
      | some error, _, _ =>
        skip "start_failed" (utf8 "cannot create the remediation work directory: ".toList ++ error)
      | none, some error, _ => skip "start_failed" (utf8 "cannot write the script: ".toList ++ error)
      | none, none, some error => skip "start_failed" error
      | none, none, none =>
        { executionId := job.id
          status := p.ending.status
          reason := ""
          exitCode := p.ending.exitCode
          durationMs := p.durationMs
          stdout := (p.stdout.foldl CappedBuffer.write CappedBuffer.empty).text
          stderr := (p.stderr.foldl CappedBuffer.write CappedBuffer.empty).text ++ p.ending.note }

/-- The job was not refused and its script was started. -/
structure Started (policy : Remediation) (job : Job) (p : Process) : Prop where
  allowed : refusal digest quote policy job = none
  found : (interpreter p job.runtime).toOption.isSome
  directory : p.mkdirAll = none
  written : p.writeFile = none
  started : p.start = none

variable {digest quote}

theorem run_of_started {policy : Remediation} {job : Job} {p : Process} (h : Started digest quote policy job p) :
    run digest quote policy job p =
      { executionId := job.id
        status := p.ending.status
        reason := ""
        exitCode := p.ending.exitCode
        durationMs := p.durationMs
        stdout := kept p.stdout.flatten
        stderr := kept p.stderr.flatten ++ p.ending.note } := by
  have hfound := h.found
  unfold run
  simp only [h.allowed, h.directory, h.written, h.started, text_writes]
  cases hpath : interpreter p job.runtime with
  | ok found => rfl
  | error reason =>
      rw [hpath] at hfound
      cases hfound

end Outcome

/-! ## `Client.Report` -/

/-- What `encoding/json` writes as `\u00XX` or `\u202X` besides control characters. -/
def escapesHtml (c : Char) : Bool :=
  c == '<' || c == '>' || c == '&' || c == Char.ofNat 0x2028 || c == Char.ofNat 0x2029

/-- Strings as `encoding/json` writes them. -/
def goQuoting : Quoting (List UInt8) :=
  Quoting.bytes escapesHtml (by
    intro c hc
    simp only [escapesHtml, Bool.or_eq_true, beq_iff_eq] at hc
    rcases hc with (((rfl | rfl) | rfl) | rfl) | rfl <;> decide)

/-- `omitempty` of a string. -/
def omitEmpty (bytes : List UInt8) : Option (Json (List UInt8) Int) := if bytes = [] then none else some (.str bytes)

def Result.fields (r : Result) : List (String × Option (Json (List UInt8) Int)) :=
  [("executionId", some (.str (utf8 r.executionId.toList))), ("status", some (.str (utf8 r.status.toList))),
    ("reason", omitEmpty (utf8 r.reason.toList)), ("exitCode", r.exitCode.map .num), ("durationMs", some (.num r.durationMs)),
    ("stdout", omitEmpty r.stdout), ("stderr", omitEmpty r.stderr)]

/-- `json.Marshal(result)`. -/
def reportBody (r : Result) : String := String.ofList (render goQuoting (Json.record r.fields))

/-- What the server reads is what was written, with `U+FFFD` for each stray byte. -/
theorem parse_reportBody (r : Result) :
    parse (reportBody r).toList = some (Json.record (r.fields.map fun f => (f.1, f.2.map (Json.map decode)))) := by
  have htext : goQuoting.text = decode := rfl
  rw [reportBody, String.toList_ofList, parse_render, htext, Json.map_record]

/-! ## The size of a report -/

/-- The bytes that a character takes between quotes: two for a short escape, six for `\uXXXX`. -/
def runeWeight : Option Char → Nat
  | none => 6
  | some c => if (shortEscape c).isSome then 2 else if c.toNat < 0x20 || escapesHtml c then 6 else c.utf8Size

def weight (bytes : List UInt8) : Nat := ((runes bytes).map runeWeight).sum

theorem length_quote (bytes : List UInt8) : (utf8 (goQuoting.quote bytes)).length = weight bytes := by
  show (utf8 ((runes bytes).flatMap fun r => (r.map (escapeWith escapesHtml)).getD (unicodeEscape 0xFFFD))).length = _
  rw [length_utf8_flatMap, weight]
  refine congrArg List.sum (List.map_congr_left fun r _ => ?_)
  cases r with
  | none => exact length_utf8_unicodeEscape 0xFFFD
  | some c => exact length_utf8_escapeWith escapesHtml c

/-- A text has no more UTF-16 units than it takes bytes. -/
theorem units_decode_le_weight (bytes : List UInt8) : units (decode bytes) ≤ weight bytes := by
  have hrune : ∀ r : Option Char, units [r.getD (Char.ofNat 0xFFFD)] ≤ runeWeight r := by
    intro r
    cases r with
    | none => decide
    | some c =>
        have hle := units_le_utf8Size c
        have htwo := units_le [c]
        rw [units_cons] at htwo
        rw [Option.getD_some, units_cons, runeWeight]
        simp only [List.length_singleton] at htwo
        have hnil : units [] = 0 := rfl
        generalize (if c.toNat < 0x10000 then 1 else 2) = n at hle htwo ⊢
        split
        · omega
        · split <;> omega
  have hall : ∀ rs : List (Option Char), units (rs.map fun r => r.getD (Char.ofNat 0xFFFD)) ≤ (rs.map runeWeight).sum := by
    intro rs
    induction rs with
    | nil => exact Nat.le_refl 0
    | cons r rs ih =>
        have hone := hrune r
        rw [units_cons] at hone
        have hnil : units [] = 0 := rfl
        rw [List.map_cons, List.map_cons, List.sum_cons, units_cons]
        omega
  exact hall (runes bytes)

/-- A field with a string, when it is not empty: its name of six letters, the quotes, the colon and the comma. -/
def outputSize (bytes : List UInt8) : Nat := if bytes = [] then 0 else 12 + weight bytes

def numberSize (n : Int) : Nat := n.repr.length

def exitSize : Option Int → Nat
  | none => 0
  | some code => 12 + numberSize code

/-- The bytes of a report without a reason. -/
def reportSize (id status : String) (exitCode : Option Int) (durationMs : Int) (stdout stderr : List UInt8) : Nat :=
  44 + weight (utf8 id.toList) + weight (utf8 status.toList) + exitSize exitCode + numberSize durationMs + outputSize stdout +
    outputSize stderr

theorem fieldSize_omitEmpty {name : String} (hname : (utf8 (keyText name.toList)).length = 6) (bytes : List UInt8) :
    fieldSize goQuoting name (omitEmpty bytes) = outputSize bytes := by
  unfold omitEmpty outputSize
  split
  · rfl
  · rw [fieldSize_str, length_quote, hname]
    omega

theorem length_reportBody {r : Result} (h : r.reason = "") :
    (utf8 (reportBody r).toList).length = reportSize r.executionId r.status r.exitCode r.durationMs r.stdout r.stderr := by
  have hid : fieldSize goQuoting "executionId" (some (.str (utf8 r.executionId.toList))) =
      17 + weight (utf8 r.executionId.toList) := by
    have hkey : (utf8 (keyText "executionId".toList)).length = 11 := by decide
    rw [fieldSize_str, length_quote, hkey]
    omega
  have hstatus : fieldSize goQuoting "status" (some (.str (utf8 r.status.toList))) = 12 + weight (utf8 r.status.toList) := by
    have hkey : (utf8 (keyText "status".toList)).length = 6 := by decide
    rw [fieldSize_str, length_quote, hkey]
    omega
  have hreason : fieldSize goQuoting "reason" (omitEmpty (utf8 r.reason.toList)) = 0 := by
    rw [h]
    rfl
  have hexit : fieldSize goQuoting "exitCode" (r.exitCode.map .num) = exitSize r.exitCode := by
    cases r.exitCode with
    | none => rfl
    | some code =>
        have hkey : (utf8 (keyText "exitCode".toList)).length = 8 := by decide
        rw [Option.map_some, fieldSize_num, hkey, exitSize, numberSize]
        omega
  have hduration : fieldSize goQuoting "durationMs" (some (.num r.durationMs)) = 14 + numberSize r.durationMs := by
    have hkey : (utf8 (keyText "durationMs".toList)).length = 10 := by decide
    rw [fieldSize_num, hkey, numberSize]
    omega
  have hstdout := fieldSize_omitEmpty (by decide : (utf8 (keyText "stdout".toList)).length = 6) r.stdout
  have hstderr := fieldSize_omitEmpty (by decide : (utf8 (keyText "stderr".toList)).length = 6) r.stderr
  have hsize := length_utf8_record goQuoting "executionId" (.str (utf8 r.executionId.toList)) r.fields.tail
  rw [reportBody, String.toList_ofList]
  simp only [Result.fields, List.tail_cons, recordSize, List.map_cons, List.map_nil, List.sum_cons, List.sum_nil,
    hid, hstatus, hreason, hexit, hduration, hstdout, hstderr] at hsize ⊢
  rw [hsize, reportSize]
  omega

end IkelyaneMonitor.Agent.Run
