import IkelyaneMonitor.Interleave.Table
import IkelyaneMonitor.Remediation.Guard
import IkelyaneMonitor.Text

/-!
# Remediation actions (`modules/remediation/actions.ts`)

* `JsonValue` : the free-form JSON of the `args` columns; `readArgs` : the defensive read of it;
* `readArgs_argsJson` : what was read once and stored reads back unchanged;
* `validate` : the checks an action's input passes before it is stored.

Identifiers (`cuid()`) are natural numbers: only their being distinct matters. The bounds on `timeoutSec`, `cooldownSec`
and `maxRunsPerHour` are CHECK constraints of the table, so these are natural numbers too.
-/

namespace IkelyaneMonitor.Remediation
open Interleave

inductive JsonValue where
  | null
  | bool (b : Bool)
  | num (literal : String)
  | str (text : String)
  | arr (items : List JsonValue)
  | obj (entries : List (String × JsonValue))

/-- `ARG_NAME`: `^[A-Z][A-Z0-9_]{0,63}$`. -/
def isArgName (name : String) : Bool :=
  match name.toList with
  | [] => false
  | c :: cs => c.isUpper && cs.length ≤ 63 && cs.all fun d => d.isUpper || d.isDigit || d == '_'

def argOf : String × JsonValue → Option (String × String)
  | (name, .str text) => if isArgName name then some (name, text) else none
  | _ => none

def readArgs : Option JsonValue → List (String × String)
  | some (.obj entries) => entries.filterMap argOf
  | _ => []

/-- A record of strings as the JSON column holds it. -/
def argsJson (args : List (String × String)) : JsonValue := .obj (args.map fun arg => (arg.1, .str arg.2))

theorem isArgName_of_mem_readArgs {value : Option JsonValue} {arg : String × String} (h : arg ∈ readArgs value) :
    isArgName arg.1 = true := by
  unfold readArgs at h
  split at h
  · obtain ⟨⟨name, v⟩, -, hv⟩ := List.mem_filterMap.mp h
    unfold argOf at hv
    split at hv
    · rename_i heq
      cases heq
      split at hv
      · cases hv
        assumption
      · cases hv
    · cases hv
  · cases h

theorem readArgs_argsJson (value : Option JsonValue) : readArgs (some (argsJson (readArgs value))) = readArgs value := by
  rw [argsJson, readArgs, List.filterMap_map]
  conv_rhs => rw [← List.filterMap_some (l := readArgs value)]
  refine List.filterMap_congr fun arg harg => ?_
  simp [argOf, isArgName_of_mem_readArgs harg]

/-- What is read back of a record that was stored: the entries whose name passes. -/
theorem readArgs_of_argsJson (args : List (String × String)) :
    readArgs (some (argsJson args)) = args.filter fun arg => isArgName arg.1 := by
  rw [argsJson, readArgs, List.filterMap_map, ← List.filterMap_eq_filter]
  refine List.filterMap_congr fun arg _ => ?_
  simp [argOf, Option.guard]

structure RemediationAction where
  id : Nat
  orgId : Nat
  enabled : Bool
  runtime : ScriptRuntime
  scriptBody : String
  args : Option JsonValue
  timeoutSec : Nat
  targetHostId : Option Nat
  allowedOsFamilies : List OsFamily
  requiresApproval : Bool
  cooldownSec : Nat
  maxRunsPerHour : Nat

structure MonitoredHost where
  id : Nat
  orgId : Nat
  enabled : Bool
  osFamily : OsFamily
  remediationMode : Option RemediationMode
  remediationAllowlist : List String

instance : Keyed RemediationAction := ⟨RemediationAction.id⟩
instance : Keyed MonitoredHost := ⟨MonitoredHost.id⟩

def RemediationAction.guardAction (action : RemediationAction) : GuardAction where
  enabled := action.enabled
  allowedOsFamilies := action.allowedOsFamilies
  cooldownSec := action.cooldownSec
  maxRunsPerHour := action.maxRunsPerHour

def MonitoredHost.guardHost (host : MonitoredHost) : GuardHost where
  enabled := host.enabled
  osFamily := some host.osFamily
  remediationMode := host.remediationMode
  remediationAllowlist := host.remediationAllowlist

structure RemediationActionInput where
  runtime : ScriptRuntime
  scriptBody : String
  args : List (String × String)
  timeoutSec : Nat
  targetHostId : Option Nat
  allowedOsFamilies : List OsFamily
  requiresApproval : Bool
  cooldownSec : Nat
  maxRunsPerHour : Nat

inductive RemediationWriteError where
  | forbidden | notFound | invalidHost | invalidScript | invalidArgs
  deriving DecidableEq, Repr

def maxScriptBytes : Nat := 64 * 1024
def maxArgs : Nat := 20

def validate (input : RemediationActionInput) : Option RemediationWriteError :=
  if Text.trim input.scriptBody = "" ∨ maxScriptBytes < input.scriptBody.utf8ByteSize ∨
      input.scriptBody.toList.contains (Char.ofNat 0) then some .invalidScript
  else if maxArgs < input.args.length ∨ input.args.any fun arg =>
      !isArgName arg.1 || 1000 < Text.utf16Length arg.2 || arg.2.toList.contains (Char.ofNat 0) then some .invalidArgs
  else none

/-- The row `create({ data: { orgId, ...input } })` stores. -/
def RemediationActionInput.row (input : RemediationActionInput) (orgId id : Nat) : RemediationAction where
  id := id
  orgId := orgId
  enabled := true
  runtime := input.runtime
  scriptBody := input.scriptBody
  args := some (argsJson input.args)
  timeoutSec := input.timeoutSec
  targetHostId := input.targetHostId
  allowedOsFamilies := input.allowedOsFamilies
  requiresApproval := input.requiresApproval
  cooldownSec := input.cooldownSec
  maxRunsPerHour := input.maxRunsPerHour

/-- `update({ data: input })`: everything the form edits; the id, the organization and `enabled` stay. -/
def RemediationActionInput.edit (input : RemediationActionInput) (action : RemediationAction) : RemediationAction :=
  { input.row action.orgId action.id with enabled := action.enabled }

end IkelyaneMonitor.Remediation
