import IkelyaneMonitor.Tenancy.Calls

/-!
# Database instances (`modules/databases/instances.ts`)

* `updateDatabaseSettings`, `setDatabaseEnabled`, `listDatabases` : the functions of the module; the instances themselves are
  found by the agents;
* one lemma for each: it stays within the organization of its requester.
-/

namespace IkelyaneMonitor.Tenancy
open Interleave Relational
open Auth (can)

structure DatabaseSettingsInput where
  tags : List String
  slowQueryThresholdMs : Nat

inductive DatabaseWriteError where
  | forbidden | notFound
  deriving DecidableEq, Repr

/-- An instance as it is listed, with the name of its host. -/
structure DatabaseRow where
  database : DatabaseInstance
  hostname : Option String

section Functions
variable {URL : Type} (platform : Platform URL)

def updateDatabaseSettings (actor : Requester) (draws : Draws) (id : Nat) (input : DatabaseSettingsInput) :
    DbCall (Outcome DatabaseWriteError Unit) :=
  if !can actor.role .databasesWrite then .ret (.fail .forbidden)
  else
    audited (databaseInstance.updateMany id (fun r => r.orgId == actor.orgId) fun r =>
        { r with tags := input.tags, slowQueryThresholdMs := input.slowQueryThresholdMs })
      (recordAudit actor draws ⟨.database, .updated⟩ id none) (counted .notFound)

def setDatabaseEnabled (actor : Requester) (draws : Draws) (id : Nat) (enabled : Bool) :
    DbCall (Outcome DatabaseWriteError Unit) :=
  if !can actor.role .databasesWrite then .ret (.fail .forbidden)
  else
    audited (databaseInstance.updateMany id (fun r => r.orgId == actor.orgId) fun r => { r with enabled := enabled })
      (recordAudit actor draws ⟨.database, if enabled then .enabled else .disabled⟩ id none) (counted .notFound)

def listDatabases (actor : Requester) : DbCall (Outcome ReadError (List DatabaseRow)) :=
  if !can actor.role .databasesRead then .ret (.fail .forbidden)
  else
    read (fun s => (orderBy platform.collate (fun r => r.name)
        (databaseInstance.findMany s fun r => r.orgId == actor.orgId)).map fun r =>
          (⟨r, (hostOf s r.hostId).map (·.hostname)⟩ : DatabaseRow))
      fun rows => .ret (.ok rows)

/-! ## Within the organization -/

variable (actor : Requester) (draws : Draws)

theorem updateDatabaseSettings_confined (id : Nat) (input : DatabaseSettingsInput) :
    Confined actor.orgId (fun _ => True) (updateDatabaseSettings actor draws id input) :=
  .ite (fun _ => .ret _) fun _ => .audited (fun _ _ _ => databaseInstance.within_edit (fun _ hx => eq_of_beq hx)
    (fun _ => rfl) (fun _ => rfl) (fun _ => rfl) fun _ => rfl) rfl

theorem setDatabaseEnabled_confined (id : Nat) (enabled : Bool) :
    Confined actor.orgId (fun _ => True) (setDatabaseEnabled actor draws id enabled) :=
  .ite (fun _ => .ret _) fun _ => .audited (fun _ _ _ => databaseInstance.within_edit (fun _ hx => eq_of_beq hx)
    (fun _ => rfl) (fun _ => rfl) (fun _ => rfl) fun _ => rfl) rfl

theorem listDatabases_confined : Confined actor.orgId (fun _ => True) (listDatabases platform actor) := by
  refine .ite (fun _ => .ret _) fun _ => .read (Q := fun _ _ => True) (fun s t _ _ hs ht halike => ?_) (fun _ _ _ => trivial)
    (fun _ => Steady.true) fun _ => .ret _
  rw [databaseInstance.findMany_alike halike fun x hx => by simpa [databaseInstance] using hx]
  refine List.map_congr_left fun x hx => ?_
  obtain ⟨hx, hxo⟩ := List.mem_filter.mp (mem_orderBy.mp hx)
  rw [hostOf_alike hs ht halike (databaseInstance.mem_all.mp hx) (eq_of_beq hxo) rfl]

end Functions

end IkelyaneMonitor.Tenancy
