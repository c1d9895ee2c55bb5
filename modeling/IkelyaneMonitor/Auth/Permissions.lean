import Mathlib.Logic.Basic

/-!
# Roles and permissions (`lib/auth/permissions.ts`, `lib/auth/db.ts`)

* `can role permission` : does the role grant the permission; each role has every permission of the one below it;
* `canManageMember`, `canChangeRole` : whom an actor may modify, and into which role (`assignableRoles`).
-/

namespace IkelyaneMonitor.Auth

inductive Role where
  | viewer | operator | admin | owner
  deriving DecidableEq, Repr

inductive Permission where
  | hostsRead | devicesRead | databasesRead | endpointsRead | topologyRead | finopsRead | alertsRead | incidentsRead
  | remediationRead | membersRead
  | incidentsAcknowledge | remediationRun | endpointsCheck
  | hostsWrite | hostsRotateSecret | devicesWrite | databasesWrite | endpointsWrite | topologyWrite | alertsWrite
  | remediationWrite
  | membersInvite | membersManage | auditRead | orgSettings
  | membersManagePrivileged | orgDelete
  deriving DecidableEq, Repr

def viewerPermissions : List Permission :=
  [.hostsRead, .devicesRead, .databasesRead, .endpointsRead, .topologyRead, .finopsRead, .alertsRead, .incidentsRead,
    .remediationRead, .membersRead]

def operatorPermissions : List Permission :=
  viewerPermissions ++ [.incidentsAcknowledge, .remediationRun, .endpointsCheck]

def adminPermissions : List Permission :=
  operatorPermissions ++ [.hostsWrite, .hostsRotateSecret, .devicesWrite, .databasesWrite, .endpointsWrite,
    .topologyWrite, .alertsWrite, .remediationWrite, .membersInvite, .membersManage, .auditRead, .orgSettings]

def ownerPermissions : List Permission := adminPermissions ++ [.membersManagePrivileged, .orgDelete]

def rolePermissions : Role → List Permission
  | .viewer => viewerPermissions
  | .operator => operatorPermissions
  | .admin => adminPermissions
  | .owner => ownerPermissions

def can (role : Role) (permission : Permission) : Bool := (rolePermissions role).contains permission

def Role.rank : Role → Nat
  | .viewer => 0
  | .operator => 1
  | .admin => 2
  | .owner => 3

/-- The roles an actor may hand out. -/
def assignableRoles (actor : Role) : List Role :=
  if can actor .membersManagePrivileged then [.owner, .admin, .operator, .viewer]
  else if can actor .membersManage then [.operator, .viewer]
  else []

def canManageMember (actor targetRole : Role) : Bool :=
  if can actor .membersManagePrivileged then true
  else can actor .membersManage && decide (targetRole.rank < Role.rank .admin)

def canChangeRole (actor targetRole newRole : Role) : Bool :=
  canManageMember actor targetRole && (assignableRoles actor).contains newRole

/-- Who performs an operation, derived from the validated session. -/
structure Actor where
  userId : Nat
  orgId : Nat
  role : Role
  deriving DecidableEq, Repr

end IkelyaneMonitor.Auth
