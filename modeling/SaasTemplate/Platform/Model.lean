import SaasTemplate.Outbox.Model
import SaasTemplate.Tenancy.Model

/-! # The platform: staff, users and permissions

The rows that platform administration reads and writes. The service functions change the
loaded object; a flush writes the columns in which it then differs from what was loaded.
-/

namespace SaasTemplate.Platform

open SaasTemplate.Tenancy (UserStatus)

open SaasTemplate.Outbox (written)

inductive PlatformStaffRole where
  | platformAdmin | supportAgent | complianceOfficer
  deriving DecidableEq, Repr

inductive PlatformStaffStatus where
  | active | suspended
  deriving DecidableEq, Repr

structure PlatformStaff where
  userId : Uuid
  role : PlatformStaffRole
  status : PlatformStaffStatus
  createdByUserId : Option Uuid
  suspendedAt : Option Time
  suspendedReason : Option String
  deriving DecidableEq, Repr

/-- The columns of a user that platform administration reads or writes. -/
structure User where
  externalAuthId : String
  status : UserStatus
  suspendedAt : Option Time
  suspendedReason : Option String
  deriving DecidableEq, Repr

/-! ## Unique indexes -/

inductive StaffKey where
  | userId (user : Uuid)
  deriving DecidableEq

def PlatformStaff.entries (s : PlatformStaff) : List StaffKey := [.userId s.userId]

inductive UserKey where
  | externalAuthId (id : String)
  deriving DecidableEq

def User.entries (u : User) : List UserKey := [.externalAuthId u.externalAuthId]

/-! ## Permissions -/

inductive PlatformPermission where
  | usersRead | usersReadLimited | usersSuspend | usersRestore | usersCorrectProfile
  | organisationsRead | organisationsReadLimited | organisationsSuspend | organisationsRestore
  | organisationsCorrectProfile | organisationsEmergencyOwnerCorrection
  | platformStaffManage | auditRead | auditReadLimited
  | privacyRequestsRead | privacyRequestsReview | privacyRequestsExecuteErasure
  | privacyExportArtifactsRead | privacyExportArtifactsManage
  deriving DecidableEq, Repr

def complianceOfficerPermissions : List PlatformPermission :=
  [.usersReadLimited, .organisationsReadLimited, .auditRead, .auditReadLimited,
    .privacyRequestsRead, .privacyRequestsReview, .privacyRequestsExecuteErasure,
    .privacyExportArtifactsRead, .privacyExportArtifactsManage]

/-- `permission in ROLE_PERMISSIONS[role]`. -/
def PlatformStaffRole.permits (role : PlatformStaffRole) (permission : PlatformPermission) : Bool :=
  match role with
  | .platformAdmin => true
  | .supportAgent =>
      [.usersReadLimited, .organisationsReadLimited, .auditReadLimited].contains permission
  | .complianceOfficer => complianceOfficerPermissions.contains permission

/-- Who acts: the user and the staff record as they were read. -/
structure PlatformActor where
  userId : Uuid
  user : User
  staffId : Uuid
  staff : PlatformStaff
  deriving DecidableEq, Repr

/-! ## Changes -/

/-- `role = 'platform_admin' AND status = 'active'`. -/
def PlatformStaff.isActiveAdmin (s : PlatformStaff) : Bool :=
  s.role == .platformAdmin && s.status == .active

namespace PlatformStaff

def suspended (now : Time) (reason : String) (s : PlatformStaff) : PlatformStaff :=
  { s with status := .suspended, suspendedAt := some now, suspendedReason := some reason }

def restored (s : PlatformStaff) : PlatformStaff :=
  { s with status := .active, suspendedAt := none, suspendedReason := none }

/-- The `UPDATE` that flushes an object loaded as `loaded` and changed to `assigned`, on a
    row that is at `current` by then. -/
def flush (loaded assigned current : PlatformStaff) : PlatformStaff where
  userId := written loaded.userId assigned.userId current.userId
  role := written loaded.role assigned.role current.role
  status := written loaded.status assigned.status current.status
  createdByUserId := written loaded.createdByUserId assigned.createdByUserId current.createdByUserId
  suspendedAt := written loaded.suspendedAt assigned.suspendedAt current.suspendedAt
  suspendedReason := written loaded.suspendedReason assigned.suspendedReason current.suspendedReason

end PlatformStaff

namespace User

def withStatus (status : UserStatus) (suspendedAt : Option Time) (suspendedReason : Option String)
    (u : User) : User :=
  { u with status, suspendedAt, suspendedReason }

def isActive (u : User) : Bool := u.status == .active

def flush (loaded assigned current : User) : User where
  externalAuthId := written loaded.externalAuthId assigned.externalAuthId current.externalAuthId
  status := written loaded.status assigned.status current.status
  suspendedAt := written loaded.suspendedAt assigned.suspendedAt current.suspendedAt
  suspendedReason := written loaded.suspendedReason assigned.suspendedReason current.suspendedReason

end User

end SaasTemplate.Platform
