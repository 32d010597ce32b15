import SaasTemplate.Platform.Statements

/-! # The platform: the services

A write request resolves its actor and does its work in one transaction. Objects are
shared within a session: a staff record or user that is already loaded as the actor's is
not read again, and the locking `SELECT` refreshes the record it finds.
-/

namespace SaasTemplate.Platform

open SaasTemplate.Isolation SaasTemplate.Isolation.Prog

abbrev Tx (α : Type) : Type := Prog Statement Answer AppError α

/-- Await one statement. -/
abbrev sql (s : Statement) : Tx (Answer s) := stmt s

/-! ## The write context -/

def platformAccessDenied : AppError := .forbidden "Platform access denied"

def resolveActivePlatformActor (externalAuthId : String) : Tx PlatformActor := do
  let found ← sql (.userByExternalAuthId externalAuthId)
  let user ← orRaise found platformAccessDenied
  raiseIf (user.2.status ≠ .active) platformAccessDenied
  let record ← sql (.staffByUserId user.1)
  let staff ← orRaise record platformAccessDenied
  raiseIf (staff.2.status ≠ .active) platformAccessDenied
  pure ⟨user.1, user.2, staff.1, staff.2⟩

def resolvePlatformActor (externalAuthId : String) (requiredPermission : PlatformPermission) :
    Tx PlatformActor := do
  let actor ← resolveActivePlatformActor externalAuthId
  raiseIf (actor.staff.role.permits requiredPermission = false) platformAccessDenied
  pure actor

/-- A request through the rate-limited write context. -/
def platformWrite {α : Type} (externalAuthId : String) (permission : PlatformPermission)
    (work : PlatformActor → Tx α) : Tx α := do
  sql .rateLimit
  transaction .commit .rollback do
    let actor ← resolvePlatformActor externalAuthId permission
    work actor

/-! ## Staff -/

def getStaff (actor : PlatformActor) (staffId : Uuid) : Tx PlatformStaff := do
  let found ← sql (.staffById staffId)
  let staff ← orRaise found (.notFound "Platform staff not found")
  pure (if staffId = actor.staffId then actor.staff else staff)

def lockActivePlatformAdmins : Tx (List (Uuid × PlatformStaff)) := do
  let ids ← sql .activeAdminIds
  collect ids fun id => do
    let row ← sql (.lockActiveAdmin id)
    pure (row.map fun row => (id, row))

/-- For a change that takes an admin away: lock the active admins, refuse unless one of them
    is another, and go on with the record as the lock found it. -/
def ensureAnotherActiveAdmin (takesAdmin : Bool) (staffId : Uuid) (staff : PlatformStaff)
    (detail : String) : Tx PlatformStaff :=
  if takesAdmin then do
    let activeAdmins ← lockActivePlatformAdmins
    raiseIf (activeAdmins.any (·.1 ≠ staffId) = false) (.conflict detail)
    pure ((activeAdmins.lookup staffId).getD staff)
  else pure staff

/-- Flush a changed staff record, read it again and record the change. -/
def writeStaff (actor : PlatformActor) (staffId : Uuid) (loaded assigned : PlatformStaff) :
    Tx (Option PlatformStaff) := do
  sql (.flushStaff actor staffId loaded assigned)
  let staff ← sql (.staffById staffId)
  sql .recordAuditEvent
  pure staff

def changeRole (staffId : Uuid) (actor : PlatformActor) (role : PlatformStaffRole) :
    Tx (Option PlatformStaff) := do
  let staff ← getStaff actor staffId
  raiseIf (staff.status ≠ .active) (.conflict "Platform staff is not active")
  raiseIf (staff.role = role) (.conflict "Role is already set")
  raiseIf (staff.userId = actor.userId ∧ staff.role = .platformAdmin ∧ role ≠ .platformAdmin)
    (.conflict "Cannot demote own platform admin role")
  let staff ← ensureAnotherActiveAdmin (staff.role == .platformAdmin && role != .platformAdmin)
    staffId staff "Cannot demote last active platform admin"
  writeStaff actor staffId staff { staff with role }

def suspendStaff (staffId : Uuid) (actor : PlatformActor) (reason : String) :
    Tx (Option PlatformStaff) := do
  let staff ← getStaff actor staffId
  raiseIf (staff.userId = actor.userId) (.conflict "Cannot suspend own platform staff record")
  if staff.status = .suspended then pure (some staff)
  else do
    raiseIf (staff.status ≠ .active) (.conflict "Platform staff is not active")
    let staff ← ensureAnotherActiveAdmin (staff.role == .platformAdmin) staffId staff
      "Cannot suspend last active platform admin"
    let now ← sql .now
    writeStaff actor staffId staff (staff.suspended now reason)

def restoreStaff (staffId : Uuid) (actor : PlatformActor) : Tx (Option PlatformStaff) := do
  let staff ← getStaff actor staffId
  if staff.status = .active then pure (some staff)
  else do
    raiseIf (staff.status ≠ .suspended) (.conflict "Platform staff is not suspended")
    writeStaff actor staffId staff staff.restored

/-! ## Users -/

def getUser (actor : PlatformActor) (userId : Uuid) : Tx User := do
  let found ← sql (.userById userId)
  let user ← orRaise found (.notFound "User not found")
  pure (if userId = actor.userId then actor.user else user)

/-- Flush a changed user, read it again and record the change. -/
def writeUser (actor : PlatformActor) (userId : Uuid) (loaded assigned : User) :
    Tx (Option User) := do
  sql (.flushUser actor userId loaded assigned)
  let user ← sql (.userById userId)
  sql .recordAuditEvent
  pure user

def suspendUser (userId : Uuid) (actor : PlatformActor) (reason : String) : Tx (Option User) := do
  raiseIf (actor.userId = userId) (.conflict "Platform actor cannot suspend own account")
  let user ← getUser actor userId
  if user.status = .suspended then pure (some user)
  else do
    let now ← sql .now
    writeUser actor userId user (user.withStatus .suspended (some now) (some reason))

def restoreUser (userId : Uuid) (actor : PlatformActor) : Tx (Option User) := do
  let user ← getUser actor userId
  if user.status = .active then pure (some user)
  else writeUser actor userId user (user.withStatus .active none none)

/-! ## Requests -/

/-- A write request of the platform, with the external id of its caller. -/
inductive PlatformOp where
  | changeRole (caller : String) (staffId : Uuid) (role : PlatformStaffRole)
  | suspendStaff (caller : String) (staffId : Uuid) (reason : String)
  | restoreStaff (caller : String) (staffId : Uuid)
  | suspendUser (caller : String) (userId : Uuid) (reason : String)
  | restoreUser (caller : String) (userId : Uuid)

/-- The program of a request, without its result. -/
def PlatformOp.program : PlatformOp → Tx Unit
  | .changeRole caller staffId role => do
      let _ ← platformWrite caller .platformStaffManage fun actor =>
        Platform.changeRole staffId actor role
  | .suspendStaff caller staffId reason => do
      let _ ← platformWrite caller .platformStaffManage fun actor =>
        Platform.suspendStaff staffId actor reason
  | .restoreStaff caller staffId => do
      let _ ← platformWrite caller .platformStaffManage fun actor =>
        Platform.restoreStaff staffId actor
  | .suspendUser caller userId reason => do
      let _ ← platformWrite caller .usersSuspend fun actor =>
        Platform.suspendUser userId actor reason
  | .restoreUser caller userId => do
      let _ ← platformWrite caller .usersRestore fun actor =>
        Platform.restoreUser userId actor

end SaasTemplate.Platform
