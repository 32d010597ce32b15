import SaasTemplate.Audit.Model
import SaasTemplate.Outbox.Scrubbers
import SaasTemplate.Platform.Model
import SaasTemplate.Privacy.Model
import SaasTemplate.Tenancy.Model

/-! # The providers of an erasure

`execute_core_erasure_for_approved_request` with what each provider selects and writes, on the
rows of one database. The counts that the providers report are left out, and so are those that
write nothing: memberships, organisations and consents are retained by policy. An `UPDATE` sets
`updated_at`, which only the rows of invites and of outbox events have here.
-/

namespace SaasTemplate.Privacy.SubjectErasure

open SaasTemplate.Audit (AuditEvent AuditTargetSnapshot)
open SaasTemplate.Outbox (OutboxEvent)
open SaasTemplate.Outbox.Scrubbers (payloadEmail scrubOutboxEvent)
open SaasTemplate.Platform (PlatformStaff)
open SaasTemplate.Tenancy (Invite scrubbedInviteEmail scrubbedInviteTokenHash isScrubbedInvite)

/-- A row of `users`. -/
structure UserRow extends Tenancy.User where
  suspendedReason : Option String
  deriving DecidableEq

/-- A row of an authorisation or of a notice acceptance. -/
structure SourcedRow where
  subjectUserId : Uuid
  source : Option String
  deriving DecidableEq

/-- The tables that the providers read, with the ids of the rows. -/
structure ErasureDb where
  users : List (Uuid × UserRow)
  invites : List (Uuid × Invite)
  memberships : List (Uuid × Tenancy.Membership)
  outboxEvents : List (Uuid × OutboxEvent)
  auditEvents : List (Uuid × AuditEvent)
  platformStaff : List (Uuid × PlatformStaff)
  dataSubjectRequests : List (Uuid × DataSubjectRequest)
  exportArtifacts : List (Uuid × ExportArtifact)
  authorizations : List (Uuid × SourcedRow)
  noticeAcceptances : List (Uuid × SourcedRow)
  deriving DecidableEq

/-- How e-mail addresses are compared. -/
structure ErasureText where
  /-- `value.strip().lower()`. -/
  normalised : String → String
  normalised_idem : ∀ value, normalised (normalised value) = normalised value
  /-- `lower(trim(value))`. -/
  sqlNormalised : String → String

/-- The reference time of a run, and the clock at the flushes of two providers. -/
structure ErasureTimes where
  now : Time
  eventsFlushedAt : Time
  invitesFlushedAt : Time

/-- What the flush of an object makes of its row: one that has not changed is not written. -/
def flushed {ρ : Type} [DecidableEq ρ] (touch : ρ → ρ) (before after : ρ) : ρ :=
  if after = before then before else touch after

/-- An `UPDATE` of the selected rows. -/
def updateWhere {ρ : Type} (selected : ρ → Bool) (change : Uuid → ρ → ρ)
    (rows : List (Uuid × ρ)) : List (Uuid × ρ) :=
  rows.map fun row => if selected row.2 then (row.1, change row.1 row.2) else row

/-- An `UPDATE` of the rows with an id. -/
def updateAt {ρ : Type} (id : Uuid) (change : ρ → ρ) (rows : List (Uuid × ρ)) :
    List (Uuid × ρ) :=
  rows.map fun row => if row.1 = id then (row.1, change row.2) else row

/-- The ids of the selected rows. -/
def idsWhere {ρ : Type} (selected : ρ → Bool) (rows : List (Uuid × ρ)) : List Uuid :=
  (rows.filter fun row => selected row.2).map Prod.fst

section
variable (text : ErasureText)

/-- `_normalise_optional_email`. -/
def normaliseOptionalEmail (value : Option String) : Option String :=
  value.bind fun value => if text.normalised value = "" then none else some (text.normalised value)

/-- The e-mail that a provider goes by: the one it is given, else the one of the subject. -/
def effectiveEmail (given current : Option String) : Option String :=
  match normaliseOptionalEmail text given with
  | some email => some email
  | none => normaliseOptionalEmail text current

/-! ## Selections -/

/-- SQL takes the invite for one to the address. -/
def sqlMatches (email : Option String) (invite : Invite) : Bool :=
  email.any fun email => text.sqlNormalised invite.email == email

def inviteSelected (S : Uuid) (email : Option String) (invite : Invite) : Bool :=
  invite.revokedByUserId == some S || sqlMatches text email invite

/-- `_lock_subject_outbox_events`. -/
def outboxSelected (email : Option String) (inviteIds : List Uuid) (event : OutboxEvent) : Bool :=
  event.aggregateId.any inviteIds.contains ||
    email.any fun email => (payloadEmail event.payload).any fun value =>
      text.sqlNormalised value == email

def staffSelected (S : Uuid) (staff : PlatformStaff) : Bool :=
  staff.userId == S || staff.createdByUserId == some S

/-- `_build_target_snapshot`. -/
def auditSnapshot (S : Uuid) (email : Option String) (db : ErasureDb) : AuditTargetSnapshot where
  subjectUserId := S
  inviteIds := idsWhere (inviteSelected text S email) db.invites
  membershipIds := idsWhere (fun m => m.userId == S) db.memberships
  dataSubjectRequestIds := idsWhere (DataSubjectRequest.mentions S) db.dataSubjectRequests
  exportArtifactIds := idsWhere (ExportArtifact.mentions S) db.exportArtifacts
  platformStaffIds := idsWhere (staffSelected S) db.platformStaff

/-! ## Rows -/

/-- `_invite_email_matches_subject`. -/
def inviteEmailMatches (email : Option String) (invite : Invite) : Bool :=
  email.any fun email => text.normalised invite.email == email

/-- `_anonymise_invite`. -/
def anonymiseInvite (S : Uuid) (email : Option String) (now : Time) (id : Uuid) (invite : Invite) :
    Invite :=
  let invite :=
    if inviteEmailMatches text email invite && !isScrubbedInvite invite then
      { invite with
        email := scrubbedInviteEmail id
        tokenHash := scrubbedInviteTokenHash id
        expiresAt := none
        status := if invite.status = .pending then .revoked else invite.status
        revokedAt := if invite.status = .pending then some now else invite.revokedAt }
    else invite
  { invite with
    revokedByUserId := if invite.revokedByUserId = some S then none else invite.revokedByUserId }

def flushedInvite (S : Uuid) (email : Option String) (times : ErasureTimes) (id : Uuid)
    (invite : Invite) : Invite :=
  flushed (fun row => { row with updatedAt := times.invitesFlushedAt }) invite
    (anonymiseInvite text S email times.now id invite)

def flushedEvent (times : ErasureTimes) (event : OutboxEvent) : OutboxEvent :=
  flushed (fun row => { row with updatedAt := times.eventsFlushedAt }) event
    (scrubOutboxEvent event)

/-- `_minimise_platform_staff_rows`. -/
def minimiseStaff (S : Uuid) (staff : PlatformStaff) : PlatformStaff :=
  { staff with
    createdByUserId := if staff.createdByUserId = some S then none else staff.createdByUserId
    suspendedReason := none }

/-- `_anonymise_subject_profile`. -/
def anonymiseProfile (S : Uuid) (user : UserRow) : UserRow :=
  { user with
    externalAuthId := s!"erased-user:{S}"
    email := none
    emailVerified := false
    firstName := none
    lastName := none
    onboardingCompleted := false
    suspendedReason := none }

/-! ## Providers -/

/-- `raise` of an error with this reason code, on a condition. -/
def raiseIf (condition : Bool) (reasonCode : String) : Except String Unit :=
  if condition then .error reasonCode else .ok ()

/-- `_validate_request` of a provider. -/
def validateRequest (provider : String) (request : DataSubjectRequest) : Except String Uuid := do
  raiseIf (request.requestType ≠ .erase) (provider ++ "_requires_erase_request")
  raiseIf (request.status ≠ .approved) (provider ++ "_requires_approved_request")
  match request.subjectUserId with
  | some S => .ok S
  | none => .error (provider ++ "_requires_subject_user")

/-- The row of the subject. -/
def findSubject (reasonCode : String) (S : Uuid) (db : ErasureDb) : Except String UserRow :=
  match db.users.lookup S with
  | some user => .ok user
  | none => .error reasonCode

variable (times : ErasureTimes) (request : DataSubjectRequest)

def minimiseAuditEvents (db : ErasureDb) : Except String ErasureDb := do
  let S ← validateRequest "audit_erasure" request
  let subject ← findSubject "audit_erasure_subject_not_found" S db
  let snapshot := auditSnapshot text S (normaliseOptionalEmail text subject.email) db
  raiseIf (db.auditEvents.any fun row => row.2.ofSubject snapshot && row.2.holdActive times.now)
    "audit_erasure_legal_hold_active"
  .ok { db with
    auditEvents := updateWhere (AuditEvent.ofSubject snapshot)
      (fun _ => AuditEvent.minimised snapshot) db.auditEvents }

def scrubOutbox (subjectEmail : Option String) (inviteIds : List Uuid) (db : ErasureDb) :
    Except String ErasureDb := do
  let S ← validateRequest "outbox_erasure" request
  let subject ← findSubject "outbox_erasure_subject_not_found" S db
  let selected := outboxSelected text (effectiveEmail text subjectEmail subject.email) inviteIds
  raiseIf (db.outboxEvents.any fun row => selected row.2 && row.2.status == .processing)
    "outbox_erasure_processing_rows_in_flight"
  .ok { db with outboxEvents := updateWhere selected (fun _ => flushedEvent times) db.outboxEvents }

def anonymiseInvites (subjectEmail : Option String) (db : ErasureDb) : Except String ErasureDb := do
  let S ← validateRequest "invite_erasure" request
  let subject ← findSubject "invite_erasure_subject_not_found" S db
  let email := effectiveEmail text subjectEmail subject.email
  .ok { db with
    invites := updateWhere (inviteSelected text S email) (flushedInvite text S email times)
      db.invites }

/-- The provider of platform staff. -/
def minimisePlatformStaff (S : Uuid) (db : ErasureDb) : Except String ErasureDb := do
  let _ ← validateRequest "remaining_erasure" request
  .ok { db with
    platformStaff := updateWhere (staffSelected S) (fun _ => minimiseStaff S) db.platformStaff }

/-- The provider of export artifacts; the deletions that it defers are not part of the database. -/
def minimiseExportArtifacts (S : Uuid) (db : ErasureDb) : Except String ErasureDb := do
  let _ ← validateRequest "remaining_erasure" request
  raiseIf (db.exportArtifacts.any fun row => row.2.mentions S && row.2.status == .processing)
    "export_artifact_erasure_processing_active"
  .ok { db with
    exportArtifacts := updateWhere (ExportArtifact.mentions S) (fun _ => ExportArtifact.minimised S)
      db.exportArtifacts }

/-- The provider of the governance tables. -/
def minimiseGovernance (S : Uuid) (db : ErasureDb) : Except String ErasureDb := do
  let _ ← validateRequest "remaining_erasure" request
  let clear (rows : List (Uuid × SourcedRow)) :=
    updateWhere (fun row => row.subjectUserId == S) (fun _ row => { row with source := none }) rows
  .ok { db with
    authorizations := clear db.authorizations
    noticeAcceptances := clear db.noticeAcceptances }

def anonymiseUserProfile (db : ErasureDb) : Except String ErasureDb := do
  let S ← validateRequest "user_profile_erasure" request
  let _ ← findSubject "user_profile_erasure_subject_not_found" S db
  .ok { db with users := updateAt S (anonymiseProfile S) db.users }

/-- The provider of data subject requests. -/
def minimiseDsrWorkflow (S : Uuid) (db : ErasureDb) : Except String ErasureDb := do
  let _ ← validateRequest "remaining_erasure" request
  .ok { db with
    dataSubjectRequests := updateWhere (DataSubjectRequest.mentions S)
      (fun _ => DataSubjectRequest.minimised S) db.dataSubjectRequests }

/-- `_build_snapshot` and `_run_core_providers`. -/
def runCoreProviders (S : Uuid) (db : ErasureDb) : Except String ErasureDb := do
  let subject ← findSubject "erasure_orchestration_subject_not_found" S db
  let email := normaliseOptionalEmail text subject.email
  let inviteIds := idsWhere (inviteSelected text S email) db.invites
  let db ← minimiseAuditEvents text times request db
  let db ← scrubOutbox text times request email inviteIds db
  let db ← anonymiseInvites text times request email db
  let db ← minimisePlatformStaff request S db
  let db ← minimiseExportArtifacts request S db
  let db ← minimiseGovernance request S db
  let db ← anonymiseUserProfile request db
  minimiseDsrWorkflow request S db

/-! ## The orchestration -/

inductive ErasureStatus where
  | completed
  | alreadyCompleted
  | failed (reasonCode : String)
  deriving DecidableEq

/-- `_lock_and_validate_request`. -/
def lockAndValidateRequest (id : Uuid) (db : ErasureDb) : Except String DataSubjectRequest :=
  match db.dataSubjectRequests.lookup id with
  | none => .error "erasure_orchestration_request_not_found"
  | some request => do
      raiseIf (request.requestType ≠ .erase) "erasure_orchestration_requires_erase_request"
      if request.executionStatus = .ready then .ok request
      else do
        raiseIf (request.status ≠ .approved) "erasure_orchestration_requires_approved_request"
        raiseIf (request.executionStatus = .processing) "erasure_orchestration_already_processing"
        raiseIf request.subjectUserId.isNone "erasure_orchestration_requires_subject_user"
        .ok request

/-- The subject of a request. -/
def ErasureDb.subjectOf (id : Uuid) (db : ErasureDb) : Option Uuid :=
  (db.dataSubjectRequests.lookup id).bind DataSubjectRequest.subjectUserId

/-- The address that the providers take for the one of the subject. -/
def ErasureDb.emailOf (S : Uuid) (db : ErasureDb) : Option String :=
  normaliseOptionalEmail text ((db.users.lookup S).bind fun user => user.email)

/-- A change of the executed request. -/
def ErasureDb.changeRequest (id : Uuid) (change : DataSubjectRequest → DataSubjectRequest)
    (db : ErasureDb) : ErasureDb :=
  { db with dataSubjectRequests := updateAt id change db.dataSubjectRequests }

/-- `execute_core_erasure_for_approved_request`. The providers run inside a savepoint, so that a
    failure leaves what was there before them. -/
def executeCoreErasure (id : Uuid) (db : ErasureDb) :
    Except String (ErasureStatus × ErasureDb) := do
  let request ← lockAndValidateRequest id db
  if request.executionStatus = .ready then .ok (.alreadyCompleted, db)
  else match request.subjectUserId with
    | none => .error "erasure_orchestration_requires_subject_user"
    | some S =>
        let processing := db.changeRequest id (DataSubjectRequest.markedProcessing times.now)
        match runCoreProviders text times (request.markedProcessing times.now) S processing with
        | .error reasonCode => .ok (.failed reasonCode,
            processing.changeRequest id (DataSubjectRequest.markedFailed reasonCode times.now))
        | .ok erased => .ok (.completed,
            erased.changeRequest id (DataSubjectRequest.markedReady times.now))

end

end SaasTemplate.Privacy.SubjectErasure
