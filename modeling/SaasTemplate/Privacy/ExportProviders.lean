import Mathlib.Data.List.Sort
import SaasTemplate.Audit.Model
import SaasTemplate.Privacy.Model
import SaasTemplate.Privacy.SubjectExport

/-! # The providers of the subject data exporter

What the twelve providers select for a subject, and which fields they copy, mask or leave
out. A row has its links to users and the columns that selections read as fields of their
own; its other columns are read by name. A keyset query yields its rows page by page, in
the order of the sort column and the id.
-/

namespace SaasTemplate

def Audit.AuditTargetType.value : Audit.AuditTargetType → String
  | .organisation => "organisation"
  | .membership => "membership"
  | .invite => "invite"
  | .user => "user"
  | .platformStaff => "platform_staff"
  | .privacyConsent => "privacy_consent"
  | .privacyNotice => "privacy_notice"
  | .dataSubjectRequest => "data_subject_request"
  | .exportArtifact => "export_artifact"

namespace Privacy

def ExportArtifactStatus.value : ExportArtifactStatus → String
  | .queued => "queued"
  | .processing => "processing"
  | .ready => "ready"
  | .failed => "failed"
  | .expired => "expired"
  | .cancelled => "cancelled"

namespace SubjectData

open SaasTemplate.Audit (AuditTargetType)

/-- The columns that are only copied, by name. -/
abbrev Columns := String → PyValue

/-- Some columns, as the members of a payload. -/
def Columns.fields (columns : Columns) (names : List String) : List (String × PyValue) :=
  names.map fun name => (name, columns name)

/-! ## Rows -/

structure UserRow where
  id : Uuid
  email : Option String
  columns : Columns

/-- What each row of a paged table has. -/
structure Row where
  id : Uuid
  /-- The sort column of the pages. -/
  sortKey : Time
  columns : Columns

structure MembershipRow extends Row where
  userId : Uuid
  organisationId : Uuid

structure OrganisationRow extends Row

structure InviteRow extends Row where
  email : String
  revokedByUserId : Option Uuid

structure OutboxRow extends Row where
  aggregateId : Option Uuid
  payloadJson : List (String × PyValue)

structure AuditRow extends Row where
  targetType : AuditTargetType
  targetId : Option Uuid
  actorUserId : Option Uuid
  metadataJson : List (String × PyValue)
  hasReason : Bool
  hasLegalHold : Bool

structure PlatformStaffRow extends Row where
  userId : Uuid
  createdByUserId : Option Uuid

structure RequestRow extends Row where
  requesterUserId : Option Uuid
  subjectUserId : Option Uuid
  reviewerUserId : Option Uuid
  representativeVerifiedByUserId : Option Uuid

structure ArtifactRow extends Row where
  status : ExportArtifactStatus
  subjectUserId : Option Uuid
  requesterUserId : Option Uuid
  requestedByUserId : Option Uuid
  generatedByUserId : Option Uuid

structure PurposeRow where
  id : Uuid
  columns : Columns

structure AuthorizationRow extends Row where
  subjectUserId : Uuid
  purposeId : Uuid

structure ConsentRow extends Row where
  subjectUserId : Uuid
  purposeId : Uuid

structure NoticeRow extends Row where
  subjectUserId : Uuid

/-- The tables that the providers read. -/
structure ExportDb where
  users : List UserRow
  memberships : List MembershipRow
  organisations : List OrganisationRow
  invites : List InviteRow
  outboxEvents : List OutboxRow
  auditEvents : List AuditRow
  platformStaff : List PlatformStaffRow
  dataSubjectRequests : List RequestRow
  exportArtifacts : List ArtifactRow
  purposes : List PurposeRow
  authorizations : List AuthorizationRow
  consentRecords : List ConsentRow
  noticeAcceptances : List NoticeRow

/-- What Python and the database compute on texts. -/
structure ExportText where
  /-- `email.strip().lower()`. -/
  normalised : String → String
  /-- `lower(trim(email))`. -/
  sqlNormalised : String → String
  /-- `payload_json["email"].as_string()`. -/
  payloadEmail : List (String × PyValue) → Option String

/-! ## Queries -/

section
variable {α : Type}

/-- The order of the pages. -/
def pageOrder (row : α → Row) (a b : α) : Prop :=
  (row a).sortKey < (row b).sortKey ∨
    ((row a).sortKey = (row b).sortKey ∧ (row a).id ≤ (row b).id)

instance (row : α → Row) : DecidableRel (pageOrder row) := fun _ _ => inferInstanceAs (Decidable (_ ∨ _))

/-- `_iter_model_keyset`: the selected rows, in the order of the pages. -/
def iterModelKeyset (row : α → Row) (selected : α → Bool) (rows : List α) : List α :=
  (rows.filter selected).insertionSort (pageOrder row)

end

variable (text : ExportText) (S : Uuid)

def getSubjectUser (db : ExportDb) : Option UserRow := db.users.find? fun user => user.id = S

/-- `_get_subject_email`. -/
def getSubjectEmail (db : ExportDb) : Option String :=
  (getSubjectUser S db).bind fun user =>
    match user.email with
    | some email => if email = "" then none else some (text.normalised email)
    | none => none

/-- The invites to the subject, as SQL compares e-mail addresses. -/
def isInviteTo (email : String) (row : InviteRow) : Bool := text.sqlNormalised row.email = email

/-! ## Payloads -/

def uuidOrNone : Option Uuid → PyValue
  | some id => .uuid id
  | none => .null

/-- The fields of a record so far: the payload, and the names of the fields left out. -/
abbrev Fields := List (String × PyValue) × List String

/-- `_include_or_minimise_actor_field`. -/
def includeOrMinimiseActorField (fieldName presenceField : String) (actor : Option Uuid)
    (fields : Fields) : Fields :=
  match actor with
  | none => fields
  | some actor =>
      if actor = S then (fields.1 ++ [(fieldName, .uuid actor)], fields.2)
      else (fields.1 ++ [(presenceField, .bool true)], fields.2 ++ [fieldName])

/-- `_record` of a provider. The values are converted when the record is serialised; to convert
    them here as well changes nothing. -/
def record (provider : ExportProviderType) (recordKind : PrivacyExportRecordKind) (fields : Fields) :
    PrivacyExportRecord where
  providerKey := provider.providerKey
  tableName := provider.tableName
  recordKind := recordKind
  payload := fields.1
  redactedFields := fields.2

def userRecord (row : UserRow) : PrivacyExportRecord :=
  record .userProfile .data
    (("id", .uuid row.id) :: row.columns.fields ["external_auth_id"] ++
      [("email", match row.email with | some email => .str email | none => .null)] ++
      row.columns.fields ["email_verified", "first_name", "last_name", "onboarding_completed",
        "status", "suspended_at", "created_at", "updated_at"],
      ["suspended_reason"])

def membershipRecord (row : MembershipRow) : PrivacyExportRecord :=
  record .membershipsBySubject .data
    ([("id", .uuid row.id), ("user_id", .uuid row.userId),
      ("organisation_id", .uuid row.organisationId)] ++
      row.columns.fields ["role", "is_active", "created_at", "updated_at"], [])

def organisationRecord (row : OrganisationRow) : PrivacyExportRecord :=
  record .organisationsBySubjectMembership .data
    (("id", .uuid row.id) :: row.columns.fields ["name", "slug", "status", "deleted_at",
      "suspended_at", "created_at", "updated_at"], ["suspended_reason"])

/-! ## Invites -/

def isRevokerOnlyRecord (subjectEmail : Option String) (row : InviteRow) : Bool :=
  match row.revokedByUserId, subjectEmail with
  | none, _ => false
  | some _, none => true
  | some _, some email => text.normalised row.email ≠ email

def subjectInviteRecord (row : InviteRow) : PrivacyExportRecord :=
  record .invitesBySubject .data <|
    includeOrMinimiseActorField S "revoked_by_user_id" "has_revoker" row.revokedByUserId
      ([("id", .uuid row.id), ("email", .str row.email)] ++
        row.columns.fields ["organisation_id", "role", "status", "expires_at", "revoked_at",
          "created_at", "updated_at"], ["token_hash"])

def revokerReferenceRecord (row : InviteRow) : PrivacyExportRecord :=
  record .invitesBySubject .reference
    ([("id", .uuid row.id), ("revoked_by_user_id", uuidOrNone row.revokedByUserId)] ++
      row.columns.fields ["status", "revoked_at", "created_at", "updated_at"],
      ["email", "organisation_id", "role", "expires_at", "token_hash"])

def inviteRecord (subjectEmail : Option String) (row : InviteRow) : PrivacyExportRecord :=
  if isRevokerOnlyRecord text subjectEmail row then revokerReferenceRecord row
  else subjectInviteRecord S row

def invitesSelected (subjectEmail : Option String) (row : InviteRow) : Bool :=
  row.revokedByUserId = some S ||
    match subjectEmail with
    | some email => isInviteTo text email row
    | none => false

/-! ## Outbox events -/

/-- `_outbox_payload_reference`. -/
def outboxPayloadReference (payload : List (String × PyValue)) :
    List (String × PyValue) × List String :=
  (payload.filter fun m => m.1 ∈ ["invite_id", "organisation_id", "purpose", "role"],
    (["email", "encrypted_raw_token"].filter fun key => key ∈ payload.map Prod.fst).map
      ("payload_json." ++ ·))

def outboxRecord (row : OutboxRow) : PrivacyExportRecord :=
  record .outboxSubjectReferences .reference
    (("id", .uuid row.id) :: row.columns.fields ["event_type", "aggregate_type"] ++
      [("aggregate_id", uuidOrNone row.aggregateId)] ++
      row.columns.fields ["status", "attempts", "max_attempts", "next_attempt_at", "locked_at",
        "processed_at"] ++
      [("payload_reference", .mapping (outboxPayloadReference row.payloadJson).1)] ++
      row.columns.fields ["created_at", "updated_at"],
      "last_error" :: (outboxPayloadReference row.payloadJson).2)

def outboxSelected (db : ExportDb) (email : String) (row : OutboxRow) : Bool :=
  (match row.aggregateId with
    | some aggregate => db.invites.any fun invite =>
        isInviteTo text email invite && invite.id = aggregate
    | none => false) ||
  match text.payloadEmail row.payloadJson with
    | some payloadEmail => text.sqlNormalised payloadEmail = email
    | none => false

/-! ## Audit events -/

def safeAuditMetadataKeys : List String :=
  ["organisation_id", "invite_role", "invite_status_before", "request_type", "status", "format"]

/-- `_safe_audit_metadata`. -/
def safeAuditMetadata (metadata : List (String × PyValue)) : List (String × PyValue) × List String :=
  (metadata.filter fun m => m.1 ∈ safeAuditMetadataKeys,
    (((metadata.map Prod.fst).filter fun key => key ∉ safeAuditMetadataKeys).mergeSort fun a b =>
      decide (a ≤ b)).map ("metadata_json." ++ ·))

def auditRecord (row : AuditRow) : PrivacyExportRecord :=
  let metadata := safeAuditMetadata row.metadataJson
  let payload := ("id", .uuid row.id) :: row.columns.fields ["category", "action"] ++
    [("target_type", .str row.targetType.value), ("target_id", uuidOrNone row.targetId),
      ("metadata_json", .mapping metadata.1)] ++ row.columns.fields ["created_at"]
  let redacted := (if row.hasReason then ["reason"] else []) ++
    (if row.hasLegalHold then ["legal_hold_until"] else []) ++ metadata.2
  record .auditSubjectEvents .data <|
    if row.actorUserId = some S then
      (payload ++ ("actor_user_id", uuidOrNone row.actorUserId) ::
        row.columns.fields ["ip_address", "user_agent"], redacted)
    else
      (payload ++ [("has_actor", .bool row.actorUserId.isSome)],
        redacted ++ ["actor_user_id", "ip_address", "user_agent"])

/-- `_subject_audit_target_dsr_conditions`. -/
def isAuditTargetRequest (row : RequestRow) : Bool :=
  row.subjectUserId = some S || row.requesterUserId = some S ||
    row.representativeVerifiedByUserId = some S

/-- The users whose e-mail address is compared with the invites' in SQL. -/
def isSubjectInvite (db : ExportDb) (row : InviteRow) : Bool :=
  match (getSubjectUser S db).bind UserRow.email with
  | some email => text.sqlNormalised row.email = text.sqlNormalised email
  | none => false

/-- The target of an event is one of the subject's rows: `_audit_subject_conditions` without the
    actor. -/
def auditTargetSelected (db : ExportDb) (targetType : AuditTargetType) (target : Uuid) :
    Bool :=
  match targetType with
  | .user | .privacyConsent | .privacyNotice => target = S
  | .invite => db.invites.any fun row => isSubjectInvite text S db row && row.id = target
  | .membership => db.memberships.any fun row => row.userId = S && row.id = target
  | .dataSubjectRequest =>
      db.dataSubjectRequests.any fun row => isAuditTargetRequest S row && row.id = target
  | .exportArtifact => db.exportArtifacts.any fun row =>
      row.status = .ready && (row.subjectUserId = some S || row.requesterUserId = some S) &&
        row.id = target
  | .platformStaff => db.platformStaff.any fun row => row.userId = S && row.id = target
  | .organisation => false

def auditSelected (db : ExportDb) (row : AuditRow) : Bool :=
  row.actorUserId = some S ||
    match row.targetId with
    | some target => auditTargetSelected text S db row.targetType target
    | none => false

/-! ## Platform staff -/

def staffSelected (row : PlatformStaffRow) : Bool :=
  row.userId = S || row.createdByUserId = some S

def isCreatorOnlyRecord (row : PlatformStaffRow) : Bool :=
  row.createdByUserId = some S && row.userId ≠ S

def subjectStaffRecord (row : PlatformStaffRow) : PrivacyExportRecord :=
  record .platformStaffBySubject .data <|
    includeOrMinimiseActorField S "created_by_user_id" "has_creator" row.createdByUserId
      ([("id", .uuid row.id), ("user_id", .uuid row.userId)] ++
        row.columns.fields ["role", "status", "suspended_at", "created_at", "updated_at"],
        ["suspended_reason"])

def creatorReferenceRecord (row : PlatformStaffRow) : PrivacyExportRecord :=
  record .platformStaffBySubject .reference
    ([("id", .uuid row.id), ("created_by_user_id", uuidOrNone row.createdByUserId)] ++
      row.columns.fields ["created_at", "updated_at"],
      ["user_id", "role", "status", "suspended_at", "suspended_reason"])

def staffRecord (row : PlatformStaffRow) : PrivacyExportRecord :=
  if isCreatorOnlyRecord S row then creatorReferenceRecord row else subjectStaffRecord S row

/-! ## Data subject requests -/

/-- `_subject_workflow_dsr_conditions`. -/
def requestSelected (row : RequestRow) : Bool :=
  row.subjectUserId = some S || row.requesterUserId = some S || row.reviewerUserId = some S ||
    row.representativeVerifiedByUserId = some S

def isReferenceOnlyRecord (row : RequestRow) : Bool :=
  (row.reviewerUserId = some S || row.representativeVerifiedByUserId = some S) &&
    !(row.subjectUserId = some S || row.requesterUserId = some S)

/-- The reviewer and the verifier, in both kinds of records. -/
def reviewFields (row : RequestRow) (fields : Fields) : Fields :=
  includeOrMinimiseActorField S "representative_verified_by_user_id" "has_representative_verifier"
      row.representativeVerifiedByUserId <|
    includeOrMinimiseActorField S "reviewer_user_id" "has_reviewer" row.reviewerUserId fields

def subjectRequestRecord (row : RequestRow) : PrivacyExportRecord :=
  record .dsrWorkflowRecords .data <| reviewFields S row <|
    includeOrMinimiseActorField S "subject_user_id" "has_subject" row.subjectUserId <|
    includeOrMinimiseActorField S "requester_user_id" "has_requester" row.requesterUserId
      (("id", .uuid row.id) :: row.columns.fields ["request_type", "status", "execution_status",
        "requester_role", "representative_status", "representative_relationship",
        "representative_authority_note", "representative_verified_at",
        "representative_rejection_reason_code", "submitted_at", "acknowledged_at", "reviewed_at",
        "decided_at", "fulfilled_at", "cancelled_at", "execution_started_at",
        "execution_completed_at", "execution_failed_at", "execution_failure_reason_code",
        "decision_reason_code", "rejection_reason_code", "extension_reason_code", "requester_note",
        "due_at", "extended_until", "created_at", "updated_at"],
        ["internal_note", "idempotency_key_hash", "idempotency_fingerprint",
          "idempotency_key_expires_at", "execution_failure_detail"])

def requestReferenceRecord (row : RequestRow) : PrivacyExportRecord :=
  record .dsrWorkflowRecords .reference <| reviewFields S row
    (("id", .uuid row.id) :: row.columns.fields ["status", "execution_status", "reviewed_at",
      "decided_at", "fulfilled_at", "cancelled_at", "created_at", "updated_at"],
      ["request_type", "requester_user_id", "subject_user_id", "submitted_at", "acknowledged_at",
        "due_at", "extended_until", "decision_reason_code", "rejection_reason_code",
        "extension_reason_code", "requester_note", "requester_role", "representative_status",
        "representative_relationship", "representative_authority_note", "representative_verified_at",
        "representative_rejection_reason_code", "internal_note", "idempotency_key_hash",
        "idempotency_fingerprint", "idempotency_key_expires_at", "execution_failure_detail",
        "execution_failure_reason_code"])

def requestRecord (row : RequestRow) : PrivacyExportRecord :=
  if isReferenceOnlyRecord S row then requestReferenceRecord S row else subjectRequestRecord S row

/-! ## Export artifacts -/

def artifactSelected (row : ArtifactRow) : Bool :=
  row.status = .ready && (row.subjectUserId = some S || row.requesterUserId = some S ||
    row.requestedByUserId = some S || row.generatedByUserId = some S)

def isActorOnlyRecord (row : ArtifactRow) : Bool :=
  row.subjectUserId ≠ some S && row.requesterUserId ≠ some S &&
    (row.requestedByUserId = some S || row.generatedByUserId = some S)

def subjectArtifactRecord (row : ArtifactRow) : PrivacyExportRecord :=
  record .exportArtifactMetadata .data <|
    includeOrMinimiseActorField S "generated_by_user_id" "has_generated_by" row.generatedByUserId <|
    includeOrMinimiseActorField S "requested_by_user_id" "has_requested_by" row.requestedByUserId
      (("id", .uuid row.id) :: row.columns.fields ["data_subject_request_id"] ++
        [("subject_user_id", uuidOrNone row.subjectUserId),
          ("requester_user_id", uuidOrNone row.requesterUserId), ("status", .str row.status.value)] ++
        row.columns.fields ["format", "storage_backend", "filename", "content_type", "size_bytes",
          "checksum_sha256", "schema_version", "failure_reason_code", "queued_at", "started_at",
          "completed_at", "failed_at", "expires_at", "download_url_issued_at",
          "download_url_issue_count", "downloaded_at", "download_count", "created_at", "updated_at"],
        ["storage_key", "processing_token", "processing_lease_expires_at", "failure_detail"])

def actorReferenceRecord (row : ArtifactRow) : PrivacyExportRecord :=
  record .exportArtifactMetadata .reference
    ([("id", .uuid row.id),
      ("requested_by_user_id", uuidOrNone (row.requestedByUserId.filter fun id => id = S)),
      ("generated_by_user_id", uuidOrNone (row.generatedByUserId.filter fun id => id = S)),
      ("status", .str row.status.value)] ++
      row.columns.fields ["format", "storage_backend", "failure_reason_code", "queued_at",
        "started_at", "completed_at", "failed_at", "expires_at", "download_url_issued_at",
        "download_url_issue_count", "downloaded_at", "download_count", "created_at", "updated_at"],
      ["data_subject_request_id", "subject_user_id", "requester_user_id", "filename", "content_type",
        "size_bytes", "checksum_sha256", "schema_version", "storage_key", "processing_token",
        "processing_lease_expires_at", "failure_detail"])

def artifactRecord (row : ArtifactRow) : PrivacyExportRecord :=
  if isActorOnlyRecord S row then actorReferenceRecord S row else subjectArtifactRecord S row

/-! ## Governance -/

/-- `_purpose_payload`. -/
def purposePayload (texts : ExportTexts) (purpose : PurposeRow) : PyValue :=
  .mapping <| ("id", .str (texts.uuid purpose.id)) :: purpose.columns.fields ["code", "title",
    "family", "default_lawful_basis", "is_special_category", "default_special_category_condition",
    "requires_active_consent", "active"]

def authorizationRecord (texts : ExportTexts) (row : AuthorizationRow × PurposeRow) :
    PrivacyExportRecord :=
  record .processingAuthorizations .data
    ([("id", .uuid row.1.id), ("subject_user_id", .uuid row.1.subjectUserId),
      ("purpose_id", .uuid row.1.purposeId), ("purpose", purposePayload texts row.2)] ++
      row.1.columns.fields ["lawful_basis", "special_category_condition", "active", "source",
        "valid_from", "valid_until", "revoked_at", "created_at", "updated_at"], [])

def consentRecord (texts : ExportTexts) (row : ConsentRow × PurposeRow) : PrivacyExportRecord :=
  record .consentRecords .data
    ([("id", .uuid row.1.id), ("subject_user_id", .uuid row.1.subjectUserId),
      ("purpose_id", .uuid row.1.purposeId), ("purpose", purposePayload texts row.2)] ++
      row.1.columns.fields ["authorization_id", "privacy_notice_version", "granted_at",
        "withdrawn_at", "withdrawal_reason_code", "created_at", "updated_at"], [])

def noticeRecord (row : NoticeRow) : PrivacyExportRecord :=
  record .privacyNoticeAcceptances .data
    ([("id", .uuid row.id), ("subject_user_id", .uuid row.subjectUserId)] ++
      row.columns.fields ["notice_version", "accepted_at", "source", "created_at", "updated_at"], [])

/-- A join with the purposes. -/
def joinPurposes {α : Type} (purposeId : α → Uuid) (rows : List α) (purposes : List PurposeRow) :
    List (α × PurposeRow) :=
  rows.flatMap fun row => (purposes.filter fun purpose => purpose.id = purposeId row).map (row, ·)

/-! ## All of them -/

/-- The records of a provider for a subject that has a row. -/
def exportRecords (texts : ExportTexts) (db : ExportDb) : ExportProviderType → List PrivacyExportRecord
  | .userProfile => (getSubjectUser S db).toList.map userRecord
  | .membershipsBySubject =>
      (iterModelKeyset MembershipRow.toRow (fun row => row.userId = S) db.memberships).map
        membershipRecord
  | .organisationsBySubjectMembership =>
      (iterModelKeyset OrganisationRow.toRow
        (fun row => db.memberships.any fun m => m.userId = S && m.organisationId = row.id)
        db.organisations).map organisationRecord
  | .invitesBySubject =>
      (iterModelKeyset InviteRow.toRow (invitesSelected text S (getSubjectEmail text S db))
        db.invites).map (inviteRecord text S (getSubjectEmail text S db))
  | .outboxSubjectReferences =>
      match getSubjectEmail text S db with
      | none => []
      | some email =>
          (iterModelKeyset OutboxRow.toRow (outboxSelected text db email) db.outboxEvents).map
            outboxRecord
  | .auditSubjectEvents =>
      (iterModelKeyset AuditRow.toRow (auditSelected text S db) db.auditEvents).map
        (auditRecord S)
  | .platformStaffBySubject =>
      (iterModelKeyset PlatformStaffRow.toRow (staffSelected S) db.platformStaff).map (staffRecord S)
  | .dsrWorkflowRecords =>
      (iterModelKeyset RequestRow.toRow (requestSelected S) db.dataSubjectRequests).map
        (requestRecord S)
  | .exportArtifactMetadata =>
      (iterModelKeyset ArtifactRow.toRow (artifactSelected S) db.exportArtifacts).map
        (artifactRecord S)
  | .processingAuthorizations =>
      (iterModelKeyset (fun row : AuthorizationRow × PurposeRow => row.1.toRow)
        (fun row => row.1.subjectUserId = S)
        (joinPurposes AuthorizationRow.purposeId db.authorizations db.purposes)).map
        (authorizationRecord texts)
  | .consentRecords =>
      (iterModelKeyset (fun row : ConsentRow × PurposeRow => row.1.toRow)
        (fun row => row.1.subjectUserId = S)
        (joinPurposes ConsentRow.purposeId db.consentRecords db.purposes)).map (consentRecord texts)
  | .privacyNoticeAcceptances =>
      (iterModelKeyset NoticeRow.toRow (fun row => row.subjectUserId = S) db.noticeAcceptances).map
        noticeRecord

/-- `iter_export_records` of each provider. -/
def iterExportRecords (texts : ExportTexts) : IterExportRecords ExportDb
  | provider, db, context =>
      if provider = .userProfile ∧ getSubjectUser context.subjectUserId db = none then
        ⟨[], some (.subjectDataExportError ⟨"subject_user_not_found"⟩)⟩
      else ⟨exportRecords text context.subjectUserId texts db provider, none⟩

end SubjectData
end Privacy
end SaasTemplate
