import SaasTemplate.Outbox.Model

/-! # Data-subject requests and export artifacts

The rows that the privacy services read and write, and the changes of a loaded object. A
flush writes the columns in which the object differs from what was loaded.
-/

namespace SaasTemplate.Privacy

open SaasTemplate.Outbox (written)

inductive DataSubjectRequestType where
  | access | «export» | erase | rectify | restrict | object | portability
  deriving DecidableEq, Repr

inductive DataSubjectRequestStatus where
  | submitted | underReview | approved | rejected | fulfilled | cancelled
  deriving DecidableEq, Repr

inductive ExecutionStatus where
  | notStarted | queued | processing | ready | failed | partiallyFulfilled | delivered
  deriving DecidableEq, Repr

inductive RequesterRole where
  | self | authorisedRepresentative
  deriving DecidableEq, Repr

inductive RepresentativeStatus where
  | notRequired | pendingVerification | verified | rejected
  deriving DecidableEq, Repr

inductive ExportArtifactStatus where
  | queued | processing | ready | failed | expired | cancelled
  deriving DecidableEq, Repr

inductive StorageBackend where
  | «local» | s3Compatible
  deriving DecidableEq, Repr

/-! ## Requests -/

structure DataSubjectRequest where
  requestType : DataSubjectRequestType
  status : DataSubjectRequestStatus
  executionStatus : ExecutionStatus
  requesterRole : RequesterRole
  representativeStatus : RepresentativeStatus
  representativeRelationship : Option String
  representativeAuthorityNote : Option String
  representativeVerifiedAt : Option Time
  representativeVerifiedByUserId : Option Uuid
  representativeRejectionReasonCode : Option String
  requesterUserId : Option Uuid
  subjectUserId : Option Uuid
  reviewerUserId : Option Uuid
  submittedAt : Time
  reviewedAt : Option Time
  decidedAt : Option Time
  fulfilledAt : Option Time
  cancelledAt : Option Time
  executionStartedAt : Option Time
  executionCompletedAt : Option Time
  executionFailedAt : Option Time
  executionFailureReasonCode : Option String
  executionFailureDetail : Option String
  decisionReasonCode : Option String
  rejectionReasonCode : Option String
  requesterNote : Option String
  internalNote : Option String
  dueAt : Time
  idempotencyKeyHash : Option String
  idempotencyFingerprint : Option String
  idempotencyKeyExpiresAt : Option Time
  createdAt : Time
  deriving DecidableEq, Repr

/-- `_ALLOWED_TRANSITIONS[status]`. -/
def DataSubjectRequestStatus.allowedTransitions :
    DataSubjectRequestStatus → List DataSubjectRequestStatus
  | .submitted => [.underReview, .approved, .cancelled]
  | .underReview => [.approved, .rejected, .cancelled]
  | .approved => [.fulfilled, .cancelled]
  | .rejected | .fulfilled | .cancelled => []

/-- `_APPROVABLE_REQUEST_TYPES`, which is also `_FULFILMENT_PIPELINE_REQUEST_TYPES`. -/
def DataSubjectRequestType.isApprovable : DataSubjectRequestType → Bool
  | .export | .erase => true
  | _ => false

/-- `_REPRESENTATIVE_APPROVAL_STATUSES`. -/
def RepresentativeStatus.allowsApproval : RepresentativeStatus → Bool
  | .notRequired | .verified => true
  | _ => false

/-- `_REPRESENTATIVE_REVIEWABLE_REQUEST_STATUSES`. -/
def DataSubjectRequestStatus.isReviewable : DataSubjectRequestStatus → Bool
  | .submitted | .underReview => true
  | _ => false

namespace DataSubjectRequest

/-- The values of a status transition, as `_build_transition_values` builds them. -/
structure Transition where
  nextStatus : DataSubjectRequestStatus
  reviewerUserId : Option Uuid
  reasonCode : Option String
  referenceNow : Time
  deriving DecidableEq, Repr

def Transition.apply (v : Transition) (r : DataSubjectRequest) : DataSubjectRequest :=
  let decides := v.nextStatus = .approved ∨ v.nextStatus = .rejected
  { r with
    status := v.nextStatus
    reviewerUserId := v.reviewerUserId
    reviewedAt := if v.nextStatus = .underReview then some v.referenceNow else r.reviewedAt
    decidedAt := if decides then some v.referenceNow else r.decidedAt
    fulfilledAt := if v.nextStatus = .fulfilled then some v.referenceNow else r.fulfilledAt
    cancelledAt := if v.nextStatus = .cancelled then some v.referenceNow else r.cancelledAt
    rejectionReasonCode := if v.nextStatus = .rejected then v.reasonCode else r.rejectionReasonCode
    decisionReasonCode := if v.nextStatus = .approved then v.reasonCode else r.decisionReasonCode }

/-- The values of a representative review. -/
inductive Review where
  | verify (referenceNow : Time) (reviewerUserId : Uuid)
  | reject (reasonCode : String)
  deriving DecidableEq, Repr

def Review.apply (v : Review) (r : DataSubjectRequest) : DataSubjectRequest :=
  match v with
  | .verify referenceNow reviewerUserId => { r with
      representativeStatus := .verified, representativeVerifiedAt := some referenceNow
      representativeVerifiedByUserId := some reviewerUserId
      representativeRejectionReasonCode := none }
  | .reject reasonCode => { r with
      representativeStatus := .rejected, representativeVerifiedAt := none
      representativeVerifiedByUserId := none
      representativeRejectionReasonCode := some reasonCode }

def markedProcessing (now : Time) (r : DataSubjectRequest) : DataSubjectRequest :=
  { r with
    executionStatus := .processing, executionStartedAt := some now, executionCompletedAt := none
    executionFailedAt := none, executionFailureReasonCode := none, executionFailureDetail := none }

def markedReady (now : Time) (r : DataSubjectRequest) : DataSubjectRequest :=
  { r with
    executionStatus := .ready, executionCompletedAt := some now, executionFailedAt := none
    executionFailureReasonCode := none, executionFailureDetail := none }

/-- `reason_code[:64]`. -/
def shortCode (code : String) : String := String.ofList (code.toList.take 64)

def markedFailed (reasonCode : String) (now : Time) (r : DataSubjectRequest) : DataSubjectRequest :=
  { r with
    executionStatus := .failed, executionFailedAt := some now
    executionFailureReasonCode := some (shortCode reasonCode), executionFailureDetail := none }

/-- A link to the erased subject is cleared. -/
def unlink (subject : Uuid) (link : Option Uuid) : Option Uuid :=
  if link = some subject then none else link

/-- What the erasure of `subject` leaves of a request that mentions it. -/
def minimised (subject : Uuid) (r : DataSubjectRequest) : DataSubjectRequest :=
  let owned := r.requesterUserId = some subject ∨ r.subjectUserId = some subject
  let clear {α : Type} (value : Option α) : Option α := if owned then none else value
  { r with
    requesterUserId := unlink subject r.requesterUserId
    subjectUserId := unlink subject r.subjectUserId
    reviewerUserId := unlink subject r.reviewerUserId
    representativeVerifiedByUserId := unlink subject r.representativeVerifiedByUserId
    requesterNote := clear r.requesterNote
    representativeRelationship := clear r.representativeRelationship
    representativeAuthorityNote := clear r.representativeAuthorityNote
    representativeRejectionReasonCode := clear r.representativeRejectionReasonCode
    internalNote := clear r.internalNote
    executionFailureDetail := clear r.executionFailureDetail
    idempotencyKeyHash := clear r.idempotencyKeyHash
    idempotencyFingerprint := clear r.idempotencyFingerprint
    idempotencyKeyExpiresAt := clear r.idempotencyKeyExpiresAt }

/-- The rows that the erasure of `subject` minimises. -/
def mentions (subject : Uuid) (r : DataSubjectRequest) : Bool :=
  r.subjectUserId == some subject || r.requesterUserId == some subject ||
    r.reviewerUserId == some subject || r.representativeVerifiedByUserId == some subject

/-- The `UPDATE` that flushes an object loaded as `loaded` and changed to `assigned`, on a
    row that is at `current` by then. -/
def flush (loaded assigned current : DataSubjectRequest) : DataSubjectRequest where
  requestType := written loaded.requestType assigned.requestType current.requestType
  status := written loaded.status assigned.status current.status
  executionStatus :=
    written loaded.executionStatus assigned.executionStatus current.executionStatus
  requesterRole := written loaded.requesterRole assigned.requesterRole current.requesterRole
  representativeStatus :=
    written loaded.representativeStatus assigned.representativeStatus current.representativeStatus
  representativeRelationship := written loaded.representativeRelationship
    assigned.representativeRelationship current.representativeRelationship
  representativeAuthorityNote := written loaded.representativeAuthorityNote
    assigned.representativeAuthorityNote current.representativeAuthorityNote
  representativeVerifiedAt := written loaded.representativeVerifiedAt
    assigned.representativeVerifiedAt current.representativeVerifiedAt
  representativeVerifiedByUserId := written loaded.representativeVerifiedByUserId
    assigned.representativeVerifiedByUserId current.representativeVerifiedByUserId
  representativeRejectionReasonCode := written loaded.representativeRejectionReasonCode
    assigned.representativeRejectionReasonCode current.representativeRejectionReasonCode
  requesterUserId :=
    written loaded.requesterUserId assigned.requesterUserId current.requesterUserId
  subjectUserId := written loaded.subjectUserId assigned.subjectUserId current.subjectUserId
  reviewerUserId := written loaded.reviewerUserId assigned.reviewerUserId current.reviewerUserId
  submittedAt := written loaded.submittedAt assigned.submittedAt current.submittedAt
  reviewedAt := written loaded.reviewedAt assigned.reviewedAt current.reviewedAt
  decidedAt := written loaded.decidedAt assigned.decidedAt current.decidedAt
  fulfilledAt := written loaded.fulfilledAt assigned.fulfilledAt current.fulfilledAt
  cancelledAt := written loaded.cancelledAt assigned.cancelledAt current.cancelledAt
  executionStartedAt :=
    written loaded.executionStartedAt assigned.executionStartedAt current.executionStartedAt
  executionCompletedAt :=
    written loaded.executionCompletedAt assigned.executionCompletedAt current.executionCompletedAt
  executionFailedAt :=
    written loaded.executionFailedAt assigned.executionFailedAt current.executionFailedAt
  executionFailureReasonCode := written loaded.executionFailureReasonCode
    assigned.executionFailureReasonCode current.executionFailureReasonCode
  executionFailureDetail := written loaded.executionFailureDetail
    assigned.executionFailureDetail current.executionFailureDetail
  decisionReasonCode :=
    written loaded.decisionReasonCode assigned.decisionReasonCode current.decisionReasonCode
  rejectionReasonCode :=
    written loaded.rejectionReasonCode assigned.rejectionReasonCode current.rejectionReasonCode
  requesterNote := written loaded.requesterNote assigned.requesterNote current.requesterNote
  internalNote := written loaded.internalNote assigned.internalNote current.internalNote
  dueAt := written loaded.dueAt assigned.dueAt current.dueAt
  idempotencyKeyHash :=
    written loaded.idempotencyKeyHash assigned.idempotencyKeyHash current.idempotencyKeyHash
  idempotencyFingerprint := written loaded.idempotencyFingerprint
    assigned.idempotencyFingerprint current.idempotencyFingerprint
  idempotencyKeyExpiresAt := written loaded.idempotencyKeyExpiresAt
    assigned.idempotencyKeyExpiresAt current.idempotencyKeyExpiresAt
  createdAt := written loaded.createdAt assigned.createdAt current.createdAt

end DataSubjectRequest

/-! ## Artifacts -/

structure ExportArtifact where
  dataSubjectRequestId : Uuid
  subjectUserId : Option Uuid
  requesterUserId : Option Uuid
  status : ExportArtifactStatus
  storageBackend : StorageBackend
  storageKey : Option String
  filename : Option String
  contentType : Option String
  sizeBytes : Option Nat
  checksumSha256 : Option String
  requestedByUserId : Option Uuid
  generatedByUserId : Option Uuid
  failureReasonCode : Option String
  failureDetail : Option String
  queuedAt : Time
  startedAt : Option Time
  processingToken : Option String
  processingLeaseExpiresAt : Option Time
  completedAt : Option Time
  failedAt : Option Time
  expiresAt : Time
  downloadedAt : Option Time
  downloadCount : Nat
  createdAt : Time
  deriving DecidableEq, Repr

def subjectErasureCancelledExportReason : String := "subject_erasure_requested"

namespace ExportArtifact

def isProcessingWith (token : String) (a : ExportArtifact) : Bool :=
  a.status == .processing && a.processingToken == some token

def claimed (now : Time) (token : String) (leaseExpiresAt : Time) (a : ExportArtifact) :
    ExportArtifact :=
  { a with
    status := .processing, startedAt := some now, processingToken := some token
    processingLeaseExpiresAt := some leaseExpiresAt }

def renewed (leaseExpiresAt : Time) (a : ExportArtifact) : ExportArtifact :=
  { a with processingLeaseExpiresAt := some leaseExpiresAt }

/-- `processing_lease_expires_at < now`, for an artifact in processing. -/
def isStale (now : Time) (a : ExportArtifact) : Bool :=
  a.status == .processing && a.processingLeaseExpiresAt.any (· < now)

def recovered (a : ExportArtifact) : ExportArtifact :=
  { a with
    status := .queued, startedAt := none, processingToken := none
    processingLeaseExpiresAt := none }

/-- The metadata of a stored archive. -/
structure Metadata where
  filename : String
  contentType : String
  sizeBytes : Nat
  checksumSha256 : String
  deriving DecidableEq, Repr

def withMetadata (m : Metadata) (a : ExportArtifact) : ExportArtifact :=
  { a with
    filename := some m.filename, contentType := some m.contentType
    sizeBytes := some m.sizeBytes, checksumSha256 := some m.checksumSha256 }

def withoutMetadata (a : ExportArtifact) : ExportArtifact :=
  { a with filename := none, contentType := none, sizeBytes := none, checksumSha256 := none }

def hasMetadata (m : Metadata) (a : ExportArtifact) : Bool :=
  a.filename == some m.filename && a.contentType == some m.contentType &&
    a.sizeBytes == some m.sizeBytes && a.checksumSha256 == some m.checksumSha256

def markedReady (completedAt : Time) (a : ExportArtifact) : ExportArtifact :=
  { a with
    status := .ready, completedAt := some completedAt, processingToken := none
    processingLeaseExpiresAt := none }

/-- `detail[:255]`. -/
def shortDetail (detail : String) : String := String.ofList (detail.toList.take 255)

def markedFailed (reasonCode detail : String) (failedAt : Time) (a : ExportArtifact) :
    ExportArtifact :=
  { a with
    status := .failed, failureReasonCode := some reasonCode
    failureDetail := some (shortDetail detail), failedAt := some failedAt
    processingToken := none, processingLeaseExpiresAt := none }

def isExpiredReady (now : Time) (a : ExportArtifact) : Bool :=
  a.status == .ready && decide (a.expiresAt ≤ now)

def markedExpired (a : ExportArtifact) : ExportArtifact :=
  { a with status := .expired, processingToken := none, processingLeaseExpiresAt := none }

def withoutStorage (a : ExportArtifact) : ExportArtifact :=
  { a.withoutMetadata with storageKey := none }

/-- `_is_non_downloadable_storage_purge_retry`. -/
def isPurgeable (a : ExportArtifact) : Bool :=
  a.status == .expired || a.status == .failed ||
    a.status == .cancelled && a.failureReasonCode == some subjectErasureCancelledExportReason

def isOwnedBy (subject : Uuid) (a : ExportArtifact) : Bool :=
  a.subjectUserId == some subject || a.requesterUserId == some subject

/-- The rows that the erasure of `subject` locks. -/
def mentions (subject : Uuid) (a : ExportArtifact) : Bool :=
  a.isOwnedBy subject || a.requestedByUserId == some subject ||
    a.generatedByUserId == some subject

/-- What the erasure of `subject` leaves of an artifact that mentions it. -/
def minimised (subject : Uuid) (a : ExportArtifact) : ExportArtifact :=
  let retryable := a.isOwnedBy subject &&
    (a.storageKey.isSome || a.status == .queued || a.status == .ready)
  let unlink := DataSubjectRequest.unlink subject
  let clear {α : Type} (value : Option α) : Option α :=
    if a.isOwnedBy subject then none else value
  { a with
    status := if retryable then .cancelled else a.status
    failureReasonCode :=
      if retryable then some subjectErasureCancelledExportReason else a.failureReasonCode
    subjectUserId := unlink a.subjectUserId, requesterUserId := unlink a.requesterUserId
    requestedByUserId := unlink a.requestedByUserId
    generatedByUserId := unlink a.generatedByUserId
    filename := clear a.filename, contentType := clear a.contentType
    sizeBytes := clear a.sizeBytes, checksumSha256 := clear a.checksumSha256
    failureDetail := clear a.failureDetail, processingToken := clear a.processingToken
    processingLeaseExpiresAt := clear a.processingLeaseExpiresAt }

/-- The `UPDATE` that flushes an object loaded as `loaded` and changed to `assigned`, on a
    row that is at `current` by then. -/
def flush (loaded assigned current : ExportArtifact) : ExportArtifact where
  dataSubjectRequestId := written loaded.dataSubjectRequestId assigned.dataSubjectRequestId
    current.dataSubjectRequestId
  subjectUserId := written loaded.subjectUserId assigned.subjectUserId current.subjectUserId
  requesterUserId :=
    written loaded.requesterUserId assigned.requesterUserId current.requesterUserId
  status := written loaded.status assigned.status current.status
  storageBackend := written loaded.storageBackend assigned.storageBackend current.storageBackend
  storageKey := written loaded.storageKey assigned.storageKey current.storageKey
  filename := written loaded.filename assigned.filename current.filename
  contentType := written loaded.contentType assigned.contentType current.contentType
  sizeBytes := written loaded.sizeBytes assigned.sizeBytes current.sizeBytes
  checksumSha256 := written loaded.checksumSha256 assigned.checksumSha256 current.checksumSha256
  requestedByUserId :=
    written loaded.requestedByUserId assigned.requestedByUserId current.requestedByUserId
  generatedByUserId :=
    written loaded.generatedByUserId assigned.generatedByUserId current.generatedByUserId
  failureReasonCode :=
    written loaded.failureReasonCode assigned.failureReasonCode current.failureReasonCode
  failureDetail := written loaded.failureDetail assigned.failureDetail current.failureDetail
  queuedAt := written loaded.queuedAt assigned.queuedAt current.queuedAt
  startedAt := written loaded.startedAt assigned.startedAt current.startedAt
  processingToken :=
    written loaded.processingToken assigned.processingToken current.processingToken
  processingLeaseExpiresAt := written loaded.processingLeaseExpiresAt
    assigned.processingLeaseExpiresAt current.processingLeaseExpiresAt
  completedAt := written loaded.completedAt assigned.completedAt current.completedAt
  failedAt := written loaded.failedAt assigned.failedAt current.failedAt
  expiresAt := written loaded.expiresAt assigned.expiresAt current.expiresAt
  downloadedAt := written loaded.downloadedAt assigned.downloadedAt current.downloadedAt
  downloadCount := written loaded.downloadCount assigned.downloadCount current.downloadCount
  createdAt := written loaded.createdAt assigned.createdAt current.createdAt

end ExportArtifact

end SaasTemplate.Privacy
