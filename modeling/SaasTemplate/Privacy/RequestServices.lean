import SaasTemplate.Privacy.Statements

/-! # Data-subject requests: the services

Objects are shared within a session: where a service reads a row it has read before, it
goes on with the object it has. What lies outside is a parameter: the checks on
idempotency keys, their digests, whether a represented user exists, and which error the
check of the executor or a provider raises.
-/

namespace SaasTemplate.Privacy

open SaasTemplate.Isolation SaasTemplate.Isolation.Prog

abbrev Tx (α : Type) : Type := Prog Statement Answer AppError α

/-- Await one statement. -/
abbrev sql (s : Statement) : Tx (Answer s) := stmt s

/-- `async with session.begin()`. -/
def inTransaction {α : Type} (body : Tx α) : Tx α := transaction .commit .rollback body

def requestNotFound : AppError := .notFound "Data subject request not found"

/-! ## Submitting -/

structure SubmitCall where
  newRequestId : Uuid
  requesterUserId : Uuid
  requestType : DataSubjectRequestType
  requesterNote : Option String
  subjectUserId : Option Uuid
  requesterRole : RequesterRole
  representativeRelationship : Option String
  representativeAuthorityNote : Option String
  /-- The error of `_validate_idempotency_key_safety`, if it raises one. -/
  unsafeKey : Option AppError
  subjectExists : Bool
  idempotencyKeyHash : Option String
  idempotencyFingerprint : Option String
  legacyFingerprint : Option String

/-- `_build_representative_intake_values`: the subject, the role and the status. -/
def representativeIntakeValues (call : SubmitCall) :
    Except AppError (Uuid × RequesterRole × RepresentativeStatus) :=
  match call.requesterRole with
  | .self =>
      if call.subjectUserId.any (· ≠ call.requesterUserId) then
        .error (.badRequest "subject_user_id is only allowed for representative requests")
      else if call.representativeRelationship.isSome then
        .error (.badRequest "representative_relationship is only allowed for representative requests")
      else if call.representativeAuthorityNote.isSome then
        .error (.badRequest "representative_authority_note is only allowed for representative requests")
      else .ok (call.requesterUserId, .self, .notRequired)
  | .authorisedRepresentative =>
      match call.subjectUserId, call.representativeRelationship,
        call.representativeAuthorityNote with
      | none, _, _ =>
          .error (.badRequest "subject_user_id is required for representative requests")
      | some subject, relationship, note =>
          if subject = call.requesterUserId then
            .error (.badRequest "Representative requests must target a different subject user")
          else match relationship, note with
            | none, _ => .error (.badRequest
                "representative_relationship is required for representative requests")
            | some _, none => .error (.badRequest
                "representative_authority_note is required for representative requests")
            | some relationship, some note =>
                if relationship.length > 64 then .error (.badRequest
                  "Representative relationship exceeds maximum length of 64 characters")
                else if note.length > 2000 then .error (.badRequest
                  "Representative authority note exceeds maximum length of 2000 characters")
                else .ok (subject, .authorisedRepresentative, .pendingVerification)

def dueDays : Duration := 30 * 86400

def idempotencyKeyTtl : Duration := 24 * 3600

/-- A submitted request with the defaults of its columns. -/
def SubmitCall.request (call : SubmitCall) (subject : Uuid) (role : RequesterRole)
    (representativeStatus : RepresentativeStatus) (now createdAt : Time) : DataSubjectRequest where
  requestType := call.requestType
  status := .submitted
  executionStatus := .notStarted
  requesterRole := role
  representativeStatus := representativeStatus
  representativeRelationship := call.representativeRelationship
  representativeAuthorityNote := call.representativeAuthorityNote
  representativeVerifiedAt := none
  representativeVerifiedByUserId := none
  representativeRejectionReasonCode := none
  requesterUserId := some call.requesterUserId
  subjectUserId := some subject
  reviewerUserId := none
  submittedAt := now
  reviewedAt := none
  decidedAt := none
  fulfilledAt := none
  cancelledAt := none
  executionStartedAt := none
  executionCompletedAt := none
  executionFailedAt := none
  executionFailureReasonCode := none
  executionFailureDetail := none
  decisionReasonCode := none
  rejectionReasonCode := none
  requesterNote := call.requesterNote
  internalNote := none
  dueAt := now + dueDays
  idempotencyKeyHash := call.idempotencyKeyHash
  idempotencyFingerprint := call.idempotencyFingerprint
  idempotencyKeyExpiresAt := call.idempotencyKeyHash.map fun _ => now + idempotencyKeyTtl
  createdAt := createdAt

/-- `_idempotency_fingerprint_matches`. -/
def SubmitCall.matchesFingerprint (call : SubmitCall) (existing : DataSubjectRequest) : Bool :=
  existing.idempotencyFingerprint == call.idempotencyFingerprint ||
    call.legacyFingerprint.isSome && existing.idempotencyFingerprint == call.legacyFingerprint &&
      existing.requesterRole == .self && existing.subjectUserId == existing.requesterUserId &&
      existing.representativeRelationship.isNone && existing.representativeAuthorityNote.isNone

/-- The request that an idempotency key already stands for. -/
def existingSubmission (call : SubmitCall) (now : Time) : Tx (Option DataSubjectRequest) :=
  match call.idempotencyKeyHash with
  | none => pure none
  | some hash => do
      sql (.lockRequester call.requesterUserId)
      let existing ← sql (.requestByIdempotencyKey call.requesterUserId hash now)
      match existing with
      | none => pure none
      | some row =>
          if call.matchesFingerprint row.2 then pure (some row.2)
          else raise (.conflict "Idempotency key is already used for another request payload")

def submitRequest (call : SubmitCall) : Tx (Option DataSubjectRequest) := do
  let referenceNow ← sql .now
  raiseIf (call.requesterNote.any (·.length > 2000))
    (.badRequest "Requester note exceeds maximum length of 2000 characters")
  match call.unsafeKey with
  | some e => raise e
  | none =>
      match representativeIntakeValues call with
      | .error e => raise e
      | .ok (subject, role, representativeStatus) => do
          raiseIf (role = .authorisedRepresentative ∧ call.subjectExists = false)
            (.badRequest "Representative subject user was not found")
          let existing ← existingSubmission call referenceNow
          match existing with
          | some request => pure (some request)
          | none => do
              let createdAt ← sql .now
              sql (.insertRequest call.newRequestId
                (call.request subject role representativeStatus referenceNow createdAt))
              let request ← sql (.requestById call.newRequestId)
              sql .recordAuditEvent
              pure request

/-! ## Transitions -/

def getRequest (id : Uuid) : Tx DataSubjectRequest := do
  let found ← sql (.requestById id)
  orRaise found requestNotFound

def statusText : DataSubjectRequestStatus → String
  | .submitted => "submitted"
  | .underReview => "under_review"
  | .approved => "approved"
  | .rejected => "rejected"
  | .fulfilled => "fulfilled"
  | .cancelled => "cancelled"

def representativeStatusText : RepresentativeStatus → String
  | .notRequired => "not_required"
  | .pendingVerification => "pending_verification"
  | .verified => "verified"
  | .rejected => "rejected"

/-- `_transition_status`, after the request was loaded. -/
def transitionLoaded (id : Uuid) (request : DataSubjectRequest)
    (target : DataSubjectRequestStatus) (reviewerUserId : Option Uuid)
    (reasonCode : Option String) (referenceNow : Time) (executionVerified : Bool) :
    Tx DataSubjectRequest := do
  raiseIf (target = .fulfilled ∧ executionVerified = false)
    (.conflict "Use fulfil_request() to fulfil data-subject requests")
  raiseIf (target ∉ request.status.allowedTransitions)
    (.conflict s!"Invalid transition from '{statusText request.status}' to '{statusText target}'")
  raiseIf (target = .approved ∧ request.requestType.isApprovable = false)
    (.conflict "Data-subject request type has no execution policy and cannot be approved")
  raiseIf (target = .approved ∧ request.representativeStatus.allowsApproval = false)
    (.conflict "Authorised representative authority must be verified before approval")
  let updated ← sql (.transitionStatusIfCurrent id request.status
    ⟨target, reviewerUserId, reasonCode, referenceNow⟩)
  match updated with
  | none => do
      let latest ← getRequest id
      raise (.conflict ("Data subject request status changed during transition; " ++
        s!"current status is '{statusText latest.status}'"))
  | some updated => do
      sql .recordAuditEvent
      pure updated

def transitionStatus (id : Uuid) (target : DataSubjectRequestStatus)
    (reviewerUserId : Option Uuid) (reasonCode : Option String) : Tx DataSubjectRequest := do
  raiseIf (target = .fulfilled) (.conflict "Use fulfil_request() to fulfil data-subject requests")
  let referenceNow ← sql .now
  let request ← getRequest id
  transitionLoaded id request target reviewerUserId reasonCode referenceNow false

def markUnderReview (id reviewer : Uuid) : Tx DataSubjectRequest :=
  transitionStatus id .underReview (some reviewer) none

def approveRequest (id reviewer : Uuid) (reasonCode : Option String) : Tx DataSubjectRequest :=
  transitionStatus id .approved (some reviewer) reasonCode

def rejectRequest (id reviewer : Uuid) (reasonCode : String) : Tx DataSubjectRequest :=
  transitionStatus id .rejected (some reviewer) (some reasonCode)

def cancelPlatformRequest (id reviewer : Uuid) : Tx DataSubjectRequest :=
  transitionStatus id .cancelled (some reviewer) none

def cancelOwnRequest (id requester : Uuid) : Tx DataSubjectRequest := do
  let found ← sql (.requestForRequester id requester)
  let request ← orRaise found requestNotFound
  raiseIf (request.status.isReviewable = false)
    (.conflict "Request cannot be cancelled in current state")
  let referenceNow ← sql .now
  let _ ← getRequest id
  transitionLoaded id request .cancelled (some requester) none referenceNow false

/-! ## Representatives -/

/-- `_update_representative_authority_if_current`, with its checks. -/
def reviewRepresentative (id : Uuid) (request : DataSubjectRequest)
    (values : DataSubjectRequest.Review) : Tx DataSubjectRequest := do
  raiseIf (request.requesterRole ≠ .authorisedRepresentative)
    (.conflict ("Representative authority review is only valid for " ++
      "authorised-representative requests"))
  raiseIf (request.status.isReviewable = false)
    (.conflict ("Representative authority cannot be changed after the request has been " ++
      "decided, fulfilled or cancelled"))
  let updated ← sql (.updateRepresentativeIfCurrent id request.status
    request.representativeStatus values)
  match updated with
  | none => do
      let latest ← getRequest id
      raiseIf (latest.status ≠ request.status)
        (.conflict ("Data subject request status changed during representative authority " ++
          s!"review; current status is '{statusText latest.status}'"))
      raise (.conflict ("Representative authority status changed during review; current " ++
        s!"representative status is '{representativeStatusText latest.representativeStatus}'"))
  | some updated => do
      sql .recordAuditEvent
      pure updated

def verifyRepresentativeAuthority (id reviewer : Uuid) : Tx DataSubjectRequest := do
  let referenceNow ← sql .now
  let request ← getRequest id
  reviewRepresentative id request (.verify referenceNow reviewer)

def rejectRepresentativeAuthority (id : Uuid) (reasonCode : String) : Tx DataSubjectRequest := do
  let request ← getRequest id
  reviewRepresentative id request (.reject reasonCode)

/-! ## Fulfilment -/

/-- `_is_ready_export_artifact_usable`. -/
def isReadyExportArtifactUsable (now : Time) (a : ExportArtifact) : Bool :=
  a.status == .ready && decide (now < a.expiresAt)

def requestTypeText : DataSubjectRequestType → String
  | .access => "access"
  | .export => "export"
  | .erase => "erase"
  | .rectify => "rectify"
  | .restrict => "restrict"
  | .object => "object"
  | .portability => "portability"

def ensureExecutionReadyForFulfilment (id : Uuid) (request : DataSubjectRequest) : Tx Unit := do
  raiseIf (request.requestType.isApprovable = false)
    (.conflict ("Execution pipeline is not implemented for " ++
      s!"'{requestTypeText request.requestType}' data-subject requests"))
  if request.requestType = .erase then
    raiseIf (request.executionStatus ≠ .ready)
      (.conflict ("Erase data-subject requests require successful erasure execution " ++
        "before fulfilment"))
  else do
    let artifacts ← sql (.artifactsOfRequest id)
    let now ← sql .now
    raiseIf (artifacts.any (fun row => isReadyExportArtifactUsable now row.2) = false)
      (.conflict ("Export data-subject requests require a ready, non-expired export artifact " ++
        "before fulfilment"))
    sql (.noteCheck id now)

/-- `_fulfilment_reviewer_user_id`. -/
def fulfilmentReviewer (request : DataSubjectRequest) (reviewer : Uuid) : Option Uuid :=
  if request.requestType = .erase then none else some reviewer

def fulfilRequest (id reviewer : Uuid) : Tx DataSubjectRequest := do
  let request ← getRequest id
  raiseIf (request.status ≠ .approved) (.conflict "Only approved requests can be fulfilled")
  ensureExecutionReadyForFulfilment id request
  let referenceNow ← sql .now
  let _ ← getRequest id
  transitionLoaded id request .fulfilled (fulfilmentReviewer request reviewer) none referenceNow true

/-! ## Erasure -/

/-- `ErasureExecutionError` and `ErasureOrchestrationError`, as the service reports them. -/
def erasureExecutionAppError (reasonCode : String) : AppError :=
  if reasonCode = "erasure_execution_request_not_found" ∨
      reasonCode = "erasure_orchestration_request_not_found" then requestNotFound
  else if ["erasure_execution_requires_platform_staff", "erasure_execution_requires_active_user",
      "erasure_execution_requires_active_staff", "erasure_execution_requires_privileged_staff",
      "erasure_execution_requires_non_subject_executor"].contains reasonCode then
    .forbidden "Platform access denied"
  else .conflict "Erasure execution is not eligible in the current state"

structure EraseCall where
  requestId : Uuid
  executorUserId : Uuid
  /-- The reason code of `_lock_authorised_executor`, if it raises. -/
  executorRefused : Option String
  /-- The reason code of a failing provider. -/
  failureReasonCode : AppError → String

/-- `_lock_and_validate_request`. -/
def lockAndValidateRequest (id : Uuid) : Tx DataSubjectRequest := do
  let found ← sql (.lockRequest id)
  let request ← orRaise found (erasureExecutionAppError "erasure_orchestration_request_not_found")
  raiseIf (request.requestType ≠ .erase)
    (erasureExecutionAppError "erasure_orchestration_requires_erase_request")
  if request.executionStatus = .ready then pure request
  else do
    raiseIf (request.status ≠ .approved)
      (erasureExecutionAppError "erasure_orchestration_requires_approved_request")
    raiseIf (request.executionStatus = .processing)
      (erasureExecutionAppError "erasure_orchestration_already_processing")
    raiseIf (request.subjectUserId.isNone = true)
      (erasureExecutionAppError "erasure_orchestration_requires_subject_user")
    pure request

/-- The provider for export artifacts. -/
def minimiseExportArtifacts (subject : Uuid) : Tx Unit := do
  let ids ← sql (.artifactIdsMentioning subject)
  let rows ← collect ids fun id => do
    let row ← sql (.lockArtifactMentioning id subject)
    pure (row.map fun row => (id, row))
  raiseIf (rows.any (·.2.status == .processing) = true)
    (.external "export_artifact_erasure_processing_active")
  forEach rows fun row =>
    sql (.flushArtifact .eraseSubject row.1 row.2 (row.2.minimised subject))

/-- The provider for data-subject requests. -/
def minimiseDsrWorkflow (subject : Uuid) : Tx Unit := do
  let ids ← sql (.requestIdsMentioning subject)
  let rows ← collect ids fun id => do
    let row ← sql (.lockRequestMentioning id subject)
    pure (row.map fun row => (id, row))
  forEach rows fun row => sql (.flushRequest row.1 row.2 (row.2.minimised subject))

/-- The providers inside their savepoint; it says how they ended. -/
def runProviders (id subject : Uuid) : Tx (Except AppError Unit) := do
  let saved ← sql .savepoint
  let ended ← attempt do
    sql (.coreProviders id)
    minimiseExportArtifacts subject
    minimiseDsrWorkflow subject
    sql (.markErased id)
  match ended with
  | .ok () => pure (.ok ())
  | .error e => do
      sql (.rollbackTo saved)
      pure (.error e)

/-- `execute_core_erasure_for_approved_request`: the request object as it is afterwards. -/
def executeCoreErasure (call : EraseCall) (now : Time) : Tx DataSubjectRequest := do
  let request ← lockAndValidateRequest call.requestId
  match request.executionStatus, request.subjectUserId with
  | .ready, _ => pure request
  | _, none => raise (erasureExecutionAppError "erasure_orchestration_requires_subject_user")
  | _, some subject => do
      let processing := request.markedProcessing now
      sql (.flushRequest call.requestId request processing)
      let ended ← runProviders call.requestId subject
      match ended with
      | .error e => do
          let failed := processing.markedFailed (call.failureReasonCode e) now
          sql (.flushRequest call.requestId processing failed)
          pure failed
      | .ok () => do
          let erased := processing.minimised subject
          sql (.flushRequest call.requestId erased (erased.markedReady now))
          pure (erased.markedReady now)

def executeApprovedErasureRequest (call : EraseCall) : Tx DataSubjectRequest := do
  let referenceNow ← sql .now
  sql (.lockExecutor call.executorUserId)
  match call.executorRefused with
  | some reasonCode => raise (erasureExecutionAppError reasonCode)
  | none => do
      let found ← sql (.lockRequest call.requestId)
      let locked ← orRaise found (erasureExecutionAppError "erasure_execution_request_not_found")
      raiseIf (locked.subjectUserId = some call.executorUserId)
        (erasureExecutionAppError "erasure_execution_requires_non_subject_executor")
      let request ← executeCoreErasure call referenceNow
      sql .recordAuditEvent
      let _ ← getRequest call.requestId
      if request.requestType = .erase ∧ request.status = .approved ∧
          request.executionStatus = .ready then do
        let fulfilNow ← sql .now
        let _ ← getRequest call.requestId
        transitionLoaded call.requestId request .fulfilled
          (fulfilmentReviewer request call.executorUserId) none fulfilNow true
      else pure request

/-! ## Requests of the API -/

/-- An operation on data-subject requests. -/
inductive RequestOp where
  | submit (call : SubmitCall)
  | markUnderReview (id reviewer : Uuid)
  | approve (id reviewer : Uuid) (reasonCode : Option String)
  | reject (id reviewer : Uuid) (reasonCode : String)
  | cancelOwn (id requester : Uuid)
  | cancelPlatform (id reviewer : Uuid)
  | verifyRepresentative (id reviewer : Uuid)
  | rejectRepresentative (id : Uuid) (reasonCode : String)
  | fulfil (id reviewer : Uuid)
  | executeErasure (call : EraseCall)

/-- The work of an operation, without its result. -/
def RequestOp.work : RequestOp → Tx Unit
  | .submit submission => do let _ ← submitRequest submission
  | .markUnderReview id reviewer => do let _ ← Privacy.markUnderReview id reviewer
  | .approve id reviewer reasonCode => do let _ ← approveRequest id reviewer reasonCode
  | .reject id reviewer reasonCode => do let _ ← rejectRequest id reviewer reasonCode
  | .cancelOwn id requester => do let _ ← cancelOwnRequest id requester
  | .cancelPlatform id reviewer => do let _ ← cancelPlatformRequest id reviewer
  | .verifyRepresentative id reviewer => do let _ ← verifyRepresentativeAuthority id reviewer
  | .rejectRepresentative id reasonCode => do let _ ← rejectRepresentativeAuthority id reasonCode
  | .fulfil id reviewer => do let _ ← fulfilRequest id reviewer
  | .executeErasure execution => do let _ ← executeApprovedErasureRequest execution

end SaasTemplate.Privacy
