import SaasTemplate.Privacy.RequestServices

/-! # Export artifacts: the services

The operations of the export worker, of the interfaces and of retention, each in the
transaction it runs in. The archive of a request and its storage are outside: the worker
takes what came of them. A refresh of an object is read as the row it shows.
-/

namespace SaasTemplate.Privacy

open SaasTemplate.Isolation SaasTemplate.Isolation.Prog

/-! ## The execution status of a request -/

/-- What an artifact says about the execution of its request. -/
structure ExecutionState where
  status : ExecutionStatus
  eventAt : Option Time
  failureReasonCode : Option String
  failureDetail : Option String
  deriving DecidableEq, Repr

/-- A state without a failure. -/
def ExecutionState.plain (status : ExecutionStatus) (eventAt : Option Time) : ExecutionState :=
  ⟨status, eventAt, none, none⟩

def ExecutionState.expired (a : ExportArtifact) : ExecutionState :=
  ⟨.failed, some a.expiresAt, some "artifact_expired",
    some "Export artifact expired before delivery"⟩

/-- `_latest_export_artifact_for_dsr`: the first of those that were queued last. -/
def latestArtifact (rows : List (Uuid × ExportArtifact)) : Option (Uuid × ExportArtifact) :=
  rows.foldl (fun latest candidate => match latest with
    | none => some candidate
    | some row => if row.2.queuedAt < candidate.2.queuedAt then some candidate else some row) none

/-- `_execution_state_for_dsr`, of the latest artifact. -/
def executionState (now : Time) (a : ExportArtifact) : ExecutionState :=
  if a.downloadedAt.isSome ∨ 0 < a.downloadCount then
    .plain .delivered (some (a.downloadedAt.getD (a.completedAt.getD now)))
  else match a.status with
    | .ready =>
        if now < a.expiresAt then .plain .ready (some (a.completedAt.getD now)) else .expired a
    | .processing =>
        if a.processingLeaseExpiresAt.any (now < ·) then
          .plain .processing (some (a.startedAt.getD now))
        else .plain .queued (some a.queuedAt)
    | .queued => .plain .queued (some a.queuedAt)
    | .expired => .expired a
    | .failed =>
        ⟨.failed, some (a.failedAt.getD (a.startedAt.getD now)), a.failureReasonCode,
          a.failureDetail⟩
    | .cancelled => .plain .notStarted (some now)

def executionStateOf (now : Time) : Option (Uuid × ExportArtifact) → ExecutionState
  | none => .plain .notStarted (some now)
  | some row => executionState now row.2

/-- The assignments of `_sync_export_dsr_execution_state`. -/
def DataSubjectRequest.withExecution (state : ExecutionState) (referenceNow : Time)
    (r : DataSubjectRequest) : DataSubjectRequest :=
  let cleared : DataSubjectRequest := { r with
    executionStatus := state.status, executionFailedAt := none
    executionFailureReasonCode := none, executionFailureDetail := none }
  match state.status with
  | .queued => { cleared with executionStartedAt := none, executionCompletedAt := none }
  | .processing => { cleared with
      executionStartedAt := some (r.executionStartedAt.getD referenceNow)
      executionCompletedAt := none }
  | .ready => { cleared with executionCompletedAt := some referenceNow }
  | .failed => { r with
      executionStatus := state.status, executionCompletedAt := none
      executionFailedAt := some referenceNow
      executionFailureReasonCode := state.failureReasonCode
      executionFailureDetail := state.failureDetail }
  | .delivered => { cleared with
      executionCompletedAt := some (r.executionCompletedAt.getD referenceNow) }
  | .notStarted | .partiallyFulfilled => { r with executionStatus := state.status }

/-- The artifacts of a request, where those in `held` are objects of the session already. -/
def artifactsOfRequest (request : Uuid) (held : List (Uuid × ExportArtifact)) :
    Tx (List (Uuid × ExportArtifact)) := do
  let rows ← sql (.artifactsOfRequest request)
  pure (rows.map fun row => (row.1, (held.lookup row.1).getD row.2))

/-- The state that goes into the request: that of another artifact, if it is the latest. -/
def redirectedState (id : Uuid) (artifact : ExportArtifact) (state : ExecutionState)
    (referenceNow : Time) (held : List (Uuid × ExportArtifact)) : Tx (ExecutionState × Time) := do
  let rows ← artifactsOfRequest artifact.dataSubjectRequestId held
  match latestArtifact rows with
  | none => pure (state, referenceNow)
  | some latest =>
      if latest.1 = id then pure (state, referenceNow)
      else do
        let again ← artifactsOfRequest latest.2.dataSubjectRequestId held
        let derived := executionStateOf referenceNow (latestArtifact again)
        pure (derived, derived.eventAt.getD referenceNow)

/-- `_sync_export_dsr_execution_state`. `request` is the object of the request, if the
    session has it already. -/
def syncExecutionState (id : Uuid) (artifact : ExportArtifact) (state : ExecutionState)
    (request : Option DataSubjectRequest) (held : List (Uuid × ExportArtifact)) : Tx Unit := do
  let now ← sql .now
  let out ← redirectedState id artifact state (state.eventAt.getD now) held
  let found ← sql (.requestById artifact.dataSubjectRequestId)
  match found with
  | none => pure ()
  | some row =>
      let loaded := request.getD row
      if loaded.requestType ≠ .export then pure ()
      else sql (.flushRequest artifact.dataSubjectRequestId loaded (loaded.withExecution out.1 out.2))

/-- The derived state of the request of an artifact. -/
def executionStateForDsr (artifact : ExportArtifact) (now : Time)
    (held : List (Uuid × ExportArtifact)) : Tx ExecutionState := do
  let rows ← artifactsOfRequest artifact.dataSubjectRequestId held
  pure (executionStateOf now (latestArtifact rows))

/-- Flush an artifact and read it again. -/
def saveArtifact (writer : Writer) (id : Uuid) (loaded assigned : ExportArtifact) :
    Tx ExportArtifact := do
  sql (.flushArtifact writer id loaded assigned)
  let refreshed ← sql (.artifactById id)
  pure (refreshed.getD assigned)

/-! ## Asking for an artifact, and delivering it -/

structure ExportSettings where
  enabled : Bool
  storageBackend : StorageBackend
  artifactRetention : Duration
  maxArtifactSizeBytes : Nat

def ensureExportsEnabled (settings : ExportSettings) : Tx Unit :=
  raiseIf (settings.enabled = false) (.conflict "Privacy export artifacts are disabled")

def hasParticipantLinks (r : DataSubjectRequest) : Bool :=
  r.subjectUserId.isSome && r.requesterUserId.isSome

def isExportable (r : DataSubjectRequest) : Bool :=
  r.requestType == .export && r.status == .approved && hasParticipantLinks r

/-- A queued artifact with the defaults of its columns. -/
def queuedArtifact (settings : ExportSettings) (requestId requestedByUserId : Uuid)
    (request : DataSubjectRequest) (queuedAt createdAt : Time) : ExportArtifact where
  dataSubjectRequestId := requestId
  subjectUserId := request.subjectUserId
  requesterUserId := request.requesterUserId
  status := .queued
  storageBackend := settings.storageBackend
  storageKey := none
  filename := none
  contentType := none
  sizeBytes := none
  checksumSha256 := none
  requestedByUserId := some requestedByUserId
  generatedByUserId := none
  failureReasonCode := none
  failureDetail := none
  queuedAt := queuedAt
  startedAt := none
  processingToken := none
  processingLeaseExpiresAt := none
  completedAt := none
  failedAt := none
  expiresAt := queuedAt + settings.artifactRetention
  downloadedAt := none
  downloadCount := 0
  createdAt := createdAt

def requestExportArtifact (settings : ExportSettings) (newId requestId requestedByUserId : Uuid) :
    Tx Unit := do
  ensureExportsEnabled settings
  let request ← getRequest requestId
  raiseIf (isExportable request = false)
    (.conflict "Export artifact can only be requested for approved export data-subject requests")
  let queuedAt ← sql .now
  let createdAt ← sql .now
  let artifact := queuedArtifact settings requestId requestedByUserId request queuedAt createdAt
  sql (.insertArtifact newId artifact)
  syncExecutionState newId artifact (.plain .queued (some queuedAt)) (some request) []
  sql .recordAuditEvent

/-- `_ensure_download_dsr_is_still_eligible`. -/
def ensureStillEligible (artifact : ExportArtifact) : Tx Unit := do
  let request ← sql (.requestById artifact.dataSubjectRequestId)
  raiseIf (request.any (·.isDeliverable) = false)
    (.conflict "Export artifact is no longer eligible for download")

def confirmExportDelivery (settings : ExportSettings) (id : Uuid) : Tx Unit := do
  let found ← sql (.artifactById id)
  let artifact ← orRaise found (.notFound "Export artifact not found")
  ensureExportsEnabled settings
  let now ← sql .now
  raiseIf (artifact.status ≠ .ready) (.conflict "Export artifact is not available for delivery")
  ensureStillEligible artifact
  raiseIf (artifact.expiresAt ≤ now)
    (.conflict "Export artifact delivery cannot be confirmed after expiry")
  raiseIf (artifact.storageKey.isNone = true) (.conflict "Export artifact is missing storage key")
  let newlyConfirmed ← sql (.confirmDelivery id now)
  let refreshed ← sql (.artifactById id)
  let delivered := refreshed.getD artifact
  if newlyConfirmed = false then
    raiseIf (delivered.downloadedAt.isNone = true ∧ delivered.downloadCount = 0)
      (.conflict "Export artifact is no longer available for delivery")
  else do
    syncExecutionState id delivered (.plain .delivered delivered.downloadedAt) none []
    sql .recordAuditEvent

/-! ## The worker -/

def processingLease : Duration := 3600

/-- `FOR UPDATE SKIP LOCKED LIMIT limit` over the ids found. -/
def lockUpTo (limit : Nat) (ids : List Uuid) (lock : Uuid → Tx (Option ExportArtifact)) :
    Tx (List (Uuid × ExportArtifact)) :=
  collectUpTo limit ids fun id => do
    let row ← lock id
    pure (row.map fun row => (id, row))

def recoverStaleProcessing (now : Time) (limit : Nat) : Tx (List (Uuid × ExportArtifact)) := do
  let ids ← sql (.staleArtifactIds now)
  let stale ← lockUpTo limit ids fun id => sql (.lockStaleArtifact id now)
  forEach stale fun row =>
    sql (.flushArtifact .recoverStaleProcessing row.1 row.2 row.2.recovered)
  pure (stale.map fun row => (row.1, row.2.recovered))

/-- Bring the request of an artifact in line with what the artifacts say. -/
def syncDerivedState (now : Time) (row : Uuid × ExportArtifact)
    (held : List (Uuid × ExportArtifact)) : Tx Unit := do
  let state ← executionStateForDsr row.2 now held
  syncExecutionState row.1 row.2 state none held

def recoverStaleProcessingArtifacts (limit : Nat) : Tx Unit := do
  let now ← sql .now
  let recovered ← recoverStaleProcessing now limit
  forEach recovered fun row => syncDerivedState now row []

/-- `claim_queued_batch`; `token` are the fresh tokens. -/
def claimQueuedBatch (limit : Nat) (token : Uuid → String) : Tx (List (Uuid × ExportArtifact)) := do
  let ids ← sql .queuedArtifactIds
  let rows ← lockUpTo limit ids fun id => sql (.lockQueuedArtifact id)
  let now ← sql .now
  let claim (row : Uuid × ExportArtifact) := row.2.claimed now (token row.1) (now + processingLease)
  forEach rows fun row => sql (.flushArtifact .claimQueuedBatch row.1 row.2 (claim row))
  pure (rows.map fun row => (row.1, claim row))

def claimQueuedArtifactLeases (settings : ExportSettings) (batchSize : Nat)
    (token : Uuid → String) : Tx Unit :=
  if settings.enabled = false then pure ()
  else do
    recoverStaleProcessingArtifacts batchSize
    let rows ← claimQueuedBatch batchSize token
    forEach rows fun row =>
      syncExecutionState row.1 row.2 (.plain .processing row.2.startedAt) none []

/-- A renewal that returns `True`: the clock value it counts from, and whether the lease end
    has changed, so that there is a row to commit. -/
structure Renewal where
  now : Time
  writes : Bool
  deriving DecidableEq, Repr

/-- `renew_processing_lease`; it returns `False` as `none`. -/
def renewProcessingLease (id : Uuid) (token : String) : Tx (Option Renewal) := do
  let artifact ← sql (.processingArtifact id token)
  match artifact with
  | none => pure none
  | some artifact => do
      let now ← sql .now
      let renewed := artifact.renewed (now + processingLease)
      sql (.flushArtifact .renewProcessingLease id artifact renewed)
      pure (some ⟨now, renewed ≠ artifact⟩)

/-- An archive whose upload is committed. -/
structure PreparedExportArchive where
  artifactId : Uuid
  storageBackend : StorageBackend
  storageKey : String
  metadata : ExportArtifact.Metadata
  deriving DecidableEq

/-- `_prepared_metadata_matches_artifact`. -/
def PreparedExportArchive.matches (prepared : PreparedExportArchive) (a : ExportArtifact) : Bool :=
  a.storageBackend == prepared.storageBackend && a.storageKey == some prepared.storageKey &&
    a.hasMetadata prepared.metadata

/-- `_prepared_from_committed_upload_intent`. -/
def preparedFromIntent (id : Uuid) (a : ExportArtifact) : Tx PreparedExportArchive :=
  match a.storageKey, a.filename, a.contentType, a.sizeBytes, a.checksumSha256 with
  | some key, some filename, some contentType, some size, some checksum =>
      pure ⟨id, a.storageBackend, key, ⟨filename, contentType, size, checksum⟩⟩
  | _, _, _, _, _ => raise (.conflict "Export artifact upload intent metadata is incomplete")

/-- `prepare_export_archive`. Writing the archive gives its size and checksum, or fails. -/
def prepareExportArchive (settings : ExportSettings) (id : Uuid) (token candidateKey : String)
    (archive : Except AppError (Nat × String)) : Tx PreparedExportArchive := do
  ensureExportsEnabled settings
  let found ← sql (.processingArtifact id token)
  let artifact ← orRaise found (.notFound "Export artifact not found")
  let request ← sql (.requestById artifact.dataSubjectRequestId)
  let request ← orRaise request (.valueError "dsr_not_found")
  raiseIf (isExportable request = false) (.valueError "dsr_not_export_eligible")
  if artifact.storageKey.isSome then preparedFromIntent id artifact
  else match archive with
    | .error e => raise e
    | .ok (size, checksum) => do
        raiseIf (settings.maxArtifactSizeBytes < size) (.valueError "artifact_too_large")
        let now ← sql .now
        sql (.ensureUploadIntent id token candidateKey
          ⟨s!"privacy-export-{id}.zip", "application/zip", size, checksum⟩ now)
        let intent ← sql (.activeUploadIntent id token now)
        let intent ← orRaise intent
          (.conflict "Export artifact processing lease is no longer active")
        preparedFromIntent id intent

def resetPreparedExportUploadIntent (prepared : PreparedExportArchive) (token : String) :
    Tx Unit := do
  let now ← sql .now
  let reset ← sql (.resetUploadIntent prepared.artifactId token prepared.storageBackend
    prepared.storageKey now)
  raiseIf (reset = false) (.external "RuntimeError")

def markGeneratedExportArtifactReady (prepared : PreparedExportArchive) (token : String) :
    Tx Unit := do
  let found ← sql (.lockProcessingArtifact prepared.artifactId token)
  let artifact ← orRaise found
    (.conflict "Export artifact processing lease is no longer active")
  raiseIf (prepared.matches artifact = false)
    (.conflict "Export artifact upload intent no longer matches")
  let now ← sql .now
  let assigned : ExportArtifact :=
    { (artifact.withMetadata prepared.metadata).markedReady now with generatedByUserId := none }
  let ready ← saveArtifact .markReady prepared.artifactId artifact assigned
  syncExecutionState prepared.artifactId ready (.plain .ready ready.completedAt) none []
  sql .recordAuditEvent

/-- The reason code of a failed generation. -/
def generationFailureCode (text : String) : String :=
  if text ∈ ["artifact_too_large", "dsr_not_found", "dsr_not_export_eligible"] then text
  else "generation_failed"

def markExportArtifactFailed (id : Uuid) (token text : String) : Tx Unit := do
  let found ← sql (.lockProcessingArtifact id token)
  match found with
  | none => pure ()
  | some artifact => do
      let now ← sql .now
      let code := generationFailureCode text
      let failed ← saveArtifact .markFailed id artifact
        (artifact.markedFailed code "Export generation failed" now)
      syncExecutionState id failed ⟨.failed, failed.failedAt, some code, failed.failureDetail⟩ none []
      sql .recordAuditEvent

/-! ## Retention -/

structure ExportArtifactStoragePurge where
  artifactId : Uuid
  expectedStatus : ExportArtifactStatus
  storageBackend : Option StorageBackend
  storageKey : String
  deriving DecidableEq

/-- `clear_export_storage_purge_metadata`. `clear_failed_export_storage_metadata` is the same
    for a failed artifact, whatever its backend. -/
def clearStoragePurge (purge : ExportArtifactStoragePurge) : Tx Unit := do
  let found ← sql (.lockPurgeTarget purge.artifactId purge.expectedStatus purge.storageBackend
    purge.storageKey)
  match found with
  | none => pure ()
  | some artifact =>
      if artifact.isPurgeable then do
        let _ ← saveArtifact .clearStorage purge.artifactId artifact artifact.withoutStorage
        pure ()
      else pure ()

def listPurgeRetries (status : ExportArtifactStatus) (limit : Nat) : Tx Unit := do
  let ids ← sql (.purgeRetryIds status)
  let _ ← lockUpTo limit ids fun id => sql (.lockPurgeRetry id status)
  pure ()

/-- Expire the listed artifacts one after the other. -/
def expireEach (now : Time) : List (Uuid × ExportArtifact) → Tx Unit
  | [] => pure ()
  | row :: rest => do
      let expired ← saveArtifact .markExpired row.1 row.2 row.2.markedExpired
      syncDerivedState now (row.1, expired) rest
      sql .recordAuditEvent
      expireEach now rest

def expireReadyArtifacts (now : Time) (limit : Nat) : Tx Unit := do
  let expired ← sql (.expiredReadyArtifacts now)
  expireEach now (expired.take limit)

/-- What a step of the retention does after the purges of the step before are cleared. -/
inductive RetentionStage where
  | listFailed (limit : Nat)
  | expire (now : Time) (limit : Nat)
  | finish
  deriving DecidableEq

def retentionStep (purges : List ExportArtifactStoragePurge) (stage : RetentionStage) :
    Tx Unit := do
  forEach purges clearStoragePurge
  match stage with
  | .listFailed limit => listPurgeRetries .failed limit
  | .expire now limit => do
      expireReadyArtifacts now limit
      listPurgeRetries .expired limit
  | .finish => pure ()

/-! ## The operations -/

/-- An operation on export artifacts. -/
inductive ArtifactOp where
  | request (newId requestId requestedByUserId : Uuid)
  | confirmDelivery (id : Uuid)
  | claim (batchSize : Nat) (token : Uuid → String)
  | recover (limit : Nat)
  | renew (id : Uuid) (token : String)
  | prepare (id : Uuid) (token candidateKey : String) (archive : Except AppError (Nat × String))
  | resetIntent (prepared : PreparedExportArchive) (token : String)
  | markReady (prepared : PreparedExportArchive) (token : String)
  | markFailed (id : Uuid) (token text : String)
  | retention (purges : List ExportArtifactStoragePurge) (stage : RetentionStage)

/-- The work of an operation, and what a renewal returns. -/
def ArtifactOp.work (settings : ExportSettings) : ArtifactOp → Tx (Option Renewal)
  | .request newId requestId requestedByUserId => do
      requestExportArtifact settings newId requestId requestedByUserId
      pure none
  | .confirmDelivery id => do
      confirmExportDelivery settings id
      pure none
  | .claim batchSize token => do
      claimQueuedArtifactLeases settings batchSize token
      pure none
  | .recover limit => do
      recoverStaleProcessingArtifacts limit
      pure none
  | .renew id token => renewProcessingLease id token
  | .prepare id token candidateKey archive => do
      let _ ← prepareExportArchive settings id token candidateKey archive
      pure none
  | .resetIntent prepared token => do
      resetPreparedExportUploadIntent prepared token
      pure none
  | .markReady prepared token => do
      markGeneratedExportArtifactReady prepared token
      pure none
  | .markFailed id token text => do
      markExportArtifactFailed id token text
      pure none
  | .retention purges stage => do
      retentionStep purges stage
      pure none

/-- An operation of the privacy services. -/
inductive PrivacyOp where
  | request (op : RequestOp)
  | artifact (op : ArtifactOp)

/-- Each operation runs in a transaction of its own. -/
def PrivacyOp.program (settings : ExportSettings) : PrivacyOp → Tx (Option Renewal)
  | .request op => inTransaction do
      op.work
      pure none
  | .artifact op => inTransaction (op.work settings)

end SaasTemplate.Privacy
