import SaasTemplate.Exports.Model
import SaasTemplate.Isolation.Phases

/-! # The export pipeline as programs

The clients of artifacts and objects: the worker with its heartbeats, the retention pass, the
erasure of a subject and whoever asks for an export. A client may stop between any two of its
statements, any statement may fail without an effect, and an answer may be lost after one.
-/

set_option linter.unusedSectionVars false

namespace SaasTemplate.Exports

open SaasTemplate.Isolation SaasTemplate.Isolation.Prog
open SaasTemplate.Privacy
open SaasTemplate.Storage (Bytes ArchiveFile StorageObjectState StoragePublicationReservation)
open SaasTemplate.Storage.Local (Node StorageCall Outcome LocalError)
open Retention (Table storagePurgesFor listPurgeRetry)

/-! ## Statements -/

inductive Statement where
  | now
  | requestById (id : Uuid)
  | insertArtifact (id : Uuid) (artifact : ExportArtifact)
  | countQueuedArtifacts (limit : Nat)
  | claimQueuedArtifactLeases (batchSize : Nat)
  | processingArtifact (id : Uuid) (token : String)
  | flushLease (id : Uuid) (loaded : ExportArtifact) (leaseExpiresAt : Time)
  | writeArchive (id : Uuid)
  | ensureUploadIntent (id : Uuid) (token : String) (metadata : ExportArtifact.Metadata)
  | validateUpload (prepared : PreparedExportArchive) (token : String)
  | resetUploadIntent (prepared : PreparedExportArchive) (token : String)
  | markReady (prepared : PreparedExportArchive) (token : String)
  | markFailed (id : Uuid) (token text : String)
  | clearFailed (cleanup : FailedExportStorageCleanup)
  | listCancelled (limit : Nat)
  | clearAndListFailed (deleted : List ExportArtifactStoragePurge) (limit : Nat)
  | readExpiredReady (deleted : List ExportArtifactStoragePurge) (now : Time)
      (limit processed : Nat)
  | clearExpireAndList (deleted : List ExportArtifactStoragePurge)
      (expired : List (Uuid × ExportArtifact)) (limit processed : Nat)
  | clearPurges (deleted : List ExportArtifactStoragePurge)
  | executeErasure (subject : Uuid)
  | storage (backend : StorageBackend) (call : StorageCall)

/-- What a statement returns when it succeeds. -/
abbrev Answer : Statement → Type
  | .now => Time
  | .requestById _ => Option DataSubjectRequest
  | .countQueuedArtifacts _ | .clearPurges _ => Nat
  | .claimQueuedArtifactLeases _ => List ProcessingExportLease
  | .processingArtifact _ _ => Option ExportArtifact
  | .writeArchive _ => Bytes
  | .ensureUploadIntent _ _ _ => String × Option ExportArtifact
  | .resetUploadIntent _ _ | .clearFailed _ => Bool
  | .markFailed _ _ _ => Option FailedExportStorageCleanup
  | .listCancelled _ => List ExportArtifactStoragePurge
  | .clearAndListFailed _ _ | .clearExpireAndList _ _ _ _ => Nat × List ExportArtifactStoragePurge
  | .readExpiredReady _ _ _ _ => List (Uuid × ExportArtifact)
  | .executeErasure _ => List DeferredExportObjectDeletion
  | .storage _ _ => Outcome
  | .insertArtifact _ _ | .flushLease _ _ _ | .validateUpload _ _ | .markReady _ _ => Unit

abbrev Tx (α : Type) : Type := Prog Statement Answer AppError α

abbrev issue (s : Statement) : Tx (Answer s) := stmt s

/-! ## Storage -/

def objectStateUnknown : AppError := .external "StorageObjectStateUnknownError"

/-- The exceptions of an adapter, as the services see them. -/
def storageError : LocalError → AppError
  | .objectConflict _ => .external "StorageObjectConflictError"
  | .valueError message => .valueError message
  | .fileNotFound => .external "FileNotFoundError"
  | .notADirectory => .external "NotADirectoryError"
  | .fileExists => .external "FileExistsError"
  | .osError => .external "OSError"

/-- `storage.reserve_file_publication(key, owner_token=...)`. -/
def reserve (backend : StorageBackend) (key ownerToken : String) :
    Tx StoragePublicationReservation := do
  let outcome : Outcome ← issue (.storage backend (.reserve key ownerToken))
  match outcome with
  | .reserved reservation => pure reservation
  | _ => raise (.external "TypeError")

/-- `storage.inspect_file` and `storage.delete_file_if_not_matching`. -/
def objectState (backend : StorageBackend) (call : StorageCall) : Tx StorageObjectState := do
  let outcome : Outcome ← issue (.storage backend call)
  match outcome with
  | .state state => pure state
  | _ => raise (.external "TypeError")

/-- `storage.delete(key)`. -/
def deleteObject (backend : StorageBackend) (key : String) : Tx Unit := do
  let _ ← issue (.storage backend (.delete key))
  pure ()

/-! ## Asking for an export -/

def requestExportArtifact (settings : ExportSettings) (newId requestId requestedByUserId : Uuid) :
    Tx Unit := do
  raiseIf (settings.enabled = false) (.conflict "Privacy export artifacts are disabled")
  let request ← issue (.requestById requestId)
  let request ← orRaise request (.notFound "Data subject request not found")
  raiseIf (isExportable request = false)
    (.conflict "Export artifact can only be requested for approved export data-subject requests")
  let queuedAt ← issue .now
  issue (.insertArtifact newId
    (queuedArtifact settings requestId requestedByUserId request queuedAt queuedAt))

/-! ## The worker -/

section Worker

variable (settings : ExportSettings) (sha256 : Bytes → String)

/-- What is committed of an upload intent, against what the client has written. -/
def comparedIntent (id : Uuid) (intent : ExportArtifact) (candidate : String)
    (metadata : ExportArtifact.Metadata) (body : Bytes) : Tx WrittenExportArchive :=
  match preparedFromCommittedUploadIntent id intent with
  | .error e => raise e
  | .ok committed =>
      if committed.storageKey ≠ candidate ∨ committed.metadata ≠ metadata then
        pure ⟨committed, none⟩
      else pure ⟨committed, some body⟩

def archiveMetadata (id : Uuid) (body : Bytes) : ExportArtifact.Metadata :=
  ⟨s!"privacy-export-{id}.zip", "application/zip", body.length, sha256 body⟩

/-- The part of `prepare_export_archive` that writes the archive and commits its intent. -/
def writeAndIntend (lease : ProcessingExportLease) : Tx WrittenExportArchive := do
  let body : Bytes ← issue (.writeArchive lease.artifactId)
  raiseIf (settings.maxArtifactSizeBytes < body.length) (.valueError "artifact_too_large")
  let metadata := archiveMetadata sha256 lease.artifactId body
  let (candidate, intent) ←
    issue (.ensureUploadIntent lease.artifactId lease.processingToken metadata)
  let intent ← orRaise intent
    (.conflict "Export artifact processing lease is no longer active")
  comparedIntent lease.artifactId intent candidate metadata body

/-- The part of `prepare_export_archive` before it: a committed intent is taken up again. -/
def prepareFound (lease : ProcessingExportLease) (artifact : ExportArtifact) :
    Tx WrittenExportArchive := do
  let request ← issue (.requestById artifact.dataSubjectRequestId)
  let request ← orRaise request (.valueError "dsr_not_found")
  raiseIf (isExportable request = false) (.valueError "dsr_not_export_eligible")
  if artifact.storageKey.isSome then
    match preparedFromCommittedUploadIntent lease.artifactId artifact with
    | .ok prepared => pure ⟨prepared, none⟩
    | .error e => raise e
  else writeAndIntend settings sha256 lease

/-- `_prepare_export_archive`. -/
def prepareExportArchive (lease : ProcessingExportLease) : Tx WrittenExportArchive := do
  raiseIf (settings.enabled = false) (.conflict "Privacy export artifacts are disabled")
  let found ← issue (.processingArtifact lease.artifactId lease.processingToken)
  let artifact ← orRaise found (.notFound "Export artifact not found")
  prepareFound settings sha256 lease artifact

/-- `_write_export_archive`, for a prepared archive with a file. -/
def writeExportArchive (lease : ProcessingExportLease) (prepared : PreparedExportArchive)
    (body : Bytes) : Tx Unit := do
  let reservation ← reserve prepared.storageBackend prepared.storageKey lease.processingToken
  let cancel (e : AppError) : Tx Unit := do
    let _ ← issue (.storage prepared.storageBackend (.cancel reservation))
    raise e
  let validated ← (issue (.validateUpload prepared lease.processingToken)).attempt
  match validated with
  | .error e => cancel e
  | .ok _ =>
      if reservation.key ≠ prepared.storageKey then
        cancel (.conflict "Export archive storage reservation no longer matches")
      else do
        let published ← (issue (.storage prepared.storageBackend
          (.publish reservation ⟨body, prepared.metadata.contentType,
            prepared.metadata.checksumSha256⟩))).attempt
        match published with
        | .ok _ => pure ()
        | .error e => if e = objectStateUnknown then raise e else cancel e

/-- `_recover_committed_export_archive`. -/
def recoverCommittedExportArchive (prepared : PreparedExportArchive) : Tx Bool := do
  let state ← objectState prepared.storageBackend
    (.inspect prepared.storageKey prepared.metadata.checksumSha256 prepared.metadata.sizeBytes)
  pure (state == .matching)

/-- `_reset_committed_export_upload_intent`. -/
def resetCommittedExportUploadIntent (lease : ProcessingExportLease)
    (prepared : PreparedExportArchive) : Tx Bool := do
  issue (.validateUpload prepared lease.processingToken)
  let state ← objectState prepared.storageBackend (.deleteIfNotMatching prepared.storageKey
    prepared.metadata.checksumSha256 prepared.metadata.sizeBytes)
  if state = .matching then pure false
  else do
    let reset ← issue (.resetUploadIntent prepared lease.processingToken)
    raiseIf (reset = false) (.external "RuntimeError")
    pure true

/-- `_cleanup_failed_export_storage`. -/
def cleanupFailedExportStorage (cleanup : FailedExportStorageCleanup) : Tx Unit := do
  let deleted ← (deleteObject cleanup.storageBackend cleanup.storageKey).attempt
  match deleted with
  | .error _ => pure ()
  | .ok _ => do
      let _ ← (issue (.clearFailed cleanup)).attempt
      pure ()

/-- What `_process_artifact` goes on with: an archive without a file is looked for in the storage,
    and prepared once more if it is not there. -/
def recoverOrPrepare (lease : ProcessingExportLease) (first : WrittenExportArchive) :
    Tx WrittenExportArchive :=
  if first.archive.isSome then pure first
  else do
    let recovered ← recoverCommittedExportArchive first.prepared
    if recovered then pure first
    else do
      let reset ← resetCommittedExportUploadIntent lease first.prepared
      if reset then prepareExportArchive settings sha256 lease else pure first

def writeIfPrepared (lease : ProcessingExportLease) (written : WrittenExportArchive) : Tx Unit :=
  match written.archive with
  | some body => writeExportArchive lease written.prepared body
  | none => pure ()

/-- The `try` block of `_process_artifact`. -/
def generateArtifact (lease : ProcessingExportLease) : Tx Unit := do
  let first ← prepareExportArchive settings sha256 lease
  let written ← recoverOrPrepare settings sha256 lease first
  writeIfPrepared lease written
  issue (.markReady written.prepared lease.processingToken)

/-- `_process_artifact`, but for the heartbeat that runs beside it; `str` is that of Python. -/
def processArtifact (str : AppError → String) (lease : ProcessingExportLease) : Tx Unit :=
  (generateArtifact settings sha256 lease).handle fun e =>
    if e = objectStateUnknown then pure ()
    else do
      let cleanup ← issue (.markFailed lease.artifactId lease.processingToken (str e))
      match cleanup with
      | some cleanup => cleanupFailedExportStorage cleanup
      | none => pure ()

/-- `_claim_queued_artifact_leases`. -/
def claimLeases (batchSize : Nat) : Tx (List ProcessingExportLease) :=
  if settings.enabled = false then pure [] else issue (.claimQueuedArtifactLeases batchSize)

/-- The loop of `run_worker`, for at most so many rounds: how many artifacts it has processed. -/
def workerRounds (str : AppError → String) (batchSize : Nat) (once polls : Bool) : Nat → Tx Nat
  | 0 => pure 0
  | rounds + 1 => do
      let leases ← claimLeases settings batchSize
      forEach leases (processArtifact settings sha256 str)
      if once ∨ leases.isEmpty ∧ polls = false then pure leases.length
      else do
        let later ← workerRounds str batchSize once polls rounds
        pure (leases.length + later)

/-- `run_worker`; `polls` stands for a positive `poll_interval`. -/
def runWorker (str : AppError → String) (batchSize rounds : Nat) (dryRun once polls : Bool) :
    Tx Nat := do
  raiseIf (batchSize < 1) (.valueError "batch_size must be at least 1")
  if dryRun then
    if settings.enabled = false then pure 0 else issue (.countQueuedArtifacts batchSize)
  else workerRounds settings sha256 str batchSize once polls rounds

end Worker

/-- `_heartbeat_processing_lease`, for at most so many beats. -/
def heartbeatProcessingLease (lease : ProcessingExportLease) : Nat → Tx Unit
  | 0 => pure ()
  | beats + 1 => do
      let found ← issue (.processingArtifact lease.artifactId lease.processingToken)
      match found with
      | none => pure ()
      | some loaded => do
          let now ← issue .now
          issue (.flushLease lease.artifactId loaded (now + processingLease))
          heartbeatProcessingLease lease beats

/-! ## Retention and erasure -/

/-- `_delete_export_storage_purges`: what was deleted, and the failures. -/
def deleteExportStoragePurges (settings : ExportSettings) : List ExportArtifactStoragePurge →
    Tx (List ExportArtifactStoragePurge × List AppError)
  | [] => pure ([], [])
  | purge :: rest => do
      let answer ← (deleteObject (purge.storageBackend.getD settings.storageBackend)
        purge.storageKey).attempt
      let (deleted, failures) ← deleteExportStoragePurges settings rest
      match answer with
      | .ok _ => pure (purge :: deleted, failures)
      | .error e => pure (deleted, e :: failures)

/-- The export steps of `run_privacy_retention_pass`; `nonExport` counts the other steps. -/
def exportRetentionPass (settings : ExportSettings) (now : Time) (limit nonExport : Nat) :
    Tx Nat := do
  raiseIf (limit < 1) (.valueError "Privacy retention batch size must be positive")
  let cancelled ← issue (.listCancelled limit)
  let (deleted, failures) ← deleteExportStoragePurges settings cancelled
  let (processed, failed) ← issue (.clearAndListFailed deleted limit)
  let (deleted, moreFailures) ← deleteExportStoragePurges settings failed
  let ready ← issue (.readExpiredReady deleted now limit processed)
  let (processed, expired) ← issue (.clearExpireAndList deleted ready limit processed)
  let (deleted, lastFailures) ← deleteExportStoragePurges settings expired
  let cleared ← issue (.clearPurges deleted)
  match failures ++ moreFailures ++ lastFailures with
  | [] => pure (processed + cleared)
  | failure :: _ =>
      if processed + cleared + nonExport = 0 then raise failure else pure (processed + cleared)

/-- The erasure of a subject's artifacts, and the deletions after its commit. -/
def eraseSubjectExports (subject : Uuid) : Tx Unit := do
  let deletions ← issue (.executeErasure subject)
  forEach deletions fun deletion => do
    let _ ← (deleteObject deletion.storageBackend deletion.storageKey).attempt
    pure ()

/-! ## The machine -/

section Machine

variable (sha256 : Bytes → String)

/-- What a statement does, and its answer. -/
def run : (s : Statement) → Db → Option (Except AppError (Answer s) × Db)
  | .now, db => some (.ok db.clock, db)
  | .requestById id, db => some (.ok (db.requests id), db)
  | .insertArtifact id artifact, db => some <|
      match Table.insert id artifact db.artifacts with
      | some artifacts => (.ok (), { db with artifacts })
      | none => (.error .integrityError, db)
  | .countQueuedArtifacts limit, db =>
      some (.ok (db.seen.select (fun a b => decide (a.2.queuedAt ≤ b.2.queuedAt))
        (·.status == .queued) limit).length, db)
  | .claimQueuedArtifactLeases batchSize, db =>
      (claimQueuedArtifactLeases batchSize db).map fun out => (.ok out.1, out.2)
  | .processingArtifact id token, db =>
      some (.ok (Table.find id (·.isProcessingWith token) db.artifacts), db)
  | .flushLease id loaded leaseExpiresAt, db =>
      some (.ok (), flushLease id loaded leaseExpiresAt db)
  | .writeArchive _, db => some (.ok db.archive, db)
  | .ensureUploadIntent id token metadata, db =>
      (ensureProcessingUploadIntent id token metadata db).map fun out => (.ok out.1, out.2)
  | .validateUpload prepared token, db => some (validatePreparedExportUpload prepared token db, db)
  | .resetUploadIntent prepared token, db =>
      let out := resetProcessingUploadIntent prepared token db
      some (.ok out.1, out.2)
  | .markReady prepared token, db => some (markGeneratedExportArtifactReady prepared token db)
  | .markFailed id token text, db =>
      let out := markExportArtifactFailed id token text db
      some (.ok out.1, out.2)
  | .clearFailed cleanup, db =>
      let out := clearFailedExportStorageMetadata cleanup db
      some (.ok out.1, out.2)
  | .listCancelled limit, db =>
      some (.ok (storagePurgesFor (listPurgeRetry .cancelled limit [] db.seen)), db)
  | .clearAndListFailed deleted limit, db =>
      let out := clearAndListFailed deleted limit db
      some (.ok out.1, out.2)
  | .readExpiredReady deleted now limit processed, db =>
      some (.ok (readExpiredReady deleted now limit processed db), db)
  | .clearExpireAndList deleted expired limit processed, db =>
      let out := clearExpireAndList deleted expired limit processed db
      some (.ok out.1, out.2)
  | .clearPurges deleted, db =>
      let out := clearExportStoragePurges deleted db
      some (.ok out.1, out.2)
  | .executeErasure subject, db => some (executeErasure subject db)
  | .storage backend operation, db =>
      let node := db.objects backend operation.key
      let (answer, settled) := operation.settle sha256 node
      let left := if db.lost.isSome && db.halfway then operation.halfway sha256 node else settled
      some (match answer with
        | .ok outcome => .ok outcome
        | .error e => .error (storageError e), db.setObject backend operation.key left)

/-- The answer of a statement that has taken effect may be lost. -/
def exec {τ : Type} (_ : τ) (s : Statement) (db : Db) :
    Option (Except AppError (Answer s) × Db) :=
  (run sha256 s db).map fun out =>
    match db.lost with
    | none => out
    | some e => (.error e, out.2)

/-- An artifact that others have recorded a download or a delivery of. -/
def recorded (downloadedAt : Uuid → Option Time) (downloadCount : Uuid → Nat)
    (table : Table ExportArtifact) : Table ExportArtifact :=
  table.update (fun _ _ => true) fun id a =>
    { a with downloadedAt := downloadedAt id, downloadCount := downloadCount id }

/-- The others create requests and change all but the participants of them, and record
    deliveries; time, uuids, archives and what is lost are not up to the clients. -/
structure Moves (db db' : Db) : Prop where
  requests : ∀ id r, db.requests id = some r → ∃ r', db'.requests id = some r' ∧
    r'.subjectUserId = r.subjectUserId ∧ r'.requesterUserId = r.requesterUserId
  artifacts : ∃ downloadedAt downloadCount,
    db'.artifacts = recorded downloadedAt downloadCount db.artifacts
  objects : db'.objects = db.objects
  used : db'.used = db.used

def machine (τ : Type) : Machine τ Statement Answer AppError Db where
  exec := exec sha256
  fallible _ := True
  crash _ db := db
  env := Moves

end Machine

/-! ## Operations -/

inductive PipelineOp where
  | request (newId requestId requestedByUserId : Uuid)
  | worker (str : AppError → String) (batchSize rounds : Nat) (dryRun once polls : Bool)
  | heartbeat (lease : ProcessingExportLease) (beats : Nat)
  | retention (now : Time) (limit nonExport : Nat)
  | erasure (subject : Uuid)

def PipelineOp.program (settings : ExportSettings) (sha256 : Bytes → String) : PipelineOp → Tx Nat
  | .request newId requestId requestedByUserId => do
      requestExportArtifact settings newId requestId requestedByUserId
      pure 0
  | .worker str batchSize rounds dryRun once polls =>
      runWorker settings sha256 str batchSize rounds dryRun once polls
  | .heartbeat lease beats => do
      heartbeatProcessingLease lease beats
      pure 0
  | .retention now limit nonExport => exportRetentionPass settings now limit nonExport
  | .erasure subject => do
      eraseSubjectExports subject
      pure 0

end SaasTemplate.Exports
