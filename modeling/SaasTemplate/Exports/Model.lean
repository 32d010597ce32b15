import SaasTemplate.Privacy.DeferredDeletions
import SaasTemplate.Privacy.RetentionPass
import SaasTemplate.Storage.KeyCalls

/-! # Artifacts and their objects

The database and the object storage that the export pipeline works on. A transaction is one
function here: it locks the rows it writes until it commits, so it takes effect as a whole.
Where a service reads a row without a lock and writes it later, the read stands apart.
-/

set_option linter.unusedSectionVars false

namespace SaasTemplate.Exports

open SaasTemplate.Privacy
open SaasTemplate.Storage (Bytes)
open SaasTemplate.Storage.Local (Node StorageCall Outcome LocalError)
open Retention (Table listPurgeRetry listExpiredReady storagePurgesFor clearPurges)

/-! ## Tables -/

namespace Table

variable {ρ : Type}

/-- `SELECT ... WHERE id = ... AND p`. -/
def find (id : Uuid) (p : ρ → Bool) (table : Table ρ) : Option ρ :=
  (table.rows.find? fun row => row.1 == id && p row.2).map (·.2)

/-- The rows that a query sees which passes some over. -/
def without (ids : List Uuid) (table : Table ρ) : Table ρ where
  rows := table.rows.filter fun row => !ids.contains row.1
  nodup := table.nodup.sublist (List.filter_sublist.map _)

/-- `INSERT`, unless the primary key is taken. -/
def insert (id : Uuid) (row : ρ) (table : Table ρ) : Option (Table ρ) :=
  if fresh : id ∈ table.rows.map (·.1) then none
  else some ⟨(id, row) :: table.rows, List.nodup_cons.mpr ⟨fresh, table.nodup⟩⟩

theorem mem_of_find {id : Uuid} {p : ρ → Bool} {table : Table ρ} {row : ρ}
    (found : find id p table = some row) : (id, row) ∈ table.rows ∧ p row = true := by
  obtain ⟨⟨id', row'⟩, is, rfl⟩ := Option.map_eq_some_iff.mp found
  have meets := List.find?_some is
  simp only [Bool.and_eq_true, beq_iff_eq] at meets
  obtain ⟨rfl, meets⟩ := meets
  exact ⟨List.mem_of_find?_eq_some is, meets⟩

theorem eq_of_mem {id : Uuid} {table : Table ρ} {a b : ρ} (first : (id, a) ∈ table.rows)
    (second : (id, b) ∈ table.rows) : a = b := by
  have same := List.inj_on_of_nodup_map table.nodup first second rfl
  exact (Prod.mk.inj same).2

theorem mem_update {p : Uuid → ρ → Bool} {f : Uuid → ρ → ρ} {table : Table ρ} {id : Uuid} {b : ρ} :
    (id, b) ∈ (table.update p f).rows ↔
      ∃ a, (id, a) ∈ table.rows ∧ b = if p id a then f id a else a := by
  simp only [Retention.Table.update, List.mem_map, Prod.exists]
  constructor
  · rintro ⟨id', a, member, is⟩
    split at is <;> cases is <;> exact ⟨_, member, by simp [*]⟩
  · rintro ⟨a, member, rfl⟩
    refine ⟨id, a, member, ?_⟩
    split <;> rfl

end Table

/-! ## Uuids, leases and archives -/

/-- `f"exports/{artifact.id}/{uuid4()}.zip"`. -/
def candidateStorageKey (id : Uuid) (uuid : String) : String := s!"exports/{id}/{uuid}.zip"

structure ProcessingExportLease where
  artifactId : Uuid
  processingToken : String
  deriving DecidableEq, Repr

structure FailedExportStorageCleanup where
  artifactId : Uuid
  storageBackend : StorageBackend
  storageKey : String
  deriving DecidableEq, Repr

/-- An archive whose upload is committed, with the file at its `archive_path`. -/
structure WrittenExportArchive where
  prepared : PreparedExportArchive
  archive : Option Bytes
  deriving DecidableEq

/-- `_prepared_from_committed_upload_intent`. -/
def preparedFromCommittedUploadIntent (id : Uuid) (a : ExportArtifact) :
    Except AppError PreparedExportArchive :=
  match a.storageKey, a.filename, a.contentType, a.sizeBytes, a.checksumSha256 with
  | some key, some filename, some contentType, some size, some checksum =>
      .ok ⟨id, a.storageBackend, key, ⟨filename, contentType, size, checksum⟩⟩
  | _, _, _, _, _ => .error (.conflict "Export artifact upload intent metadata is incomplete")

/-! ## Database and storage -/

/-- The artifacts, the requests, the objects of both storages, and what comes from outside:
    the clock; the uuids drawn so far and those drawn next; the rows that a query passes over,
    because others have locked them or change them meanwhile; the bytes of the next archive;
    and whether the answer of the next statement is lost, perhaps halfway through a call. -/
structure Db where
  artifacts : Table ExportArtifact
  requests : Uuid → Option DataSubjectRequest
  objects : StorageBackend → String → Node
  clock : Time
  used : List String
  drawn : List String
  unseen : List Uuid
  archive : Bytes
  lost : Option AppError
  halfway : Bool

namespace Db

/-- The next uuids. They are 36 characters long and new. -/
def draw (n : Nat) (db : Db) : Option (List String × Db) :=
  let uuids := db.drawn.take n
  if uuids.length = n ∧ uuids.Nodup ∧ ∀ uuid ∈ uuids, uuid.length = 36 ∧ uuid ∉ db.used then
    some (uuids, { db with used := uuids ++ db.used, drawn := db.drawn.drop n })
  else none

/-- The artifacts that a query sees. -/
def seen (db : Db) : Table ExportArtifact := Table.without db.unseen db.artifacts

def setObject (backend : StorageBackend) (key : String) (node : Node) (db : Db) : Db :=
  { db with
    objects :=
      Function.update db.objects backend (Function.update (db.objects backend) key node) }

end Db

/-! ## Leases -/

/-- `recover_stale_processing`. -/
def recoverStaleProcessing (limit : Nat) (db : Db) : Db :=
  let stale := db.seen.select
    (fun a b => decide (a.2.processingLeaseExpiresAt.getD 0 ≤ b.2.processingLeaseExpiresAt.getD 0))
    (·.isStale db.clock) limit
  { db with
    artifacts := db.artifacts.update (fun id _ => (stale.map (·.1)).contains id)
      fun _ a => a.recovered }

/-- `claim_queued_batch`, with the leases it hands out. -/
def claimQueuedBatch (limit : Nat) (db : Db) : Option (List ProcessingExportLease × Db) :=
  let rows := db.seen.select (fun a b => decide (a.2.queuedAt ≤ b.2.queuedAt))
    (·.status == .queued) limit
  (db.draw rows.length).map fun (uuids, db) =>
    let tokens := (rows.map (·.1)).zip uuids
    (tokens.map fun row => ⟨row.1, row.2⟩,
      { db with
        artifacts := db.artifacts.update (fun id _ => (tokens.lookup id).isSome) fun id a =>
          a.claimed db.clock ((tokens.lookup id).getD "") (db.clock + processingLease) })

/-- `claim_queued_artifact_leases`, for exports that are enabled. -/
def claimQueuedArtifactLeases (batchSize : Nat) (db : Db) :
    Option (List ProcessingExportLease × Db) :=
  claimQueuedBatch batchSize (recoverStaleProcessing batchSize db)

/-- The flush of `renew_processing_lease`, of a row that was loaded without a lock. -/
def flushLease (id : Uuid) (loaded : ExportArtifact) (leaseExpiresAt : Time) (db : Db) : Db :=
  { db with
    artifacts := db.artifacts.update (fun k _ => k == id) fun _ current =>
      loaded.flush (loaded.renewed leaseExpiresAt) current }

/-! ## Upload intents -/

/-- `get_active_processing_upload_intent`, where `p` compares backend and key if they are given. -/
def getActiveProcessingUploadIntent (id : Uuid) (token : String) (p : ExportArtifact → Bool)
    (db : Db) : Option ExportArtifact :=
  Table.find id (fun a => a.isLeasedTo token db.clock && a.storageKey.isSome && p a) db.artifacts

/-- `ensure_processing_upload_intent`, with the candidate key, for which a uuid is drawn here. -/
def ensureProcessingUploadIntent (id : Uuid) (token : String) (metadata : ExportArtifact.Metadata)
    (db : Db) : Option ((String × Option ExportArtifact) × Db) :=
  (db.draw 1).map fun (uuids, db) =>
    let candidate := candidateStorageKey id (uuids.headD "")
    let db := { db with
      artifacts := db.artifacts.update
        (fun k a => k == id && a.isLeasedTo token db.clock && a.storageKey.isNone) fun _ a =>
          { a.withMetadata metadata with storageKey := some candidate } }
    ((candidate, getActiveProcessingUploadIntent id token (fun _ => true) db), db)

def isAt (prepared : PreparedExportArchive) (a : ExportArtifact) : Bool :=
  a.storageBackend == prepared.storageBackend && a.storageKey == some prepared.storageKey

/-- `validate_prepared_export_upload`. -/
def validatePreparedExportUpload (prepared : PreparedExportArchive) (token : String) (db : Db) :
    Except AppError Unit :=
  match getActiveProcessingUploadIntent prepared.artifactId token (isAt prepared) db with
  | none => .error (.conflict "Export artifact upload intent is no longer active")
  | some a =>
      if prepared.matches a then .ok ()
      else .error (.conflict "Export artifact upload intent metadata no longer matches")

/-- `reset_processing_upload_intent`. -/
def resetProcessingUploadIntent (prepared : PreparedExportArchive) (token : String) (db : Db) :
    Bool × Db :=
  let p (a : ExportArtifact) := a.isLeasedTo token db.clock && isAt prepared a
  ((Table.find prepared.artifactId p db.artifacts).isSome,
    { db with
      artifacts := db.artifacts.update (fun k a => k == prepared.artifactId && p a)
        fun _ a => a.withoutStorage })

/-! ## The end of a generation -/

def markGeneratedExportArtifactReady (prepared : PreparedExportArchive) (token : String) (db : Db) :
    Except AppError Unit × Db :=
  match Table.find prepared.artifactId (·.isProcessingWith token) db.artifacts with
  | none => (.error (.conflict "Export artifact processing lease is no longer active"), db)
  | some a =>
      if prepared.matches a = false then
        (.error (.conflict "Export artifact upload intent no longer matches"), db)
      else (.ok (),
        { db with
          artifacts := db.artifacts.update (fun k _ => k == prepared.artifactId) fun _ a =>
            { (a.withMetadata prepared.metadata).markedReady db.clock with
              generatedByUserId := none } })

/-- `failed_storage_cleanup`. -/
def failedStorageCleanup (id : Uuid) (a : ExportArtifact) : Option FailedExportStorageCleanup :=
  if a.status = .failed then a.storageKey.map fun key => ⟨id, a.storageBackend, key⟩ else none

/-- `mark_export_artifact_failed`, with the cleanup of what it marked. -/
def markExportArtifactFailed (id : Uuid) (token text : String) (db : Db) :
    Option FailedExportStorageCleanup × Db :=
  match Table.find id (·.isProcessingWith token) db.artifacts with
  | none => (none, db)
  | some a =>
      let failed (a : ExportArtifact) :=
        a.markedFailed (generationFailureCode text) "Export generation failed" db.clock
      (failedStorageCleanup id (failed a),
        { db with artifacts := db.artifacts.update (fun k _ => k == id) fun _ a => failed a })

/-- `clear_failed_export_storage_metadata`. -/
def clearFailedExportStorageMetadata (cleanup : FailedExportStorageCleanup) (db : Db) : Bool × Db :=
  let p (a : ExportArtifact) := a.status == .failed && a.storageKey == some cleanup.storageKey
  ((Table.find cleanup.artifactId p db.artifacts).isSome,
    { db with
      artifacts := db.artifacts.update (fun k a => k == cleanup.artifactId && p a)
        fun _ a => a.withoutStorage })

/-! ## Retention -/

/-- The second transaction of a pass: what it cleared, and the purges of failed artifacts. -/
def clearAndListFailed (deleted : List ExportArtifactStoragePurge) (limit : Nat) (db : Db) :
    (Nat × List ExportArtifactStoragePurge) × Db :=
  let (cleared, artifacts) := clearPurges deleted db.artifacts
  let remaining := limit - cleared
  ((cleared, if 0 < remaining then
      storagePurgesFor (listPurgeRetry .failed remaining [] (Table.without db.unseen artifacts))
    else []), { db with artifacts })

/-- The read of the third transaction, after what it clears: the artifacts that expire. -/
def readExpiredReady (deleted : List ExportArtifactStoragePurge) (now : Time)
    (limit processed : Nat) (db : Db) : List (Uuid × ExportArtifact) :=
  let (cleared, artifacts) := clearPurges deleted db.artifacts
  let remaining := limit - (processed + cleared)
  if 0 < remaining then listExpiredReady now remaining (Table.without db.unseen artifacts) else []

/-- The flush of `mark_expired`, of rows that were loaded without a lock. -/
def flushExpired (expired : List (Uuid × ExportArtifact)) (table : Table ExportArtifact) :
    Table ExportArtifact :=
  expired.foldl (fun table row => table.update (fun k _ => k == row.1) fun _ current =>
    row.2.flush row.2.markedExpired current) table

/-- The third transaction: what it has processed, and the purges of expired artifacts. -/
def clearExpireAndList (deleted : List ExportArtifactStoragePurge)
    (expired : List (Uuid × ExportArtifact)) (limit processed : Nat) (db : Db) :
    (Nat × List ExportArtifactStoragePurge) × Db :=
  let (cleared, artifacts) := clearPurges deleted db.artifacts
  let artifacts := flushExpired expired artifacts
  let processed := processed + cleared + expired.length
  let remaining := limit - processed
  ((processed, if 0 < remaining then
      storagePurgesFor (listPurgeRetry .expired remaining (expired.map (·.1))
        (Table.without db.unseen artifacts))
    else []), { db with artifacts })

/-- The last transaction. -/
def clearExportStoragePurges (deleted : List ExportArtifactStoragePurge) (db : Db) : Nat × Db :=
  let (cleared, artifacts) := clearPurges deleted db.artifacts
  (cleared, { db with artifacts })

/-! ## Erasure -/

/-- `minimise_export_artifacts_for_approved_erase_request`, with the deletions it defers. -/
def minimiseExportArtifacts (subject : Uuid) (db : Db) :
    Except AppError (List DeferredExportObjectDeletion) × Db :=
  let rows := (db.artifacts.rows.map (·.2)).filter (·.mentions subject)
  if rows.any (·.status == .processing) then
    (.error (.external "RemainingInventoryErasureError"), db)
  else (.ok (subjectOwnedExportObjectDeletions subject rows),
    { db with
      artifacts := db.artifacts.update (fun _ a => a.mentions subject)
        fun _ a => a.minimised subject })

/-- `minimise_dsr_workflow_for_approved_erase_request`. -/
def minimiseDsrWorkflow (subject : Uuid) (db : Db) : Db :=
  { db with
    requests := fun id => (db.requests id).map fun r =>
      if r.mentions subject then r.minimised subject else r }

/-- The providers of an erasure that touch exports. They run in one transaction that has locked
    the user: an artifact that refers to the subject is inserted before it or after it. -/
def executeErasure (subject : Uuid) (db : Db) :
    Except AppError (List DeferredExportObjectDeletion) × Db :=
  match minimiseExportArtifacts subject db with
  | (.error e, db) => (.error e, db)
  | (.ok deletions, db) => (.ok deletions, minimiseDsrWorkflow subject db)

end SaasTemplate.Exports
