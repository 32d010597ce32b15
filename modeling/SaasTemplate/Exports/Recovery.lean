import SaasTemplate.Exports.Runs

/-! # What a crash leaves behind can be finished

A worker may have stopped anywhere: before an archive is written, with a committed intent and
nothing stored, with a reservation that is no one's any more or with an object in place. From
every such state the next lease of the artifact leads to one that is ready.
-/

set_option linter.unusedSectionVars false

namespace SaasTemplate.Exports

open SaasTemplate.Isolation SaasTemplate.Isolation.Prog
open SaasTemplate.Privacy
open SaasTemplate.Storage (Bytes ArchiveFile StoragePublicationReservation)
open SaasTemplate.Storage.Local

variable {τ : Type} [DecidableEq τ] {sha256 : Bytes → String} {db db' : Db} {t : τ}
  {settings : ExportSettings} {lease : ProcessingExportLease} {p : PreparedExportArchive}
  {a : ExportArtifact}

/-! ## Statements that nothing disturbs -/

theorem solo_issue {s : Statement} {out : Except AppError (Answer s) × Db} (whole : db.lost = none)
    (ran : run sha256 s db = some out) : (machine sha256 τ).solo t (issue s) db = some out :=
  Machine.solo_stmt (by simp only [machine, exec, ran, whole, Option.map_some])

theorem solo_orRaise {α : Type} {value : α} {e : AppError} :
    (machine sha256 τ).solo t (orRaise (some value) e) db = some (.ok value, db) := rfl

theorem solo_storage {backend : StorageBackend} {call : StorageCall} (o : Outcome) (node : Node)
    (whole : db.lost = none)
    (settles : call.settle sha256 (db.objects backend call.key) = (.ok o, node)) :
    (machine sha256 τ).solo t (issue (.storage backend call)) db =
      some (.ok o, db.setObject backend call.key node) := by
  refine solo_issue whole ?_
  simp only [run, settles, whole, Option.isSome_none, Bool.false_and, Bool.false_eq_true, if_false]

theorem solo_attempted {α : Type} {program : Tx α} {r : Except AppError α}
    (ran : (machine sha256 τ).solo t program db = some (r, db')) :
    (machine sha256 τ).solo t program.attempt db = some (.ok r, db') := by
  rw [Machine.solo_attempt, ran]
  rfl

theorem find_of_has {meets : ExportArtifact → Bool} {id : Uuid} (has : db.Has id a)
    (is : meets a = true) : Table.find id meets db.artifacts = some a := by
  cases found : Table.find id meets db.artifacts with
  | none =>
      simp only [Table.find, Option.map_eq_none_iff, List.find?_eq_none] at found
      exact absurd (by simp [is]) (found _ has)
  | some b => rw [has_eq (Table.mem_of_find found).1 has]

/-! ## An archive whose upload is committed -/

/-- The lease is live and the artifact has the key and the metadata of the archive. -/
structure Intended (lease : ProcessingExportLease) (p : PreparedExportArchive)
    (a : ExportArtifact) (db : Db) : Prop where
  whole : db.lost = none
  id : p.artifactId = lease.artifactId
  has : db.Has lease.artifactId a
  leased : a.isLeasedTo lease.processingToken db.clock = true
  matches_ : p.matches a = true

theorem Intended.keyed (intended : Intended lease p a db) :
    a.storageBackend = p.storageBackend ∧ a.storageKey = some p.storageKey ∧
      a.hasMetadata p.metadata = true := by
  simpa [PreparedExportArchive.matches, and_assoc] using intended.matches_

theorem Intended.setObject (intended : Intended lease p a db) (backend : StorageBackend)
    (key : String) (node : Node) : Intended lease p a (db.setObject backend key node) :=
  ⟨intended.whole, intended.id, intended.has, intended.leased, intended.matches_⟩

theorem Intended.validates (intended : Intended lease p a db) :
    (machine sha256 τ).solo t (issue (.validateUpload p lease.processingToken)) db =
      some (.ok (), db) := by
  refine solo_issue intended.whole ?_
  obtain ⟨backend, keyed, -⟩ := intended.keyed
  have active : getActiveProcessingUploadIntent p.artifactId lease.processingToken (isAt p) db =
      some a := by
    rw [getActiveProcessingUploadIntent, intended.id]
    exact find_of_has intended.has (by simp [intended.leased, isAt, backend, keyed])
  simp only [run, validatePreparedExportUpload, active, intended.matches_, if_true]

/-- The row that comes of the last transaction. -/
def published (p : PreparedExportArchive) (now : Time) (a : ExportArtifact) : ExportArtifact :=
  { (a.withMetadata p.metadata).markedReady now with generatedByUserId := none }

def publishedDb (p : PreparedExportArchive) (db : Db) : Db :=
  { db with
    artifacts := db.artifacts.update (fun id _ => id == p.artifactId) fun _ a =>
      published p db.clock a }

theorem Intended.marksReady (intended : Intended lease p a db) :
    (machine sha256 τ).solo t (issue (.markReady p lease.processingToken)) db =
      some (.ok (), publishedDb p db) := by
  have found : Table.find p.artifactId (·.isProcessingWith lease.processingToken) db.artifacts =
      some a := by
    rw [intended.id]
    exact find_of_has intended.has (processing_of_leased intended.leased)
  refine solo_issue intended.whole ?_
  simp only [run, markGeneratedExportArtifactReady, found, intended.matches_, Bool.true_eq_false,
    if_false]
  rfl

theorem Intended.has_published (intended : Intended lease p a db) :
    (publishedDb p db).Has lease.artifactId (published p db.clock a) :=
  Table.mem_update.mpr ⟨a, intended.has, by simp [intended.id]⟩

/-! ## Writing an archive -/

section Write

variable {body : Bytes}

theorem setObject_setObject {backend : StorageBackend} {key : String} {node next : Node} :
    (db.setObject backend key node).setObject backend key next =
      db.setObject backend key next := by
  simp [Db.setObject]

theorem Intended.reserves (intended : Intended lease p a db)
    (free : db.objects p.storageBackend p.storageKey = .absent) :
    (machine sha256 τ).solo t (reserve p.storageBackend p.storageKey lease.processingToken) db =
      some (.ok ⟨p.storageKey, lease.processingToken, lease.processingToken⟩,
        db.setObject p.storageBackend p.storageKey
          (.directory (some lease.processingToken) none)) := by
  have settles : (StorageCall.reserve p.storageKey lease.processingToken).settle sha256
      (db.objects p.storageBackend p.storageKey) =
        (.ok (.reserved ⟨p.storageKey, lease.processingToken, lease.processingToken⟩),
          .directory (some lease.processingToken) none) := by
    simp [StorageCall.settle, free, settleReservation]
  rw [reserve, Machine.solo_bind_ok (solo_storage _ _ intended.whole settles)]
  rfl

theorem settle_publish_reserved {file : ArchiveFile} {key token : String}
    (checksum : sha256 file.body = file.checksumSha256) :
    (StorageCall.publish ⟨key, token, token⟩ file).settle sha256
        (.directory (some token) none) = (.ok .done, .directory none (some file.body)) := by
  simp [StorageCall.settle, settlePublication, checksum]

/-- A reservation of a key where there is nothing, and the publication under it. -/
theorem Intended.writes (intended : Intended lease p a db)
    (free : db.objects p.storageBackend p.storageKey = .absent)
    (checksum : p.metadata.checksumSha256 = sha256 body) :
    (machine sha256 τ).solo t (writeExportArchive lease p body) db =
      some (.ok (), db.setObject p.storageBackend p.storageKey (.directory none (some body))) := by
  have reserved := intended.setObject p.storageBackend p.storageKey
    (.directory (some lease.processingToken) none)
  have there : (db.setObject p.storageBackend p.storageKey
      (.directory (some lease.processingToken) none)).objects p.storageBackend p.storageKey =
        .directory (some lease.processingToken) none := by
    rw [setObject_objects, if_pos ⟨rfl, rfl⟩]
  have settles : (StorageCall.publish ⟨p.storageKey, lease.processingToken, lease.processingToken⟩
      ⟨body, p.metadata.contentType, p.metadata.checksumSha256⟩).settle sha256
        ((db.setObject p.storageBackend p.storageKey
          (.directory (some lease.processingToken) none)).objects p.storageBackend p.storageKey) =
            (.ok .done, .directory none (some body)) := by
    rw [there]
    exact settle_publish_reserved checksum.symm
  rw [writeExportArchive, Machine.solo_bind_ok (intended.reserves free)]
  dsimp only
  rw [Machine.solo_bind_ok (solo_attempted reserved.validates)]
  simp only [ne_eq, not_true_eq_false, if_false]
  rw [Machine.solo_bind_ok (solo_attempted (solo_storage _ _ reserved.whole settles))]
  dsimp only [StorageCall.key]
  rw [setObject_setObject]
  rfl

end Write

/-! ## Preparing an archive -/

/-- The archive that a worker prepares for an artifact without a key. -/
def newArchive (sha256 : Bytes → String) (lease : ProcessingExportLease) (uuid : String)
    (a : ExportArtifact) (db : Db) : PreparedExportArchive :=
  ⟨lease.artifactId, a.storageBackend, candidateStorageKey lease.artifactId uuid,
    archiveMetadata sha256 lease.artifactId db.archive⟩

/-- The row that has it as its upload intent. -/
def withIntent (p : PreparedExportArchive) (a : ExportArtifact) : ExportArtifact :=
  { a.withMetadata p.metadata with storageKey := some p.storageKey }

def intendedDb (lease : ProcessingExportLease) (p : PreparedExportArchive) (uuid : String)
    (db : Db) : Db :=
  { db with
    used := uuid :: db.used
    drawn := db.drawn.drop 1
    artifacts := db.artifacts.update
      (fun id a => id == lease.artifactId && a.isLeasedTo lease.processingToken db.clock &&
        a.storageKey.isNone) fun _ a => withIntent p a }

/-- The lease is live, the request may be exported, the archive is not too large and the next
    uuid is new; and no statement fails. -/
structure CanGenerate (settings : ExportSettings) (lease : ProcessingExportLease) (uuid : String)
    (a : ExportArtifact) (db : Db) : Prop where
  whole : db.lost = none
  enabled : settings.enabled = true
  has : db.Has lease.artifactId a
  leased : a.isLeasedTo lease.processingToken db.clock = true
  exportable : ∃ request, db.requests a.dataSubjectRequestId = some request ∧
    isExportable request = true
  small : db.archive.length ≤ settings.maxArtifactSizeBytes
  drawn : db.drawn.head? = some uuid
  length : uuid.length = 36
  new : uuid ∉ db.used

section Prepare

variable {uuid : String}

theorem CanGenerate.draws (can : CanGenerate settings lease uuid a db) : db.draw 1 =
    some ([uuid], { db with used := uuid :: db.used, drawn := db.drawn.drop 1 }) := by
  have first : db.drawn.take 1 = [uuid] := by
    rw [List.take_one, can.drawn]
    rfl
  simp [Db.draw, first, can.length, can.new]

theorem CanGenerate.intended (can : CanGenerate settings lease uuid a db)
    (keyless : a.storageKey = none) :
    Intended lease (newArchive sha256 lease uuid a db)
      (withIntent (newArchive sha256 lease uuid a db) a)
      (intendedDb lease (newArchive sha256 lease uuid a db) uuid db) where
  whole := can.whole
  id := rfl
  has := Table.mem_update.mpr ⟨a, can.has, by simp [can.leased, keyless]⟩
  leased := can.leased
  matches_ := by
    simp [PreparedExportArchive.matches, withIntent, ExportArtifact.withMetadata,
      ExportArtifact.hasMetadata, newArchive]

theorem CanGenerate.intends (can : CanGenerate settings lease uuid a db)
    (keyless : a.storageKey = none) :
    ensureProcessingUploadIntent lease.artifactId lease.processingToken
        (archiveMetadata sha256 lease.artifactId db.archive) db =
      some ((candidateStorageKey lease.artifactId uuid,
          some (withIntent (newArchive sha256 lease uuid a db) a)),
        intendedDb lease (newArchive sha256 lease uuid a db) uuid db) := by
  have intended : Intended lease (newArchive sha256 lease uuid a db) _ _ := can.intended keyless
  have active : getActiveProcessingUploadIntent lease.artifactId lease.processingToken
      (fun _ => true) (intendedDb lease (newArchive sha256 lease uuid a db) uuid db) =
        some (withIntent (newArchive sha256 lease uuid a db) a) :=
    find_of_has intended.has (by rw [intended.leased]; rfl)
  simp only [ensureProcessingUploadIntent, can.draws, Option.map_some, List.headD_cons]
  rw [← active]
  rfl

theorem CanGenerate.finds (can : CanGenerate settings lease uuid a db) :
    (machine sha256 τ).solo t (prepareExportArchive settings sha256 lease) db =
      (machine sha256 τ).solo t (prepareFound settings sha256 lease a) db := by
  have found : run sha256 (.processingArtifact lease.artifactId lease.processingToken) db =
      some (.ok (some a), db) := by
    rw [run, find_of_has can.has (processing_of_leased can.leased)]
  rw [prepareExportArchive,
    Machine.solo_bind_ok (Machine.solo_raiseIf_passed (by simp [can.enabled])),
    Machine.solo_bind_ok (solo_issue can.whole found), Machine.solo_bind_ok solo_orRaise]

theorem preparedFrom_committed {id : Uuid} {key : String} {metadata : ExportArtifact.Metadata}
    (keyed : a.storageKey = some key) (described : a.hasMetadata metadata = true) :
    preparedFromCommittedUploadIntent id a = .ok ⟨id, a.storageBackend, key, metadata⟩ := by
  simp only [ExportArtifact.hasMetadata, Bool.and_eq_true, beq_iff_eq] at described
  simp only [preparedFromCommittedUploadIntent, keyed, described]

theorem CanGenerate.prepares_new (can : CanGenerate settings lease uuid a db)
    (keyless : a.storageKey = none) :
    (machine sha256 τ).solo t (prepareExportArchive settings sha256 lease) db =
      some (.ok ⟨newArchive sha256 lease uuid a db, some db.archive⟩,
        intendedDb lease (newArchive sha256 lease uuid a db) uuid db) := by
  have intended : Intended lease (newArchive sha256 lease uuid a db) _ _ := can.intended keyless
  obtain ⟨request, found, exportable⟩ := can.exportable
  have asked : run sha256 (.requestById a.dataSubjectRequestId) db =
      some (.ok (some request), db) := by
    rw [run, found]
  have written : run sha256 (.writeArchive lease.artifactId) db = some (.ok db.archive, db) := rfl
  have small := can.small
  rw [can.finds, prepareFound, Machine.solo_bind_ok (solo_issue can.whole asked),
    Machine.solo_bind_ok solo_orRaise,
    Machine.solo_bind_ok (Machine.solo_raiseIf_passed (by simp [exportable]))]
  simp only [keyless, Option.isSome_none, Bool.false_eq_true, if_false]
  rw [writeAndIntend, Machine.solo_bind_ok (solo_issue can.whole written),
    Machine.solo_bind_ok (Machine.solo_raiseIf_passed (by omega))]
  have intends : run sha256 (.ensureUploadIntent lease.artifactId lease.processingToken
      (archiveMetadata sha256 lease.artifactId db.archive)) db = _ :=
    congrArg (Option.map _) (can.intends keyless)
  rw [Machine.solo_bind_ok (solo_issue can.whole intends)]
  dsimp only
  rw [Machine.solo_bind_ok solo_orRaise, comparedIntent,
    preparedFrom_committed intended.keyed.2.1 intended.keyed.2.2]
  simp only [newArchive, ne_eq, not_true_eq_false, or_self, if_false]
  rfl

theorem CanGenerate.prepares_committed (can : CanGenerate settings lease uuid a db) {key : String}
    {metadata : ExportArtifact.Metadata} (keyed : a.storageKey = some key)
    (described : a.hasMetadata metadata = true) :
    (machine sha256 τ).solo t (prepareExportArchive settings sha256 lease) db =
      some (.ok ⟨⟨lease.artifactId, a.storageBackend, key, metadata⟩, none⟩, db) := by
  obtain ⟨request, found, exportable⟩ := can.exportable
  have asked : run sha256 (.requestById a.dataSubjectRequestId) db =
      some (.ok (some request), db) := by
    rw [run, found]
  rw [can.finds, prepareFound, Machine.solo_bind_ok (solo_issue can.whole asked),
    Machine.solo_bind_ok solo_orRaise,
    Machine.solo_bind_ok (Machine.solo_raiseIf_passed (by simp [exportable]))]
  simp only [keyed, Option.isSome_some, if_true]
  rw [preparedFrom_committed keyed described]
  rfl

end Prepare

/-! ## Taking up what is committed -/

section Committed

variable {uuid : String}

theorem Intended.recovers (intended : Intended lease p a db) :
    (machine sha256 τ).solo t (recoverCommittedExportArchive p) db =
      some (.ok (inspected sha256 p.metadata.checksumSha256 p.metadata.sizeBytes
        (db.objects p.storageBackend p.storageKey) == .matching), db) := by
  have settles : (StorageCall.inspect p.storageKey p.metadata.checksumSha256
      p.metadata.sizeBytes).settle sha256 (db.objects p.storageBackend p.storageKey) =
        (.ok (.state (inspected sha256 p.metadata.checksumSha256 p.metadata.sizeBytes
          (db.objects p.storageBackend p.storageKey))), db.objects p.storageBackend p.storageKey) :=
    rfl
  have looks : (machine sha256 τ).solo t (objectState p.storageBackend (.inspect p.storageKey
      p.metadata.checksumSha256 p.metadata.sizeBytes)) db =
        some (.ok (inspected sha256 p.metadata.checksumSha256 p.metadata.sizeBytes
          (db.objects p.storageBackend p.storageKey)), db) := by
    rw [objectState, Machine.solo_bind_ok (solo_storage _ _ intended.whole settles),
      StorageCall.key, setObject_self]
    rfl
  rw [recoverCommittedExportArchive, Machine.solo_bind_ok looks]
  rfl

/-- Nothing is left of the upload: the key is empty and the artifact has given it up. -/
def resetDb (lease : ProcessingExportLease) (p : PreparedExportArchive) (db : Db) : Db :=
  (resetProcessingUploadIntent p lease.processingToken
    (db.setObject p.storageBackend p.storageKey .absent)).2

theorem Intended.resets (intended : Intended lease p a db)
    (other : inspected sha256 p.metadata.checksumSha256 p.metadata.sizeBytes
      (db.objects p.storageBackend p.storageKey) ≠ .matching) :
    (machine sha256 τ).solo t (resetCommittedExportUploadIntent lease p) db =
      some (.ok true, resetDb lease p db) := by
  have settles : (StorageCall.deleteIfNotMatching p.storageKey p.metadata.checksumSha256
      p.metadata.sizeBytes).settle sha256 (db.objects p.storageBackend p.storageKey) =
        (.ok (.state .missing), .absent) := by
    rw [StorageCall.settle, if_neg other]
  have deletes : (machine sha256 τ).solo t (objectState p.storageBackend (.deleteIfNotMatching
      p.storageKey p.metadata.checksumSha256 p.metadata.sizeBytes)) db =
        some (.ok .missing, db.setObject p.storageBackend p.storageKey .absent) := by
    rw [objectState, Machine.solo_bind_ok (solo_storage _ _ intended.whole settles)]
    rfl
  have gone := intended.setObject p.storageBackend p.storageKey .absent
  obtain ⟨backend, keyed, -⟩ := intended.keyed
  have found : (resetProcessingUploadIntent p lease.processingToken
      (db.setObject p.storageBackend p.storageKey .absent)).1 = true := by
    rw [resetProcessingUploadIntent, intended.id, find_of_has gone.has]
    · rfl
    · rw [gone.leased]
      simp [isAt, backend, keyed]
  have reset : run sha256 (.resetUploadIntent p lease.processingToken)
      (db.setObject p.storageBackend p.storageKey .absent) =
        some (.ok true, resetDb lease p db) := by
    rw [run, found]
    rfl
  rw [resetCommittedExportUploadIntent, Machine.solo_bind_ok intended.validates,
    Machine.solo_bind_ok deletes]
  simp only [reduceCtorEq, if_false]
  rw [Machine.solo_bind_ok (solo_issue gone.whole reset),
    Machine.solo_bind_ok (Machine.solo_raiseIf_passed (by simp))]
  rfl

theorem Intended.can_again (intended : Intended lease p a db)
    (can : CanGenerate settings lease uuid a db) :
    CanGenerate settings lease uuid a.withoutStorage (resetDb lease p db) where
  whole := can.whole
  enabled := can.enabled
  has := by
    obtain ⟨backend, keyed, -⟩ := intended.keyed
    refine Table.mem_update.mpr ⟨a, intended.has, ?_⟩
    have leased : a.isLeasedTo lease.processingToken
        (db.setObject p.storageBackend p.storageKey .absent).clock = true := can.leased
    simp [intended.id, leased, isAt, backend, keyed]
  leased := can.leased
  exportable := can.exportable
  small := can.small
  drawn := can.drawn
  length := can.length
  new := can.new

end Committed

/-! ## A worker that is left alone -/

section Recover

variable {uuid : String}

/-- The artifact is ready, and an object that it describes is in place. -/
def Generated (sha256 : Bytes → String) (id : Uuid) (db : Db) : Prop :=
  ∃ a key bytes, db.Has id a ∧ a.status = .ready ∧ a.storageKey = some key ∧
    db.bytes a.storageBackend key = some bytes ∧ Describes sha256 a bytes

theorem Intended.generated (intended : Intended lease p a db) {bytes : Bytes}
    (there : db.bytes p.storageBackend p.storageKey = some bytes)
    (checksum : p.metadata.checksumSha256 = sha256 bytes)
    (size : p.metadata.sizeBytes = bytes.length) :
    Generated sha256 lease.artifactId (publishedDb p db) := by
  obtain ⟨backend, keyed, -⟩ := intended.keyed
  refine ⟨_, p.storageKey, bytes, intended.has_published, rfl, keyed, ?_, ?_, ?_⟩
  · exact backend ▸ there
  · exact congrArg some checksum
  · exact congrArg some size

/-- The key with a new uuid is no artifact's. -/
theorem CanGenerate.free (can : CanGenerate settings lease uuid a db)
    (consistent : Consistent sha256 db) (backend : StorageBackend) :
    db.objects backend (candidateStorageKey lease.artifactId uuid) = .absent := by
  refine consistent.untouched _ _ fun id ⟨uuid', used, length, same⟩ => can.new ?_
  rw [(candidateStorageKey_inj can.length length same).2]
  exact used

/-- An archive for a new key is written and its artifact marked. -/
theorem CanGenerate.finishes (can : CanGenerate settings lease uuid a db)
    (keyless : a.storageKey = none)
    (free : db.objects a.storageBackend (candidateStorageKey lease.artifactId uuid) = .absent) :
    ∃ db', (machine sha256 τ).solo t (do
        writeIfPrepared lease ⟨newArchive sha256 lease uuid a db, some db.archive⟩
        issue (.markReady (newArchive sha256 lease uuid a db) lease.processingToken))
          (intendedDb lease (newArchive sha256 lease uuid a db) uuid db) = some (.ok (), db') ∧
      Generated sha256 lease.artifactId db' := by
  have intended : Intended lease (newArchive sha256 lease uuid a db) _ _ := can.intended keyless
  have stored := intended.setObject a.storageBackend (candidateStorageKey lease.artifactId uuid)
    (.directory none (some db.archive))
  refine ⟨_, ?_, stored.generated ?_ rfl rfl⟩
  · rw [writeIfPrepared, Machine.solo_bind_ok (intended.writes free rfl)]
    exact stored.marksReady
  · rw [Db.bytes, setObject_objects, if_pos ⟨rfl, rfl⟩]
    rfl

/-- A committed upload that is in place is taken as it is, and one that is not is given up. -/
theorem Intended.generates (intended : Intended lease p a db)
    (can : CanGenerate settings lease uuid a db) (consistent : Consistent sha256 db) :
    ∃ db', (machine sha256 τ).solo t (do
        let written ← recoverOrPrepare settings sha256 lease ⟨p, none⟩
        writeIfPrepared lease written
        issue (.markReady written.prepared lease.processingToken)) db = some (.ok (), db') ∧
      Generated sha256 lease.artifactId db' := by
  rw [Machine.solo_bind]
  by_cases found : inspected sha256 p.metadata.checksumSha256 p.metadata.sizeBytes
      (db.objects p.storageBackend p.storageKey) = .matching
  · obtain ⟨bytes, there, checksum, size⟩ := inspected_matching.mp found
    have recovered : (machine sha256 τ).solo t (recoverOrPrepare settings sha256 lease ⟨p, none⟩)
        db = some (.ok ⟨p, none⟩, db) := by
      rw [recoverOrPrepare, if_neg (by simp), Machine.solo_bind_ok intended.recovers,
        if_pos (by simp [found])]
      rfl
    rw [recovered]
    have marks : (machine sha256 τ).solo t (issue (.markReady p lease.processingToken)) db = _ :=
      intended.marksReady
    exact ⟨_, marks, intended.generated there checksum.symm size.symm⟩
  · have again := intended.can_again can
    have free : (resetDb lease p db).objects a.withoutStorage.storageBackend
        (candidateStorageKey lease.artifactId uuid) = .absent := by
      refine (setObject_objects _ _ _ _ _).trans ?_
      split
      · rfl
      · exact can.free consistent _
    have prepared : (machine sha256 τ).solo t (recoverOrPrepare settings sha256 lease ⟨p, none⟩)
        db = (machine sha256 τ).solo t (prepareExportArchive settings sha256 lease)
          (resetDb lease p db) := by
      rw [recoverOrPrepare, if_neg (by simp), Machine.solo_bind_ok intended.recovers,
        if_neg (by simp [found]), Machine.solo_bind_ok (intended.resets found)]
      rfl
    rw [prepared, again.prepares_new rfl]
    exact again.finishes rfl free

theorem CanGenerate.generates (can : CanGenerate settings lease uuid a db)
    (consistent : Consistent sha256 db) :
    ∃ db', (machine sha256 τ).solo t (generateArtifact settings sha256 lease) db =
      some (.ok (), db') ∧ Generated sha256 lease.artifactId db' := by
  cases keyed : a.storageKey with
  | none =>
      rw [generateArtifact, Machine.solo_bind_ok (can.prepares_new keyed)]
      exact can.finishes keyed (can.free consistent _)
  | some key =>
      obtain final | ⟨metadata, described⟩ := consistent.described _ a key can.has keyed
      · rw [not_final_of_processing (processing_of_leased can.leased)] at final
        cases final
      · rw [generateArtifact, Machine.solo_bind_ok (can.prepares_committed keyed described)]
        have intended : Intended lease ⟨lease.artifactId, a.storageBackend, key, metadata⟩ a db :=
          ⟨can.whole, rfl, can.has, can.leased, by
            simp [PreparedExportArchive.matches, keyed, described]⟩
        exact intended.generates can consistent

variable {str : AppError → String} {allowed : τ → Statement → Db → Prop}
  {c d : Config τ Statement Answer AppError Db Nat}

/-- A worker has stopped with its intent committed and its key reserved, and artifact 10 is
    leased again. -/
def crashedArtifact : ExportArtifact :=
  { exampleArtifact .processing with
    storageKey := some (candidateStorageKey 10 "00000000-0000-4000-8000-000000000001")
    processingToken := some "second", processingLeaseExpiresAt := some 20 }

def crashedDb : Db :=
  { queuedDb with
    artifacts := ⟨[(10, crashedArtifact)], by decide⟩
    objects := fun backend key =>
      if backend = .local ∧ key = candidateStorageKey 10 "00000000-0000-4000-8000-000000000001" then
        .directory (some "first") none
      else .absent
    used := ["00000000-0000-4000-8000-000000000001", "first", "second"]
    drawn := ["00000000-0000-4000-8000-000000000002"] }

def crashedStart : Config Bool Statement Answer AppError Db Nat := ⟨crashedDb, fun _ => none⟩

theorem crashedStart_start : PipelineStart exampleSettings exampleSha256 crashedStart where
  stores := rfl
  artifacts id a has := by
    obtain ⟨rfl, rfl⟩ := Prod.mk.inj (List.mem_singleton.mp has)
    rfl
  consistent := by
    have issued : Issued crashedDb 10
        (candidateStorageKey 10 "00000000-0000-4000-8000-000000000001") :=
      ⟨_, List.mem_cons_self, by decide, rfl⟩
    refine ⟨fun id a key has keyed => ?_, fun backend key bytes there => ?_, fun id a has => ?_,
      fun id a key has _ => ?_, fun backend key free => if_neg ?_⟩
    · obtain ⟨rfl, rfl⟩ := Prod.mk.inj (List.mem_singleton.mp has)
      cases keyed
      exact issued
    · simp only [Db.bytes, crashedStart, crashedDb] at there
      split at there <;> cases there
    · obtain ⟨rfl, rfl⟩ := Prod.mk.inj (List.mem_singleton.mp has)
      rintro ⟨⟩
    · obtain ⟨rfl, rfl⟩ := Prod.mk.inj (List.mem_singleton.mp has)
      exact .inr ⟨⟨"export.zip", "application/zip", 1, "digest"⟩, rfl⟩
    · rintro ⟨-, rfl⟩
      exact free 10 issued
  programs t p is := by cases is

end Recover

end SaasTemplate.Exports
