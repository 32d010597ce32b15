import Mathlib.Data.List.Sort
import SaasTemplate.Isolation.Transactions
import SaasTemplate.Isolation.RowStatements
import SaasTemplate.Privacy.Model

/-! # Data-subject requests and export artifacts: the statements

The statements of the two repositories and of the erasure. A `SELECT ... FOR UPDATE` over
several rows is the list of ids it finds followed by one locking statement for each. The
table `erased` and `checked` are not in the database: the first notes for which requests
every erasure provider has run, and commits and rolls back with them; the second notes the
clock value with which a client last checked the artifacts of a request.
-/

set_option linter.unusedSectionVars false

namespace SaasTemplate.Privacy

open SaasTemplate.Isolation

structure Db (τ : Type) where
  requests : Table Uuid τ DataSubjectRequest
  artifacts : Table Uuid τ ExportArtifact
  erased : Table Uuid τ Unit
  checked : τ → Option (Uuid × Time)
  clock : Time

/-- What a transaction holds when it sets a savepoint. -/
structure Saved where
  requests : List (Uuid × Option DataSubjectRequest)
  artifacts : List (Uuid × Option ExportArtifact)
  erased : List (Uuid × Option Unit)
  deriving DecidableEq

/-- The service function that flushes a changed artifact. -/
inductive Writer where
  | claimQueuedBatch | renewProcessingLease | recoverStaleProcessing | markReady | markFailed
  | markExpired | clearStorage | eraseSubject
  deriving DecidableEq, Repr

inductive Statement where
  | now
  | recordAuditEvent
  | lockRequester (id : Uuid)
  | lockExecutor (id : Uuid)
  | coreProviders (request : Uuid)
  | requestById (id : Uuid)
  | requestForRequester (id requester : Uuid)
  | requestByIdempotencyKey (requester : Uuid) (hash : String) (now : Time)
  | insertRequest (id : Uuid) (request : DataSubjectRequest)
  | lockRequest (id : Uuid)
  | transitionStatusIfCurrent (id : Uuid) (expected : DataSubjectRequestStatus)
      (values : DataSubjectRequest.Transition)
  | updateRepresentativeIfCurrent (id : Uuid) (expected : DataSubjectRequestStatus)
      (expectedRepresentative : RepresentativeStatus) (values : DataSubjectRequest.Review)
  | requestIdsMentioning (subject : Uuid)
  | lockRequestMentioning (id subject : Uuid)
  | flushRequest (id : Uuid) (loaded assigned : DataSubjectRequest)
  | artifactById (id : Uuid)
  | artifactsOfRequest (request : Uuid)
  | insertArtifact (id : Uuid) (artifact : ExportArtifact)
  | queuedArtifactIds
  | lockQueuedArtifact (id : Uuid)
  | staleArtifactIds (now : Time)
  | lockStaleArtifact (id : Uuid) (now : Time)
  | processingArtifact (id : Uuid) (token : String)
  | lockProcessingArtifact (id : Uuid) (token : String)
  | ensureUploadIntent (id : Uuid) (token candidateKey : String)
      (metadata : ExportArtifact.Metadata) (now : Time)
  | activeUploadIntent (id : Uuid) (token : String) (now : Time)
  | resetUploadIntent (id : Uuid) (token : String) (backend : StorageBackend) (key : String)
      (now : Time)
  | expiredReadyArtifacts (now : Time)
  | confirmDelivery (id : Uuid) (deliveredAt : Time)
  | purgeRetryIds (status : ExportArtifactStatus)
  | lockPurgeRetry (id : Uuid) (status : ExportArtifactStatus)
  | lockPurgeTarget (id : Uuid) (status : ExportArtifactStatus) (backend : Option StorageBackend)
      (key : String)
  | artifactIdsMentioning (subject : Uuid)
  | lockArtifactMentioning (id subject : Uuid)
  | flushArtifact (writer : Writer) (id : Uuid) (loaded assigned : ExportArtifact)
  | markErased (request : Uuid)
  | noteCheck (request : Uuid) (now : Time)
  | savepoint
  | rollbackTo (saved : Saved)
  | commit
  | rollback
  deriving DecidableEq

/-- What a statement returns when it succeeds. -/
abbrev Answer : Statement → Type
  | .now => Time
  | .requestById _ | .requestForRequester _ _ | .lockRequest _ | .lockRequestMentioning _ _
  | .transitionStatusIfCurrent _ _ _ | .updateRepresentativeIfCurrent _ _ _ _ =>
      Option DataSubjectRequest
  | .requestByIdempotencyKey _ _ _ => Option (Uuid × DataSubjectRequest)
  | .requestIdsMentioning _ | .queuedArtifactIds | .staleArtifactIds _ | .purgeRetryIds _
  | .artifactIdsMentioning _ => List Uuid
  | .artifactById _ | .lockQueuedArtifact _ | .lockStaleArtifact _ _ | .processingArtifact _ _
  | .lockProcessingArtifact _ _ | .activeUploadIntent _ _ _ | .lockPurgeRetry _ _
  | .lockPurgeTarget _ _ _ _ | .lockArtifactMentioning _ _ => Option ExportArtifact
  | .artifactsOfRequest _ | .expiredReadyArtifacts _ => List (Uuid × ExportArtifact)
  | .resetUploadIntent _ _ _ _ _ | .confirmDelivery _ _ => Bool
  | .savepoint => Saved
  | _ => Unit

/-- `UPDATE ... WHERE p` on one row: the new version of a row that matches. -/
def updateIf {ρ : Type} (p : ρ → Bool) (change : ρ → ρ) (row : ρ) : Option ρ :=
  if p row then some (change row) else none

/-- `processing_lease_expires_at > now`, in processing with `token`. -/
def ExportArtifact.isLeasedTo (token : String) (now : Time) (a : ExportArtifact) : Bool :=
  a.isProcessingWith token && a.processingLeaseExpiresAt.any (now < ·)

/-- The requests whose artifacts may be delivered. -/
def DataSubjectRequest.isDeliverable (r : DataSubjectRequest) : Bool :=
  r.requestType == .export && (r.status == .approved || r.status == .fulfilled) &&
    r.subjectUserId.isSome && r.requesterUserId.isSome

section Exec

variable {τ α : Type} [DecidableEq τ] (t : τ)

/-- The effect of a statement: it waits, or it answers and leaves a database. -/
abbrev Effect (τ α : Type) : Type := Option (Except AppError α × Db τ)

def read (a : α) (db : Db τ) : Effect τ α := some (.ok a, db)

/-- The rows that meet `p`, in the order of `before`. -/
def sortedRows {ρ : Type} (T : Table Uuid τ ρ) (p : ρ → Bool) (before : ρ → ρ → Bool) :
    List (Uuid × ρ) :=
  (T.select t fun _ row => p row).insertionSort fun a b => before a.2 b.2

def artifactIds (p : ExportArtifact → Bool) (before : ExportArtifact → ExportArtifact → Bool)
    (db : Db τ) : List Uuid :=
  (sortedRows t db.artifacts p before).map (·.1)

/-- `FOR UPDATE` on one of the artifacts found. -/
def lockArtifact (id : Uuid) (p : ExportArtifact → Bool) (db : Db τ) :
    Effect τ (Option ExportArtifact) :=
  (db.artifacts.lockRow t id p).map fun out => (.ok out.1, { db with artifacts := out.2 })

/-- `FOR UPDATE SKIP LOCKED` on one of the artifacts found. -/
def lockArtifactOrSkip (id : Uuid) (p : ExportArtifact → Bool) (db : Db τ) :
    Effect τ (Option ExportArtifact) :=
  let out := db.artifacts.lockRowOrSkip t id p
  some (.ok out.1, { db with artifacts := out.2 })

/-- `FOR UPDATE` on one of the requests found. -/
def lockRequest (id : Uuid) (p : DataSubjectRequest → Bool) (db : Db τ) :
    Effect τ (Option DataSubjectRequest) :=
  (db.requests.lockRow t id p).map fun out => (.ok out.1, { db with requests := out.2 })

/-- `UPDATE data_subject_requests ... RETURNING *`. -/
def updateRequest (id : Uuid) (change : DataSubjectRequest → Option DataSubjectRequest)
    (db : Db τ) : Effect τ (Option DataSubjectRequest) :=
  (db.requests.update Table.unindexed .integrityError t id change).map fun out =>
    (out.1, { db with requests := out.2 })

/-- `UPDATE export_artifacts ...`. -/
def updateArtifact (id : Uuid) (change : ExportArtifact → Option ExportArtifact) (db : Db τ) :
    Effect τ (Option ExportArtifact) :=
  (db.artifacts.update Table.unindexed .integrityError t id change).map fun out =>
    (out.1, { db with artifacts := out.2 })

/-- An ORM flush expects to find the row it updates. -/
def flushed {ρ : Type} (out : Effect τ (Option ρ)) : Effect τ Unit :=
  out.map fun r => (match r.1 with
    | .ok (some _) => .ok ()
    | .ok none => .error .staleDataError
    | .error e => .error e, r.2)

/-- `rowcount == 1`. -/
def updated {ρ : Type} (out : Effect τ (Option ρ)) : Effect τ Bool :=
  out.map fun r => (r.1.map (·.isSome), r.2)

/-- The end of transaction `t` with all its writes. -/
def Db.commit (db : Db τ) : Db τ :=
  { db with
    requests := db.requests.commit t, artifacts := db.artifacts.commit t
    erased := db.erased.commit t }

/-- The end of transaction `t` without a trace. -/
def Db.rollback (db : Db τ) : Db τ :=
  { db with
    requests := db.requests.rollback t, artifacts := db.artifacts.rollback t
    erased := db.erased.rollback t }

/-- `t` goes back to a savepoint. -/
def Db.restore (saved : Saved) (db : Db τ) : Db τ :=
  { db with
    requests := db.requests.restore t saved.requests
    artifacts := db.artifacts.restore t saved.artifacts
    erased := db.erased.restore t saved.erased }

/-- What each statement does. -/
def exec (s : Statement) (db : Db τ) : Effect τ (Answer s) :=
  match s with
  | .now => read db.clock db
  | .recordAuditEvent | .lockRequester _ | .lockExecutor _ | .coreProviders _ => read () db
  | .requestById id => read (db.requests.view t id) db
  | .requestForRequester id requester =>
      read ((db.requests.view t id).filter fun r => r.requesterUserId == some requester) db
  | .requestByIdempotencyKey requester hash now =>
      read (sortedRows t db.requests (fun r => r.requesterUserId == some requester &&
        r.idempotencyKeyHash == some hash && r.idempotencyKeyExpiresAt.any (now < ·))
        fun a b => b.createdAt ≤ a.createdAt).head? db
  | .insertRequest id request =>
      (db.requests.insert Table.unindexed .integrityError t id request).map fun out =>
        (out.1, { db with requests := out.2 })
  | .lockRequest id => lockRequest t id (fun _ => true) db
  | .transitionStatusIfCurrent id expected values =>
      updateRequest t id (updateIf (fun r => r.status == expected &&
        (values.nextStatus != .approved || r.representativeStatus.allowsApproval)) values.apply) db
  | .updateRepresentativeIfCurrent id expected expectedRepresentative values =>
      updateRequest t id (updateIf (fun r => r.status == expected &&
        r.representativeStatus == expectedRepresentative) values.apply) db
  | .requestIdsMentioning subject =>
      read ((sortedRows t db.requests (·.mentions subject)
        fun a b => a.createdAt ≤ b.createdAt).map (·.1)) db
  | .lockRequestMentioning id subject => lockRequest t id (·.mentions subject) db
  | .flushRequest id loaded assigned =>
      if assigned = loaded then read () db
      else flushed (updateRequest t id (fun current => some (loaded.flush assigned current)) db)
  | .artifactById id => read (db.artifacts.view t id) db
  | .artifactsOfRequest request =>
      read (sortedRows t db.artifacts (·.dataSubjectRequestId == request)
        fun a b => b.createdAt ≤ a.createdAt) db
  | .insertArtifact id artifact =>
      -- the foreign key to the request, checked with the row
      if (db.requests.view t artifact.dataSubjectRequestId).isSome then
        (db.artifacts.insert Table.unindexed .integrityError t id artifact).map fun out =>
          (out.1, { db with artifacts := out.2 })
      else some (.error .integrityError, db)
  | .queuedArtifactIds =>
      read (artifactIds t (·.status == .queued) (fun a b => a.queuedAt ≤ b.queuedAt) db) db
  | .lockQueuedArtifact id => lockArtifactOrSkip t id (·.status == .queued) db
  | .staleArtifactIds now =>
      read (artifactIds t (·.isStale now) (fun a b =>
        a.processingLeaseExpiresAt.all fun x => b.processingLeaseExpiresAt.all (x ≤ ·)) db) db
  | .lockStaleArtifact id now => lockArtifactOrSkip t id (·.isStale now) db
  | .processingArtifact id token =>
      read ((db.artifacts.view t id).filter (·.isProcessingWith token)) db
  | .lockProcessingArtifact id token => lockArtifact t id (·.isProcessingWith token) db
  | .ensureUploadIntent id token candidateKey metadata now =>
      (updateArtifact t id (updateIf (fun a => a.isLeasedTo token now && a.storageKey.isNone)
        fun a => { a.withMetadata metadata with storageKey := some candidateKey }) db).map
          fun out => (out.1.map fun _ => (), out.2)
  | .activeUploadIntent id token now =>
      read ((db.artifacts.view t id).filter fun a => a.isLeasedTo token now && a.storageKey.isSome) db
  | .resetUploadIntent id token backend key now =>
      updated (updateArtifact t id (updateIf (fun a => a.isLeasedTo token now &&
        a.storageBackend == backend && a.storageKey == some key) ExportArtifact.withoutStorage) db)
  | .expiredReadyArtifacts now =>
      read (sortedRows t db.artifacts (·.isExpiredReady now) fun a b => a.expiresAt ≤ b.expiresAt) db
  | .confirmDelivery id deliveredAt =>
      updated (updateArtifact t id (updateIf (fun a => a.downloadedAt.isNone &&
        a.downloadCount == 0 && a.status == .ready && decide (deliveredAt < a.expiresAt) &&
        a.storageKey.isSome &&
        (db.requests.view t a.dataSubjectRequestId).any (·.isDeliverable))
        fun a => { a with downloadCount := 1, downloadedAt := some deliveredAt }) db)
  | .purgeRetryIds status =>
      read (artifactIds t (fun a => a.status == status && a.storageKey.isSome)
        (fun a b => a.createdAt ≤ b.createdAt) db) db
  | .lockPurgeRetry id status =>
      lockArtifact t id (fun a => a.status == status && a.storageKey.isSome) db
  | .lockPurgeTarget id status backend key =>
      lockArtifact t id (fun a => a.status == status && backend.all (a.storageBackend == ·) &&
        a.storageKey == some key) db
  | .artifactIdsMentioning subject =>
      read (artifactIds t (·.mentions subject) (fun a b => a.createdAt ≤ b.createdAt) db) db
  | .lockArtifactMentioning id subject => lockArtifact t id (·.mentions subject) db
  | .flushArtifact _ id loaded assigned =>
      if assigned = loaded then read () db
      else flushed (updateArtifact t id (fun current => some (loaded.flush assigned current)) db)
  | .markErased request =>
      if db.erased.free t request then
        read () { db with erased := db.erased.put t request (some ()) }
      else none
  | .noteCheck request now =>
      read () { db with checked := Function.update db.checked t (some (request, now)) }
  | .savepoint =>
      read ⟨db.requests.own t, db.artifacts.own t, db.erased.own t⟩ db
  | .rollbackTo saved => read () (db.restore t saved)
  | .commit => read () (db.commit t)
  | .rollback => read () (db.rollback t)

end Exec

/-- The privacy database. Any statement but a rollback may fail; a client that is lost is
    rolled back by the server; the clock may show anything. -/
def machine (τ : Type) [DecidableEq τ] : Machine τ Statement Answer AppError (Db τ) where
  exec := exec
  fallible s := s ≠ .rollback
  crash t db := db.rollback t
  env db db' := ∃ clock, db' = { db with clock }

/-! ## What a step does -/

/-- Two versions of an artifact at the same point of its life. -/
structure SameStage (a b : ExportArtifact) : Prop where
  status : b.status = a.status
  token : b.processingToken = a.processingToken
  lease : b.processingLeaseExpiresAt = a.processingLeaseExpiresAt
  reason : b.failureReasonCode = a.failureReasonCode
  request : b.dataSubjectRequestId = a.dataSubjectRequestId
  expires : b.expiresAt = a.expiresAt

/-- The effect of statement `s` of `t`, and when it has it. -/
inductive Case {τ : Type} [DecidableEq τ] (t : τ) (s : Statement) (db : Db τ) : Db τ → Prop where
  | quiet : s ≠ .commit → Case t s db db
  | insertRequest (id : Uuid) (row : DataSubjectRequest) : s = .insertRequest id row →
      db.requests.view t id = none → db.requests.free t id = true →
      Case t s db { db with requests := db.requests.put t id (some row) }
  | lockRequest (id : Uuid) (row : DataSubjectRequest) : s ≠ .commit →
      db.requests.view t id = some row → db.requests.free t id = true →
      Case t s db { db with requests := db.requests.put t id (some row) }
  | transition (id : Uuid) (expected : DataSubjectRequestStatus)
      (values : DataSubjectRequest.Transition) (row : DataSubjectRequest) :
      s = .transitionStatusIfCurrent id expected values → db.requests.view t id = some row →
      row.status = expected →
      (values.nextStatus = .approved → row.representativeStatus.allowsApproval = true) →
      db.requests.free t id = true →
      Case t s db { db with requests := db.requests.put t id (some (values.apply row)) }
  | review (id : Uuid) (expected : DataSubjectRequestStatus)
      (expectedRepresentative : RepresentativeStatus) (values : DataSubjectRequest.Review)
      (row : DataSubjectRequest) :
      s = .updateRepresentativeIfCurrent id expected expectedRepresentative values →
      db.requests.view t id = some row → row.status = expected →
      db.requests.free t id = true →
      Case t s db { db with requests := db.requests.put t id (some (values.apply row)) }
  | flushRequest (id : Uuid) (loaded assigned row : DataSubjectRequest) :
      s = .flushRequest id loaded assigned → db.requests.view t id = some row →
      db.requests.free t id = true →
      Case t s db { db with requests := db.requests.put t id (some (loaded.flush assigned row)) }
  | insertArtifact (id : Uuid) (row : ExportArtifact) : s = .insertArtifact id row →
      db.artifacts.view t id = none → db.artifacts.free t id = true →
      Case t s db { db with artifacts := db.artifacts.put t id (some row) }
  | touchArtifact (id : Uuid) (row next : ExportArtifact) : s ≠ .commit →
      db.artifacts.view t id = some row → SameStage row next → db.artifacts.free t id = true →
      Case t s db { db with artifacts := db.artifacts.put t id (some next) }
  | flushArtifact (writer : Writer) (id : Uuid) (loaded assigned row : ExportArtifact) :
      s = .flushArtifact writer id loaded assigned → assigned ≠ loaded →
      db.artifacts.view t id = some row → db.artifacts.free t id = true →
      Case t s db { db with artifacts := db.artifacts.put t id (some (loaded.flush assigned row)) }
  | markErased (request : Uuid) : s = .markErased request → db.erased.free t request = true →
      Case t s db { db with erased := db.erased.put t request (some ()) }
  | noteCheck (request : Uuid) (now : Time) : s = .noteCheck request now →
      Case t s db { db with checked := Function.update db.checked t (some (request, now)) }
  | restore (saved : Saved) : s = .rollbackTo saved → Case t s db (db.restore t saved)
  | commit : s = .commit → Case t s db (db.commit t)
  | rollback : s = .rollback → Case t s db (db.rollback t)

theorem SameStage.refl (a : ExportArtifact) : SameStage a a := ⟨rfl, rfl, rfl, rfl, rfl, rfl⟩

section Inversion

variable {τ : Type} [DecidableEq τ] {t : τ} {s : Statement} {db db' : Db τ}

theorem mem_sortedRows {ρ : Type} {T : Table Uuid τ ρ} {p : ρ → Bool} {before : ρ → ρ → Bool}
    {k : Uuid} {r : ρ} : (k, r) ∈ sortedRows t T p before ↔ T.view t k = some r ∧ p r = true := by
  rw [sortedRows, List.mem_insertionSort, Table.mem_select]

theorem flushed_eq {ρ : Type} {out : Effect τ (Option ρ)} {r : Except AppError Unit}
    (h : flushed out = some (r, db')) : ∃ r', out = some (r', db') := by
  obtain ⟨⟨r', db''⟩, is, same⟩ := Option.map_eq_some_iff.mp h
  cases same
  exact ⟨r', is⟩

theorem updated_eq {ρ : Type} {out : Effect τ (Option ρ)} {r : Except AppError Bool}
    (h : updated out = some (r, db')) : ∃ r', out = some (r', db') := by
  obtain ⟨⟨r', db''⟩, is, same⟩ := Option.map_eq_some_iff.mp h
  cases same
  exact ⟨r', is⟩

theorem updateIf_eq {ρ : Type} {p : ρ → Bool} {change : ρ → ρ} {row r : ρ}
    (h : updateIf p change row = some r) : p row = true ∧ r = change row := by
  unfold updateIf at h
  split at h
  · rename_i holds
    exact ⟨holds, (Option.some.inj h).symm⟩
  · cases h

theorem updateRequest_cases {id : Uuid} {change : DataSubjectRequest → Option DataSubjectRequest}
    {r : Except AppError (Option DataSubjectRequest)}
    (h : updateRequest t id change db = some (r, db')) :
    db' = db ∨ ∃ row next, db.requests.view t id = some row ∧ change row = some next ∧
      db.requests.free t id = true ∧
      db' = { db with requests := db.requests.put t id (some next) } := by
  obtain ⟨⟨out, T⟩, found, is⟩ := Option.map_eq_some_iff.mp h
  cases is
  rcases Table.update_cases found with ⟨rfl, -⟩ | ⟨row, next, seen, changed, ok, rfl, -⟩
  · exact .inl rfl
  · exact .inr ⟨row, next, seen, changed, ok.free, rfl⟩

theorem updateArtifact_cases {id : Uuid} {change : ExportArtifact → Option ExportArtifact}
    {r : Except AppError (Option ExportArtifact)}
    (h : updateArtifact t id change db = some (r, db')) :
    db' = db ∨ ∃ row next, db.artifacts.view t id = some row ∧ change row = some next ∧
      db.artifacts.free t id = true ∧
      db' = { db with artifacts := db.artifacts.put t id (some next) } := by
  obtain ⟨⟨out, T⟩, found, is⟩ := Option.map_eq_some_iff.mp h
  cases is
  rcases Table.update_cases found with ⟨rfl, -⟩ | ⟨row, next, seen, changed, ok, rfl, -⟩
  · exact .inl rfl
  · exact .inr ⟨row, next, seen, changed, ok.free, rfl⟩

theorem Case.of_updateArtifact {id : Uuid} {change : ExportArtifact → Option ExportArtifact}
    {r : Except AppError (Option ExportArtifact)} (open_ : s ≠ .commit)
    (stage : ∀ row next, change row = some next → SameStage row next)
    (h : updateArtifact t id change db = some (r, db')) : Case t s db db' := by
  rcases updateArtifact_cases h with rfl | ⟨row, next, seen, changed, free, rfl⟩
  · exact .quiet open_
  · exact .touchArtifact id row next open_ seen (stage row next changed) free

/-- The outcome of locking an artifact. -/
theorem lockArtifact_cases {id : Uuid} {p : ExportArtifact → Bool}
    {r : Except AppError (Option ExportArtifact)} (h : lockArtifact t id p db = some (r, db')) :
    (db' = db ∧ r = .ok none) ∨ ∃ row, db.artifacts.view t id = some row ∧ p row = true ∧
      db.artifacts.free t id = true ∧ r = .ok (some row) ∧
      db' = { db with artifacts := db.artifacts.put t id (some row) } := by
  obtain ⟨⟨out, T⟩, locked, is⟩ := Option.map_eq_some_iff.mp h
  cases is
  rcases Table.lockRow_cases locked with ⟨rfl, rfl, -⟩ | ⟨row, seen, holds, free, rfl, rfl⟩
  · exact .inl ⟨rfl, rfl⟩
  · exact .inr ⟨row, seen, holds, free, rfl, rfl⟩

theorem lockArtifactOrSkip_cases {id : Uuid} {p : ExportArtifact → Bool}
    {r : Except AppError (Option ExportArtifact)}
    (h : lockArtifactOrSkip t id p db = some (r, db')) :
    (db' = db ∧ r = .ok none) ∨ ∃ row, db.artifacts.view t id = some row ∧ p row = true ∧
      db.artifacts.free t id = true ∧ r = .ok (some row) ∧
      db' = { db with artifacts := db.artifacts.put t id (some row) } := by
  simp only [lockArtifactOrSkip, Option.some.injEq, Prod.mk.injEq] at h
  obtain ⟨answer, rfl⟩ := h
  generalize locked : db.artifacts.lockRowOrSkip t id p = out at answer
  obtain ⟨out, T⟩ := out
  rcases Table.lockRowOrSkip_cases locked with ⟨rfl, rfl⟩ | ⟨row, seen, holds, free, rfl, rfl⟩
  · exact .inl ⟨rfl, answer.symm⟩
  · exact .inr ⟨row, seen, holds, free, answer.symm, rfl⟩

theorem lockRequest_cases {id : Uuid} {p : DataSubjectRequest → Bool}
    {r : Except AppError (Option DataSubjectRequest)} (h : lockRequest t id p db = some (r, db')) :
    (db' = db ∧ r = .ok none) ∨ ∃ row, db.requests.view t id = some row ∧ p row = true ∧
      db.requests.free t id = true ∧ r = .ok (some row) ∧
      db' = { db with requests := db.requests.put t id (some row) } := by
  obtain ⟨⟨out, T⟩, locked, is⟩ := Option.map_eq_some_iff.mp h
  cases is
  rcases Table.lockRow_cases locked with ⟨rfl, rfl, -⟩ | ⟨row, seen, holds, free, rfl, rfl⟩
  · exact .inl ⟨rfl, rfl⟩
  · exact .inr ⟨row, seen, holds, free, rfl, rfl⟩

theorem Case.of_lockArtifact {id : Uuid} {p : ExportArtifact → Bool}
    {r : Except AppError (Option ExportArtifact)} (open_ : s ≠ .commit)
    (h : lockArtifact t id p db = some (r, db')) : Case t s db db' := by
  rcases lockArtifact_cases h with ⟨rfl, -⟩ | ⟨row, seen, -, free, -, rfl⟩
  · exact .quiet open_
  · exact .touchArtifact id row row open_ seen (.refl row) free

theorem Case.of_lockArtifactOrSkip {id : Uuid} {p : ExportArtifact → Bool}
    {r : Except AppError (Option ExportArtifact)} (open_ : s ≠ .commit)
    (h : lockArtifactOrSkip t id p db = some (r, db')) : Case t s db db' := by
  rcases lockArtifactOrSkip_cases h with ⟨rfl, -⟩ | ⟨row, seen, -, free, -, rfl⟩
  · exact .quiet open_
  · exact .touchArtifact id row row open_ seen (.refl row) free

theorem Case.of_lockRequest {id : Uuid} {p : DataSubjectRequest → Bool}
    {r : Except AppError (Option DataSubjectRequest)} (open_ : s ≠ .commit)
    (h : Privacy.lockRequest t id p db = some (r, db')) : Case t s db db' := by
  rcases lockRequest_cases h with ⟨rfl, -⟩ | ⟨row, seen, -, free, -, rfl⟩
  · exact .quiet open_
  · exact .lockRequest id row open_ seen free

/-- Every statement has one of these effects. -/
theorem exec_case {r : Except AppError (Answer s)} (h : exec t s db = some (r, db')) :
    Case t s db db' := by
  cases s with
  | insertRequest id request =>
      obtain ⟨⟨out, T⟩, inserted, is⟩ := Option.map_eq_some_iff.mp h
      cases is
      rcases Table.insert_cases inserted with ⟨rfl, -⟩ | ⟨fresh, ok, rfl, -⟩
      · exact .quiet (by simp)
      · exact .insertRequest id request rfl fresh ok.free
  | lockRequest id => exact .of_lockRequest (by simp) h
  | lockRequestMentioning id subject => exact .of_lockRequest (by simp) h
  | transitionStatusIfCurrent id expected values =>
      rcases updateRequest_cases h with rfl | ⟨row, next, seen, changed, free, rfl⟩
      · exact .quiet (by simp)
      · obtain ⟨holds, rfl⟩ := updateIf_eq changed
        simp only [Bool.and_eq_true, beq_iff_eq, Bool.or_eq_true, bne_iff_ne, ne_eq] at holds
        exact .transition id expected values row rfl seen holds.1
          (fun approves => holds.2.resolve_left fun other => other approves) free
  | updateRepresentativeIfCurrent id expected expectedRepresentative values =>
      rcases updateRequest_cases h with rfl | ⟨row, next, seen, changed, free, rfl⟩
      · exact .quiet (by simp)
      · obtain ⟨holds, rfl⟩ := updateIf_eq changed
        simp only [Bool.and_eq_true, beq_iff_eq] at holds
        exact .review id expected expectedRepresentative values row rfl seen holds.1 free
  | flushRequest id loaded assigned =>
      simp only [exec] at h
      split at h
      · cases h
        exact .quiet (by simp)
      · obtain ⟨r', h⟩ := flushed_eq h
        rcases updateRequest_cases h with rfl | ⟨row, next, seen, changed, free, rfl⟩
        · exact .quiet (by simp)
        · cases changed
          exact .flushRequest id loaded assigned row rfl seen free
  | insertArtifact id artifact =>
      simp only [exec] at h
      split at h
      · obtain ⟨⟨out, T⟩, inserted, is⟩ := Option.map_eq_some_iff.mp h
        cases is
        rcases Table.insert_cases inserted with ⟨rfl, -⟩ | ⟨fresh, ok, rfl, -⟩
        · exact .quiet (by simp)
        · exact .insertArtifact id artifact rfl fresh ok.free
      · cases h
        exact .quiet (by simp)
  | lockQueuedArtifact id => exact .of_lockArtifactOrSkip (by simp) h
  | lockStaleArtifact id now => exact .of_lockArtifactOrSkip (by simp) h
  | lockProcessingArtifact id token => exact .of_lockArtifact (by simp) h
  | lockPurgeRetry id status => exact .of_lockArtifact (by simp) h
  | lockPurgeTarget id status backend key => exact .of_lockArtifact (by simp) h
  | lockArtifactMentioning id subject => exact .of_lockArtifact (by simp) h
  | ensureUploadIntent id token candidateKey metadata now =>
      obtain ⟨⟨r', db''⟩, is, same⟩ := Option.map_eq_some_iff.mp h
      cases same
      refine .of_updateArtifact (by simp) (fun row next changed => ?_) is
      obtain ⟨-, rfl⟩ := updateIf_eq changed
      exact ⟨rfl, rfl, rfl, rfl, rfl, rfl⟩
  | resetUploadIntent id token backend key now =>
      obtain ⟨r', is⟩ := updated_eq h
      refine .of_updateArtifact (by simp) (fun row next changed => ?_) is
      obtain ⟨-, rfl⟩ := updateIf_eq changed
      exact ⟨rfl, rfl, rfl, rfl, rfl, rfl⟩
  | confirmDelivery id deliveredAt =>
      obtain ⟨r', is⟩ := updated_eq h
      refine .of_updateArtifact (by simp) (fun row next changed => ?_) is
      obtain ⟨-, rfl⟩ := updateIf_eq changed
      exact ⟨rfl, rfl, rfl, rfl, rfl, rfl⟩
  | flushArtifact writer id loaded assigned =>
      simp only [exec] at h
      split at h
      · cases h
        exact .quiet (by simp)
      · rename_i changes
        obtain ⟨r', h⟩ := flushed_eq h
        rcases updateArtifact_cases h with rfl | ⟨row, next, seen, changed, free, rfl⟩
        · exact .quiet (by simp)
        · cases changed
          exact .flushArtifact writer id loaded assigned row rfl changes seen free
  | markErased request =>
      simp only [exec] at h
      split at h
      · rename_i free
        cases h
        exact .markErased request rfl free
      · cases h
  | noteCheck request now =>
      cases h
      exact .noteCheck request now rfl
  | rollbackTo saved =>
      cases h
      exact .restore saved rfl
  | commit =>
      cases h
      exact .commit rfl
  | rollback =>
      cases h
      exact .rollback rfl
  | _ =>
      cases h
      exact .quiet (by simp)

end Inversion

theorem rollback_ne_commit : Statement.rollback ≠ .commit := by simp

end SaasTemplate.Privacy
