import SaasTemplate.Privacy.ExecutionOperations
import SaasTemplate.Privacy.Lifecycle

/-! # The execution status along a history

The operations on artifacts one after the other, each a transaction of its own, from a database
without artifacts. The clock and the requests move on between them. An operation that raises is
rolled back, so a history does not mention it.
-/

namespace SaasTemplate.Privacy

open SaasTemplate.Isolation SaasTemplate.Isolation.Machine

variable {db db' : Db Unit} {settings : ExportSettings}

/-- `mark_expired_artifacts`. -/
def markExpiredArtifacts (limit : Nat) : Tx Unit := do
  Prog.raiseIf (limit < 1) (.valueError "Export artifact retention limit must be positive")
  let now ← sql .now
  expireReadyArtifacts now limit

/-- An operation that writes the execution status. -/
inductive ExportOp where
  | request (newId requestId requestedByUserId : Uuid)
  | claim (batchSize : Nat) (token : Uuid → String)
  | recover (limit : Nat)
  | markReady (prepared : PreparedExportArchive) (token : String)
  | markFailed (id : Uuid) (token text : String)
  | confirmDelivery (id : Uuid)
  | expire (limit : Nat)

def ExportOp.work (settings : ExportSettings) : ExportOp → Tx Unit
  | .request newId requestId requestedByUserId =>
      requestExportArtifact settings newId requestId requestedByUserId
  | .claim batchSize token => claimQueuedArtifactLeases settings batchSize token
  | .recover limit => recoverStaleProcessingArtifacts limit
  | .markReady prepared token => markGeneratedExportArtifactReady prepared token
  | .markFailed id token text => markExportArtifactFailed id token text
  | .confirmDelivery id => confirmExportDelivery settings id
  | .expire limit => markExpiredArtifacts limit

/-- What the worker does to its artifact between the claim and the end. -/
inductive UploadOp where
  | renew (id : Uuid) (token : String)
  | prepare (id : Uuid) (token candidateKey : String) (archive : Except AppError (Nat × String))
  | resetIntent (prepared : PreparedExportArchive) (token : String)

def UploadOp.work (settings : ExportSettings) : UploadOp → Tx Unit
  | .renew id token => do let _ ← renewProcessingLease id token
  | .prepare id token candidateKey archive => do
      let _ ← prepareExportArchive settings id token candidateKey archive
  | .resetIntent prepared token => resetPreparedExportUploadIntent prepared token

/-- `work` commits, with nobody else at work. -/
def Commits (work : Tx Unit) (db db' : Db Unit) : Prop :=
  (machine Unit).solo () (inTransaction work) db = some (.ok (), db')

/-- Time passes, and requests are decided and minimised; none is lost or changes its type. -/
structure Elapses (db db' : Db Unit) : Prop where
  artifacts : db'.artifacts = db.artifacts
  clock : db.clock ≤ db'.clock
  requests : ∀ id row, db.request id = some row →
    ∃ row', db'.request id = some row' ∧ row'.requestType = row.requestType

/-- The databases that a history leads to, if every operation `meets` a condition. -/
inductive History (meets : ExportSettings → ExportOp → Db Unit → Prop) : Db Unit → Prop where
  | start {db : Db Unit} : (∀ id, db.artifact id = none) → History meets db
  | elapse {db db' : Db Unit} : History meets db → Elapses db db' → History meets db'
  | upload {db db' : Db Unit} (settings : ExportSettings) (op : UploadOp) : History meets db →
      Commits (op.work settings) db db' → History meets db'
  | operation {db db' : Db Unit} (settings : ExportSettings) (op : ExportOp) : History meets db →
      meets settings op db → Commits (op.work settings) db db' → History meets db'

/-- Every request of which an artifact has changed mirrors its latest artifact. -/
def MirrorsChanged (db db' : Db Unit) : Prop :=
  ∀ id a, db'.artifact id = some a → db.artifact id ≠ some a → Mirrors a.dataSubjectRequestId db'

/-- No artifact becomes ready after its expiry as the latest of its request, and none of a
    request whose latest artifact has lost its lease is recovered or expired without that one. -/
def ExportOp.KeepsPace (settings : ExportSettings) : ExportOp → Db Unit → Prop
  | .claim batchSize _, db => settings.enabled = true → Undisturbed (staleBatch batchSize db) db
  | .recover limit, db => Undisturbed (staleBatch limit db) db
  | .markReady prepared _, db => ReadyInTime prepared.artifactId db
  | .expire limit, db => Undisturbed (expiredBatch limit db) db
  | _, _ => True

/-! ## Each step -/

theorem Regular.commit (regular : Regular db) : Regular (db.commit ()) :=
  regular.congr (fun k => Table.view_commit () db.artifacts k) rfl
    fun k => Table.view_commit () db.requests k

theorem Mirrors.commit {r : Uuid} (mirrors : Mirrors r db) : Mirrors r (db.commit ()) := by
  refine Mirrors.congr ?_ ?_ ?_ ?_ mirrors
  · rfl
  · exact fun k => Table.view_commit () db.artifacts k
  · rfl
  · exact fun k => Table.view_commit () db.requests k

theorem Kept.commit (kept : Kept db db') : Kept db (db'.commit ()) where
  regular := kept.regular.commit
  clock := kept.clock
  kept id a seen := by
    have before : db'.artifact id = some a := (Table.view_commit () db'.artifacts id).symm.trans seen
    exact (kept.kept id a before).imp_right Mirrors.commit

/-- What the work of a transaction ensures, its commit keeps. -/
theorem commits_ensures {work : Tx Unit} {Q : Db Unit → Prop}
    (ensures : (machine Unit).Ensures () work (fun _ db' => Q (db'.commit ())) db)
    (commits : Commits work db db') : Q db' := by
  have whole : (machine Unit).Ensures () (inTransaction work) (fun _ db' => Q db') db := by
    refine ensures_transaction (ensures.mono fun _ middle holds u after committed => ?_)
    cases committed
    exact holds
  exact whole () db' commits

theorem ExportOp.work_ensures {op : ExportOp} (regular : Regular db)
    (pace : op.KeepsPace settings db) :
    (machine Unit).Ensures () (op.work settings) (fun _ db' => Kept db db') db := by
  cases op with
  | request => exact requestExportArtifact_ensures regular
  | claim => exact (claimQueuedArtifactLeases_ensures regular pace).mono fun _ _ h => h.done
  | recover => exact (recoverStaleProcessingArtifacts_ensures regular pace).mono fun _ _ h => h.done
  | markReady => exact markGeneratedExportArtifactReady_ensures regular pace
  | markFailed => exact markExportArtifactFailed_ensures regular
  | confirmDelivery => exact confirmExportDelivery_ensures regular
  | expire limit =>
      refine ensures_bind (ensures_raiseIf fun _ => ensures_bind (ensures_stmt fun _ _ executed => ?_))
      cases executed
      exact (expireReadyArtifacts_ensures regular pace).mono fun _ _ h => h.done

/-- A change of the lease or of the upload intent. -/
theorem ArtifactWritten.uploaded {id : Uuid} {a row : ExportArtifact}
    (h : ArtifactWritten id a db db') (regular : Regular db) (seen : db.artifact id = some row)
    (status : a.status = row.status) (started : a.startedAt = row.startedAt)
    (completed : a.completedAt = row.completedAt) (downloaded : a.downloadedAt = row.downloadedAt)
    (count : a.downloadCount = row.downloadCount)
    (request : a.dataSubjectRequestId = row.dataSubjectRequestId) : Regular db' := by
  have ok := regular.artifacts id row seen
  refine h.regular regular seen ⟨?_, ?_, ?_, ?_⟩ request
  · rw [downloaded, count, status]
    exact ok.delivered
  · exact started ▸ ok.started
  · exact completed ▸ ok.completed
  · exact status ▸ ok.live

theorem processingArtifact_seen {id : Uuid} {token : String} {a : ExportArtifact}
    (h : (db.artifacts.view () id).filter (·.isProcessingWith token) = some a) :
    db.artifact id = some a :=
  (Option.filter_eq_some_iff.mp h).1

theorem renewProcessingLease_ensures {id : Uuid} {token : String} (regular : Regular db) :
    (machine Unit).Ensures () (renewProcessingLease id token) (fun _ db' => Regular db') db := by
  refine ensures_bind (ensures_stmt fun found db' executed => ?_)
  cases executed
  cases found : (db.artifacts.view () id).filter (·.isProcessingWith token) with
  | none => exact ensures_pure regular
  | some a =>
      have seen := processingArtifact_seen found
      refine ensures_bind (ensures_stmt fun now db' executed => ?_)
      cases executed
      refine ensures_bind (ensures_stmt fun u middle executed => ensures_pure ?_)
      exact (flushArtifact_written seen executed).uploaded regular seen rfl rfl rfl rfl rfl rfl

theorem preparedFromIntent_ensures {id : Uuid} {a : ExportArtifact} {Q : Db Unit → Prop} (h : Q db) :
    (machine Unit).Ensures () (preparedFromIntent id a) (fun _ db' => Q db') db := by
  unfold preparedFromIntent
  split
  · exact ensures_pure h
  · exact ensures_raise

/-- A conditional update of the intent columns. -/
theorem updateIf_regular {id : Uuid} {p : ExportArtifact → Bool} {change : ExportArtifact → ExportArtifact}
    {out : Option ExportArtifact} (regular : Regular db)
    (h : updateArtifact () id (updateIf p change) db = some (.ok out, db'))
    (same : ∀ a, (change a).status = a.status ∧ (change a).startedAt = a.startedAt ∧
      (change a).completedAt = a.completedAt ∧ (change a).downloadedAt = a.downloadedAt ∧
      (change a).downloadCount = a.downloadCount ∧
      (change a).dataSubjectRequestId = a.dataSubjectRequestId) : Regular db' := by
  rcases updateArtifact_ok h with ⟨-, rfl⟩ | ⟨row, next, seen, moves, -, written⟩
  · exact regular
  · obtain ⟨-, rfl⟩ := updateIf_eq moves
    obtain ⟨status, started, completed, downloaded, count, request⟩ := same row
    exact written.uploaded regular seen status started completed downloaded count request

theorem prepareExportArchive_ensures {id : Uuid} {token candidateKey : String}
    {archive : Except AppError (Nat × String)} (regular : Regular db) :
    (machine Unit).Ensures () (prepareExportArchive settings id token candidateKey archive)
      (fun _ db' => Regular db') db := by
  refine ensureExportsEnabled_ensures.bind ?_
  rintro - db rfl
  refine ensures_bind (ensures_stmt fun found db' executed => ?_)
  cases executed
  refine ensures_bind (ensures_orRaise fun artifact _ => ?_)
  refine ensures_bind (ensures_stmt fun request db' executed => ?_)
  cases executed
  refine ensures_bind (ensures_orRaise fun request _ => ?_)
  refine ensures_bind (ensures_raiseIf fun _ => ?_)
  split
  · exact preparedFromIntent_ensures regular
  · split
    · exact ensures_raise
    · refine ensures_bind (ensures_raiseIf fun _ => ?_)
      refine ensures_bind (ensures_stmt fun now db' executed => ?_)
      cases executed
      refine ensures_bind (ensures_stmt fun u middle executed => ?_)
      obtain ⟨⟨out, after⟩, changed, is⟩ := Option.map_eq_some_iff.mp executed
      obtain ⟨answer, rfl⟩ := Prod.mk.inj is
      cases out with
      | error e => cases answer
      | ok out =>
          have kept : Regular after :=
            updateIf_regular regular changed fun _ => ⟨rfl, rfl, rfl, rfl, rfl, rfl⟩
          refine ensures_bind (ensures_stmt fun intent db' executed => ?_)
          cases executed
          exact ensures_bind (ensures_orRaise fun intent _ => preparedFromIntent_ensures kept)

theorem resetPreparedExportUploadIntent_ensures {prepared : PreparedExportArchive} {token : String}
    (regular : Regular db) :
    (machine Unit).Ensures () (resetPreparedExportUploadIntent prepared token)
      (fun _ db' => Regular db') db := by
  refine ensures_bind (ensures_stmt fun now db' executed => ?_)
  cases executed
  refine ensures_bind (ensures_stmt fun reset middle executed => ?_)
  obtain ⟨⟨out, after⟩, changed, is⟩ := Option.map_eq_some_iff.mp executed
  obtain ⟨answer, rfl⟩ := Prod.mk.inj is
  cases out with
  | error e => cases answer
  | ok out =>
      exact ensures_raiseIf fun _ =>
        updateIf_regular regular changed fun _ => ⟨rfl, rfl, rfl, rfl, rfl, rfl⟩

theorem UploadOp.work_ensures {op : UploadOp} (regular : Regular db) :
    (machine Unit).Ensures () (op.work settings) (fun _ db' => Regular db') db := by
  cases op with
  | renew => exact (renewProcessingLease_ensures regular).bind fun _ _ kept => ensures_pure kept
  | prepare => exact (prepareExportArchive_ensures regular).bind fun _ _ kept => ensures_pure kept
  | resetIntent => exact resetPreparedExportUploadIntent_ensures regular

/-! ## The whole history -/

theorem Elapses.regular (h : Elapses db db') (regular : Regular db) : Regular db' := by
  have artifact : ∀ k, db'.artifact k = db.artifact k := fun k => by rw [Db.artifact, h.artifacts]
  refine ⟨fun k a seen => ?_, fun k a seen => ?_⟩
  · have ok := regular.artifacts k a ((artifact k).symm.trans seen)
    exact ⟨ok.delivered, fun x is => Int.le_trans (ok.started x is) h.clock,
      fun x is => Int.le_trans (ok.completed x is) h.clock, ok.live⟩
  · obtain ⟨row, there, type⟩ := regular.requests k a ((artifact k).symm.trans seen)
    obtain ⟨row', after, same⟩ := h.requests _ row there
    exact ⟨row', after, same.trans type⟩

theorem ExportOp.commits_kept {op : ExportOp} (regular : Regular db) (pace : op.KeepsPace settings db)
    (commits : Commits (op.work settings) db db') : Kept db db' :=
  commits_ensures ((op.work_ensures regular pace).mono fun _ _ kept => kept.commit) commits

theorem History.regular (history : History ExportOp.KeepsPace db) : Regular db := by
  induction history with
  | start none => exact ⟨fun id a seen => by simp [none] at seen, fun id a seen => by simp [none] at seen⟩
  | elapse _ elapses ih => exact elapses.regular ih
  | upload settings op _ commits ih =>
      exact commits_ensures ((op.work_ensures ih).mono fun _ _ kept => kept.commit) commits
  | operation settings op _ pace commits ih => exact (op.commits_kept ih pace commits).regular

/-- Exports are kept for a day. -/
def mirrorSettings : ExportSettings := ⟨true, .local, 86400, 100⟩

/-- Request 1 is approved, and has no artifacts. -/
def mirrorStart : Db Unit where
  requests := .ofRows [(1, { exampleRequest with executionStatus := .notStarted })]
  artifacts := .ofRows []
  erased := .ofRows []
  checked _ := none
  clock := 0

/-- The database after `work`. -/
def afterWork (work : Tx Unit) (db : Db Unit) : Db Unit :=
  match (machine Unit).solo () (inTransaction work) db with
  | some out => out.2
  | none => db

theorem commits_afterWork {work : Tx Unit}
    (ok : ((machine Unit).solo () (inTransaction work) db).map (·.1) = some (.ok ())) :
    Commits work db (afterWork work db) := by
  obtain ⟨⟨r, after⟩, ran, rfl⟩ := Option.map_eq_some_iff.mp ok
  rw [Commits, afterWork, ran]

def mirrorArchive : PreparedExportArchive :=
  ⟨10, .local, "exports/10.zip", ⟨"privacy-export-10.zip", "application/zip", 1, "digest"⟩⟩

def mirrorRequest : ExportOp := .request 10 1 7
def mirrorClaim : ExportOp := .claim 5 fun _ => "token"
def mirrorUpload : UploadOp := .prepare 10 "token" "exports/10.zip" (.ok (1, "digest"))
def mirrorReady : ExportOp := .markReady mirrorArchive "token"

/-- Artifact 10 is asked for at 0, and claimed and uploaded at `claimedAt`. -/
def mirrorUploaded (claimedAt : Time) : Db Unit :=
  let requested := afterWork (mirrorRequest.work mirrorSettings) mirrorStart
  let claimed := afterWork (mirrorClaim.work mirrorSettings) { requested with clock := claimedAt }
  afterWork (mirrorUpload.work mirrorSettings) claimed

theorem elapses_clock {clock : Time} (later : db.clock ≤ clock) :
    Elapses db { db with clock := clock } :=
  ⟨rfl, later, fun _ row here => ⟨row, here, rfl⟩⟩

theorem mirrorUploaded_history {meets : ExportSettings → ExportOp → Db Unit → Prop}
    (requests : meets mirrorSettings mirrorRequest mirrorStart)
    (claims : meets mirrorSettings mirrorClaim
      { afterWork (mirrorRequest.work mirrorSettings) mirrorStart with clock := 86000 }) :
    History meets (mirrorUploaded 86000) := by
  have asked : History meets (afterWork (mirrorRequest.work mirrorSettings) mirrorStart) :=
    .operation mirrorSettings mirrorRequest (.start fun id => by rfl) requests
      (commits_afterWork (by decide))
  have waited : History meets
      { afterWork (mirrorRequest.work mirrorSettings) mirrorStart with clock := 86000 } :=
    asked.elapse (elapses_clock (by decide))
  have claimed := waited.operation mirrorSettings mirrorClaim claims (commits_afterWork (by decide))
  exact claimed.upload mirrorSettings mirrorUpload (commits_afterWork (by decide))

/-- Nothing is stale when artifact 10 is claimed. -/
theorem mirrorClaim_keepsPace : mirrorClaim.KeepsPace mirrorSettings
    { afterWork (mirrorRequest.work mirrorSettings) mirrorStart with clock := 86000 } := by
  have none : staleBatch 5
      { afterWork (mirrorRequest.work mirrorSettings) mirrorStart with clock := 86000 } = [] := by
    decide
  intro _ row member
  simp [none] at member

end SaasTemplate.Privacy
