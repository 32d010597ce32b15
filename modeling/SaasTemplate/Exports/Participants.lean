import SaasTemplate.Exports.Runs

/-! # No export of an erased subject

A worker looks at the request of an artifact once, before it writes the archive, and whoever
asks for an export reads the request before the insert; the erasure of a participant may come
between any two of their statements. What the clients have read of requests and leases shows
that an artifact whose request has lost a participant never becomes ready.
-/

set_option linter.unusedSectionVars false

namespace SaasTemplate.Exports

open SaasTemplate.Isolation SaasTemplate.Isolation.Prog
open SaasTemplate.Privacy
open SaasTemplate.Storage (Bytes)
open SaasTemplate.Storage.Local (exampleSha256)
open SaasTemplate.Outbox (written)
open Retention (Table clearPurge clearPurges)

variable {α β τ : Type} [DecidableEq τ]

/-! ## Readings -/

inductive Reading where
  /-- the request has, or had, these participants -/
  | request (id : Uuid) (subject requester : Option Uuid)
  /-- under this lease the artifact is one of this request -/
  | artifact (id : Uuid) (token : String) (request : Uuid)
  /-- under this lease the request of the artifact has its participants -/
  | checked (id : Uuid) (token : String)
  deriving DecidableEq

/-- The lease whose artifact is one of the request. -/
def checkedOf (request : Uuid) : Reading → Option Reading
  | .artifact id token other => if other = request then some (.checked id token) else none
  | _ => none

/-- What an exportable request says of the artifacts that the client has found. -/
def readRequest (φ : List Reading) (id : Uuid) (r : DataSubjectRequest) : List Reading :=
  .request id r.subjectUserId r.requesterUserId ::
    ((if isExportable r then φ.filterMap (checkedOf id) else []) ++ φ)

def reading : Automaton (List Reading) Statement Answer AppError
  | φ, .requestById id, .ok (some r) => some (readRequest φ id r)
  | φ, .processingArtifact id token, .ok (some a) =>
      some (.artifact id token a.dataSubjectRequestId :: φ)
  | φ, .insertArtifact _ a, _ =>
      if IsNew a ∧ .request a.dataSubjectRequestId a.subjectUserId a.requesterUserId ∈ φ then
        some φ
      else none
  | φ, .ensureUploadIntent id token _, _ => if .checked id token ∈ φ then some φ else none
  | φ, _, _ => some φ

/-! ## Every client reads before it writes -/

/-- The program keeps to the automaton, whatever its client has read. -/
def Cautious (p : Tx α) : Prop := ∀ φ, p.Follows reading (fun _ _ => True) φ

theorem cautious_pure {a : α} : Cautious (pure a) := fun _ => trivial

theorem cautious_raise {e : AppError} : Cautious (raise e : Tx α) := fun _ => trivial

theorem cautious_raiseIf {cond : Prop} [Decidable cond] {e : AppError} :
    Cautious (raiseIf cond e) := fun _ => follows_raiseIf trivial trivial

theorem cautious_orRaise {value : Option α} {e : AppError} : Cautious (orRaise value e) :=
  fun _ => follows_orRaise (fun _ => trivial) trivial

theorem cautious_issue {s : Statement} (free : ∀ φ r, ∃ ψ, reading φ s r = some ψ) :
    Cautious (issue s) := fun φ r => (free φ r).imp fun _ next => ⟨next, trivial⟩

/-- A statement that teaches nothing and needs nothing. -/
theorem cautious_free {s : Statement} (free : ∀ φ r, reading φ s r = some φ) :
    Cautious (issue s) := cautious_issue fun φ r => ⟨φ, free φ r⟩

theorem Cautious.bind {p : Tx α} {f : α → Tx β} (first : Cautious p)
    (further : ∀ a, Cautious (f a)) : Cautious (p >>= f) := fun φ =>
  (first φ).bind (fun a ψ _ => further a ψ) fun _ _ _ => trivial

theorem Cautious.attempt {p : Tx α} (h : Cautious p) : Cautious p.attempt := fun φ =>
  (h φ).attempt.mono fun _ _ _ => trivial

theorem Cautious.handle {p : Tx α} {f : AppError → Tx α} (h : Cautious p)
    (handler : ∀ e, Cautious (f e)) : Cautious (p.handle f) := by
  refine h.attempt.bind fun r => ?_
  cases r with
  | ok a => exact cautious_pure
  | error e => exact handler e

theorem cautious_forEach {xs : List β} {f : β → Tx Unit} (each : ∀ x, Cautious (f x)) :
    Cautious (forEach xs f) := by
  induction xs with
  | nil => exact cautious_pure
  | cons x xs ih => exact (each x).bind fun _ => ih

theorem cautious_storage {backend : StorageBackend} {call : Storage.Local.StorageCall} :
    Cautious (issue (.storage backend call)) := cautious_free fun _ _ => rfl

/-- A question about an artifact: the client may learn its request. -/
theorem cautious_processingArtifact {id : Uuid} {token : String} :
    Cautious (issue (.processingArtifact id token)) := by
  refine cautious_issue fun φ r => ?_
  rcases r with e | _ | a <;> exact ⟨_, rfl⟩

section Programs

variable {settings : ExportSettings} {sha256 : Bytes → String} {lease : ProcessingExportLease}
  {φ : List Reading}

theorem cautious_objectState {backend : StorageBackend} {call : Storage.Local.StorageCall} :
    Cautious (objectState backend call) := by
  refine cautious_storage.bind fun outcome => ?_
  split
  · exact cautious_pure
  · exact cautious_raise

theorem cautious_deleteObject {backend : StorageBackend} {key : String} :
    Cautious (deleteObject backend key) :=
  cautious_storage.bind fun _ => cautious_pure

/-- The new artifact has the participants that its client has read. -/
theorem cautious_request {newId requestId requestedByUserId : Uuid} :
    Cautious (requestExportArtifact settings newId requestId requestedByUserId) := by
  refine cautious_raiseIf.bind fun _ φ => ?_
  refine Follows.bind (Q := fun r ψ => ∀ request, r = .ok (some request) →
    .request requestId request.subjectUserId request.requesterUserId ∈ ψ) (fun r => ?_)
    (fun found ψ told => ?_) fun _ _ _ => trivial
  · rcases r with e | _ | request
    · exact ⟨φ, rfl, fun _ is => by cases is⟩
    · exact ⟨φ, rfl, fun _ is => by cases is⟩
    · refine ⟨_, rfl, ?_⟩
      rintro _ ⟨⟩
      exact List.mem_cons_self
  · cases found with
    | none => exact trivial
    | some request =>
        have known := told request rfl
        refine Follows.bind (p := raiseIf _ _) (Q := fun _ χ => ψ = χ) (follows_raiseIf rfl rfl) ?_
          fun _ _ _ => trivial
        rintro _ _ rfl queued
        refine ⟨_, rfl, ?_⟩
        cases queued with
        | error e => exact trivial
        | ok queuedAt =>
            intro r
            exact ⟨_, if_pos ⟨isNew_queuedArtifact, known⟩, trivial⟩

theorem cautious_comparedIntent {id : Uuid} {intent : ExportArtifact} {candidate : String}
    {metadata : ExportArtifact.Metadata} {body : Bytes} :
    Cautious (comparedIntent id intent candidate metadata body) := by
  unfold comparedIntent
  split
  · exact cautious_raise
  · split <;> exact cautious_pure

theorem follows_writeAndIntend
    (known : .checked lease.artifactId lease.processingToken ∈ φ) :
    (writeAndIntend settings sha256 lease).Follows reading (fun _ _ => True) φ := by
  refine Follows.bind (Q := fun _ χ => φ = χ) (fun r => ⟨φ, rfl, rfl⟩) ?_ fun _ _ _ => trivial
  rintro body _ rfl
  refine Follows.bind (Q := fun _ χ => φ = χ) (follows_raiseIf rfl rfl) ?_ fun _ _ _ => trivial
  rintro _ _ rfl
  refine Follows.bind (Q := fun _ _ => True) (fun r => ⟨φ, if_pos known, trivial⟩) ?_
    fun _ _ _ => trivial
  rintro ⟨candidate, intent⟩ ψ -
  exact cautious_orRaise.bind (fun _ => cautious_comparedIntent) ψ

/-- The intent is committed only after the request was found to have its participants. -/
theorem follows_prepareFound {a : ExportArtifact}
    (known : .artifact lease.artifactId lease.processingToken a.dataSubjectRequestId ∈ φ) :
    (prepareFound settings sha256 lease a).Follows reading (fun _ _ => True) φ := by
  refine Follows.bind (Q := fun r ψ => ∀ request, r = .ok (some request) →
    isExportable request = true → .checked lease.artifactId lease.processingToken ∈ ψ)
    (fun r => ?_) (fun found ψ told => ?_) fun _ _ _ => trivial
  · rcases r with e | _ | request
    · exact ⟨φ, rfl, fun _ is => by cases is⟩
    · exact ⟨φ, rfl, fun _ is => by cases is⟩
    · refine ⟨_, rfl, ?_⟩
      rintro _ ⟨⟩ exportable
      refine List.mem_cons_of_mem _ (List.mem_append_left _ ?_)
      rw [if_pos exportable]
      exact List.mem_filterMap.mpr ⟨_, known, if_pos rfl⟩
  · cases found with
    | none => exact trivial
    | some request =>
        refine Follows.bind (Q := fun r χ => r = .ok () →
          .checked lease.artifactId lease.processingToken ∈ χ) ?_ (fun _ χ known => ?_)
          fun _ _ _ => trivial
        · unfold raiseIf
          split
          · exact nofun
          · rename_i exportable
            exact fun _ => told request rfl (by simpa using exportable)
        · split
          · split
            · exact trivial
            · exact trivial
          · exact follows_writeAndIntend (known rfl)

theorem cautious_prepare : Cautious (prepareExportArchive settings sha256 lease) := by
  refine cautious_raiseIf.bind fun _ φ => ?_
  refine Follows.bind (Q := fun r ψ => ∀ a, r = .ok (some a) →
    .artifact lease.artifactId lease.processingToken a.dataSubjectRequestId ∈ ψ) (fun r => ?_)
    (fun found ψ told => ?_) fun _ _ _ => trivial
  · rcases r with e | _ | a
    · exact ⟨φ, rfl, fun _ is => by cases is⟩
    · exact ⟨φ, rfl, fun _ is => by cases is⟩
    · refine ⟨_, rfl, ?_⟩
      rintro _ ⟨⟩
      exact List.mem_cons_self
  · cases found with
    | none => exact trivial
    | some a => exact follows_prepareFound (told a rfl)

theorem cautious_write {prepared : PreparedExportArchive} {body : Bytes} :
    Cautious (writeExportArchive lease prepared body) := by
  have cancel : ∀ reservation e, Cautious (do
      let _ ← issue (.storage prepared.storageBackend (.cancel reservation))
      (raise e : Tx Unit)) := fun _ _ => cautious_storage.bind fun _ => cautious_raise
  refine Cautious.bind (cautious_storage.bind fun outcome => ?_) fun reservation => ?_
  · split
    · exact cautious_pure
    · exact cautious_raise
  refine (cautious_free fun _ _ => rfl).attempt.bind fun validated => ?_
  split
  · exact cancel _ _
  split
  · exact cancel _ _
  refine cautious_storage.attempt.bind fun published => ?_
  split
  · exact cautious_pure
  split
  · exact cautious_raise
  · exact cancel _ _

theorem cautious_reset {prepared : PreparedExportArchive} :
    Cautious (resetCommittedExportUploadIntent lease prepared) := by
  refine (cautious_free fun _ _ => rfl).bind fun _ => cautious_objectState.bind fun state => ?_
  split
  · exact cautious_pure
  · refine (cautious_free fun _ _ => rfl).bind fun reset => ?_
    exact cautious_raiseIf.bind fun _ => cautious_pure

theorem cautious_recoverOrPrepare {first : WrittenExportArchive} :
    Cautious (recoverOrPrepare settings sha256 lease first) := by
  unfold recoverOrPrepare
  split
  · exact cautious_pure
  refine (cautious_objectState.bind fun _ => cautious_pure).bind fun recovered => ?_
  split
  · exact cautious_pure
  refine cautious_reset.bind fun reset => ?_
  split
  · exact cautious_prepare
  · exact cautious_pure

theorem cautious_generate : Cautious (generateArtifact settings sha256 lease) := by
  refine cautious_prepare.bind fun first => cautious_recoverOrPrepare.bind fun written => ?_
  refine Cautious.bind ?_ fun _ => cautious_free fun _ _ => rfl
  unfold writeIfPrepared
  split
  · exact cautious_write
  · exact cautious_pure

theorem cautious_cleanup {cleanup : FailedExportStorageCleanup} :
    Cautious (cleanupFailedExportStorage cleanup) := by
  refine cautious_deleteObject.attempt.bind fun deleted => ?_
  split
  · exact cautious_pure
  · exact (cautious_free fun _ _ => rfl).attempt.bind fun _ => cautious_pure

theorem cautious_process {str : AppError → String} :
    Cautious (processArtifact settings sha256 str lease) := by
  refine cautious_generate.handle fun e => ?_
  split
  · exact cautious_pure
  refine (cautious_free fun _ _ => rfl).bind fun cleanup => ?_
  split
  · exact cautious_cleanup
  · exact cautious_pure

theorem cautious_rounds {str : AppError → String} {batchSize : Nat} {once polls : Bool}
    (rounds : Nat) :
    Cautious (workerRounds settings sha256 str batchSize once polls rounds) := by
  induction rounds with
  | zero => exact cautious_pure
  | succ rounds ih =>
      refine Cautious.bind ?_ fun leases => ?_
      · unfold claimLeases
        split
        · exact cautious_pure
        · exact cautious_free fun _ _ => rfl
      · refine (cautious_forEach fun _ => cautious_process).bind fun _ => ?_
        split
        · exact cautious_pure
        · exact ih.bind fun _ => cautious_pure

theorem cautious_heartbeat (beats : Nat) : Cautious (heartbeatProcessingLease lease beats) := by
  induction beats with
  | zero => exact cautious_pure
  | succ beats ih =>
      refine cautious_processingArtifact.bind fun found => ?_
      split
      · exact cautious_pure
      · refine (cautious_free fun _ _ => rfl).bind fun _ => ?_
        exact (cautious_free fun _ _ => rfl).bind fun _ => ih

theorem cautious_deletePurges (purges : List ExportArtifactStoragePurge) :
    Cautious (deleteExportStoragePurges settings purges) := by
  induction purges with
  | nil => exact cautious_pure
  | cons purge rest ih =>
      refine cautious_deleteObject.attempt.bind fun answer => ih.bind fun _ => ?_
      cases answer <;> exact cautious_pure

theorem cautious_retention {now : Time} {limit nonExport : Nat} :
    Cautious (exportRetentionPass settings now limit nonExport) := by
  refine cautious_raiseIf.bind fun _ => (cautious_free fun _ _ => rfl).bind fun cancelled => ?_
  refine (cautious_deletePurges _).bind fun _ => (cautious_free fun _ _ => rfl).bind fun _ => ?_
  refine (cautious_deletePurges _).bind fun _ => (cautious_free fun _ _ => rfl).bind fun _ => ?_
  refine (cautious_free fun _ _ => rfl).bind fun _ => (cautious_deletePurges _).bind fun _ => ?_
  refine (cautious_free fun _ _ => rfl).bind fun _ => ?_
  split
  · exact cautious_pure
  split
  · exact cautious_raise
  · exact cautious_pure

theorem cautious_program (op : PipelineOp) : Cautious (op.program settings sha256) := by
  cases op with
  | request newId requestId requestedByUserId =>
      exact cautious_request.bind fun _ => cautious_pure
  | worker str batchSize rounds dryRun once polls =>
      refine cautious_raiseIf.bind fun _ => ?_
      split
      · split
        · exact cautious_pure
        · exact cautious_free fun _ _ => rfl
      · exact cautious_rounds rounds
  | heartbeat lease beats => exact (cautious_heartbeat beats).bind fun _ => cautious_pure
  | retention now limit nonExport => exact cautious_retention
  | erasure subject =>
      refine Cautious.bind ?_ fun _ => cautious_pure
      refine (cautious_free fun _ _ => rfl).bind fun deletions => ?_
      refine cautious_forEach fun deletion => ?_
      exact cautious_deleteObject.attempt.bind fun _ => cautious_pure

end Programs

/-! ## What the readings say -/

/-- The request has its participants. -/
def Db.Linked (db : Db) (request : Uuid) : Prop :=
  ∃ r, db.requests request = some r ∧ hasParticipantLinks r = true

/-- What holds of an artifact: it names the participants of its request, as long as that has
    them; it has no key and may get none when it has not; and its token was drawn. -/
structure Sound (db : Db) (a : ExportArtifact) : Prop where
  copied : ∃ r, db.requests a.dataSubjectRequestId = some r ∧ (hasParticipantLinks r = true →
    r.subjectUserId = a.subjectUserId ∧ r.requesterUserId = a.requesterUserId)
  keyless : a.storageKey = none ∨ a.status.isFinal = true ∨ db.Linked a.dataSubjectRequestId
  drawn : ∀ token, a.isProcessingWith token = true → token ∈ db.used

def Reading.IsTrue (db : Db) : Reading → Prop
  | .request id subject requester => ∃ r, db.requests id = some r ∧
      (hasParticipantLinks r = true → r.subjectUserId = subject ∧ r.requesterUserId = requester)
  | .artifact id token asked => token ∈ db.used ∧
      ∃ a, db.Has id a ∧ a.dataSubjectRequestId = asked
  | .checked id token => token ∈ db.used ∧
      ∀ a, db.Has id a → a.isProcessingWith token = true → db.Linked a.dataSubjectRequestId

structure Reads (φ : τ → List Reading) (db : Db) : Prop where
  sound : ∀ id a, db.Has id a → Sound db a
  isTrue : ∀ t x, x ∈ φ t → x.IsTrue db

/-- Requests stay, and their participants stay until they are erased. -/
def Fades (db db' : Db) : Prop :=
  ∀ id r, db.requests id = some r → ∃ r', db'.requests id = some r' ∧
    (hasParticipantLinks r' = true →
      r'.subjectUserId = r.subjectUserId ∧ r'.requesterUserId = r.requesterUserId)

/-! ## What a statement makes of an artifact -/

structure Passes (db db' : Db) (a b : ExportArtifact) : Prop where
  request : b.dataSubjectRequestId = a.dataSubjectRequestId
  token : ∀ token, b.isProcessingWith token = true →
    a.isProcessingWith token = true ∨ token ∈ db'.used ∧ token ∉ db.used
  linked : ∀ token, b.isProcessingWith token = true → db.Linked a.dataSubjectRequestId →
    db'.Linked a.dataSubjectRequestId
  sound : Sound db' b

structure Progress (db db' : Db) : Prop where
  fades : Fades db db'
  used : db.used ⊆ db'.used
  forth : ∀ id a, db.Has id a → ∃ b, db'.Has id b ∧ Passes db db' a b
  back : ∀ id b, db'.Has id b → (∃ a, db.Has id a ∧ Passes db db' a b) ∨
    Sound db' b ∧ ∀ token, b.isProcessingWith token = false

variable {φ : τ → List Reading} {db db' : Db} {a b : ExportArtifact} {id : Uuid} {t : τ}
  {ψ : List Reading}

theorem fades_of_eq (requests : db'.requests = db.requests) : Fades db db' := fun _ r is =>
  ⟨r, by rw [requests, is], fun _ => ⟨rfl, rfl⟩⟩

theorem Fades.participants (fades : Fades db db') {request : Uuid}
    {subject requester : Option Uuid} (named : ∃ r, db.requests request = some r ∧
      (hasParticipantLinks r = true → r.subjectUserId = subject ∧ r.requesterUserId = requester)) :
    ∃ r, db'.requests request = some r ∧ (hasParticipantLinks r = true →
      r.subjectUserId = subject ∧ r.requesterUserId = requester) := by
  obtain ⟨r, is, links⟩ := named
  obtain ⟨r', is', faded⟩ := fades request r is
  refine ⟨r', is', fun linked => ?_⟩
  obtain ⟨subject', requester'⟩ := faded linked
  have before : hasParticipantLinks r = true := by
    simpa only [hasParticipantLinks, subject', requester'] using linked
  exact ⟨subject'.trans (links before).1, requester'.trans (links before).2⟩

theorem Reading.IsTrue.progress {x : Reading} (isTrue : x.IsTrue db) (progress : Progress db db') :
    x.IsTrue db' := by
  cases x with
  | request id subject requester => exact progress.fades.participants isTrue
  | artifact id token request =>
      obtain ⟨used, a, has, of⟩ := isTrue
      obtain ⟨b, hasb, passes⟩ := progress.forth id a has
      exact ⟨progress.used used, b, hasb, passes.request.trans of⟩
  | checked id token =>
      obtain ⟨used, linked⟩ := isTrue
      refine ⟨progress.used used, fun b has processing => ?_⟩
      rcases progress.back id b has with ⟨a, was, passes⟩ | ⟨-, idle⟩
      · obtain before | ⟨-, new⟩ := passes.token token processing
        · exact passes.request ▸ passes.linked token processing (linked a was before)
        · exact absurd used new
      · rw [idle] at processing
        cases processing

theorem Reads.progress (reads : Reads φ db) (progress : Progress db db') : Reads φ db' where
  sound id b has := by
    rcases progress.back id b has with ⟨a, -, passes⟩ | ⟨sound, -⟩
    · exact passes.sound
    · exact sound
  isTrue t x known := (reads.isTrue t x known).progress progress

theorem Reads.learn (reads : Reads φ db) (new : ∀ x ∈ ψ, x ∈ φ t ∨ x.IsTrue db) :
    Reads (Function.update φ t ψ) db where
  sound := reads.sound
  isTrue u x known := by
    rw [Function.update_apply] at known
    split at known
    · exact (new x known).elim (reads.isTrue t x) id
    · exact reads.isTrue u x known

theorem Reads.same (reads : Reads φ db) : Reads (Function.update φ t (φ t)) db := by
  rwa [Function.update_eq_self]

/-- Where no participant is erased. -/
structure Spares (db db' : Db) : Prop where
  fades : Fades db db'
  linked : ∀ request, db.Linked request → db'.Linked request
  used : db.used ⊆ db'.used

theorem spares_of_eq (requests : db'.requests = db.requests) (used : db.used ⊆ db'.used) :
    Spares db db' :=
  ⟨fades_of_eq requests, fun _ held => by simpa only [Db.Linked, requests] using held, used⟩

theorem spares_of_moves (moves : Moves db db') : Spares db db' where
  fades id r is := by
    obtain ⟨r', is', subject, requester⟩ := moves.requests id r is
    exact ⟨r', is', fun _ => ⟨subject, requester⟩⟩
  linked request held := by
    obtain ⟨r, is, links⟩ := held
    obtain ⟨r', is', subject, requester⟩ := moves.requests request r is
    exact ⟨r', is', by simpa only [hasParticipantLinks, subject, requester] using links⟩
  used := by rw [moves.used]; exact List.Subset.refl _

/-- An artifact that keeps its participants, and gets a key only if its request has its own. -/
theorem passes_of (spares : Spares db db')
    (sound : Sound db a) (request : b.dataSubjectRequestId = a.dataSubjectRequestId)
    (subject : b.subjectUserId = a.subjectUserId)
    (requester : b.requesterUserId = a.requesterUserId)
    (key : b.storageKey = none ∨ b.storageKey = a.storageKey ∨ db.Linked a.dataSubjectRequestId)
    (final : a.status.isFinal = true → b.status.isFinal = true)
    (token : ∀ token, b.isProcessingWith token = true →
      a.isProcessingWith token = true ∨ token ∈ db'.used ∧ token ∉ db.used) :
    Passes db db' a b := by
  have linked := spares.linked a.dataSubjectRequestId
  refine ⟨request, token, fun _ _ => linked, ?_, ?_, fun token' processing => ?_⟩
  · rw [request, subject, requester]
    exact spares.fades.participants sound.copied
  · rw [request]
    rcases key with none | same | held
    · exact .inl none
    · rw [same]
      exact sound.keyless.imp_right (Or.imp final linked)
    · exact .inr (.inr (linked held))
  · rcases token token' processing with before | ⟨new, -⟩
    · exact spares.used (sound.drawn token' before)
    · exact new

theorem Passes.refl (spares : Spares db db') (sound : Sound db a) : Passes db db' a a :=
  passes_of spares sound rfl rfl rfl (.inr (.inl rfl)) (fun h => h) fun _ => .inl

/-- An artifact that keeps its participants and its key. -/
theorem passes_of_same (requests : db'.requests = db.requests) (used : db.used ⊆ db'.used)
    (sound : Sound db a) (request : b.dataSubjectRequestId = a.dataSubjectRequestId)
    (subject : b.subjectUserId = a.subjectUserId)
    (requester : b.requesterUserId = a.requesterUserId) (key : b.storageKey = a.storageKey)
    (final : a.status.isFinal = true → b.status.isFinal = true)
    (token : ∀ token, b.isProcessingWith token = true →
      a.isProcessingWith token = true ∨ token ∈ db'.used ∧ token ∉ db.used) :
    Passes db db' a b :=
  passes_of (spares_of_eq requests used) sound request subject requester (.inr (.inl key)) final
    token

theorem Reads.updateDrawing (reads : Reads φ db) {used drawn : List String}
    (more : db.used ⊆ used) (p : Uuid → ExportArtifact → Bool)
    (f : Uuid → ExportArtifact → ExportArtifact)
    (each : ∀ id a, db.Has id a → p id a = true → Sound db a →
      Passes db { db with artifacts := db.artifacts.update p f, used, drawn } a (f id a)) :
    Reads φ { db with artifacts := db.artifacts.update p f, used, drawn } := by
  have passes : ∀ id a, db.Has id a →
      Passes db { db with artifacts := db.artifacts.update p f, used, drawn } a
        (if p id a then f id a else a) := by
    intro id a has
    split
    · rename_i meets
      exact each id a has meets (reads.sound id a has)
    · exact Passes.refl (spares_of_eq rfl more) (reads.sound id a has)
  refine reads.progress ⟨fades_of_eq rfl, more, fun id a has => ⟨_, ?_, passes id a has⟩,
    fun id b has => .inl ?_⟩
  · exact Table.mem_update.mpr ⟨a, has, rfl⟩
  · obtain ⟨a, was, rfl⟩ := Table.mem_update.mp has
    exact ⟨a, was, passes id a was⟩

theorem Reads.update (reads : Reads φ db) (p : Uuid → ExportArtifact → Bool)
    (f : Uuid → ExportArtifact → ExportArtifact)
    (each : ∀ id a, db.Has id a → p id a = true → Sound db a →
      Passes db { db with artifacts := db.artifacts.update p f } a (f id a)) :
    Reads φ { db with artifacts := db.artifacts.update p f } :=
  reads.updateDrawing (List.Subset.refl _) p f each

/-! ## Statements -/

/-- A statement that does not touch what readings are about. -/
theorem Reads.elsewhere (reads : Reads φ db) (artifacts : db'.artifacts = db.artifacts)
    (requests : db'.requests = db.requests) (used : db'.used = db.used) : Reads φ db' := by
  have more : db.used ⊆ db'.used := by rw [used]; exact List.Subset.refl _
  have has : ∀ id a, db'.Has id a ↔ db.Has id a := fun id a => by rw [Db.Has, artifacts]; rfl
  have passes : ∀ id a, db.Has id a → Passes db db' a a := fun id a was =>
    Passes.refl (spares_of_eq requests more) (reads.sound id a was)
  exact reads.progress ⟨fades_of_eq requests, more,
    fun id a was => ⟨a, (has id a).mpr was, passes id a was⟩,
    fun id a now => .inl ⟨a, (has id a).mp now, passes id a ((has id a).mp now)⟩⟩

theorem Reads.insert (reads : Reads φ db) {artifacts : Table ExportArtifact}
    (inserted : Table.insert id a db.artifacts = some artifacts) (new : IsNew a)
    (known : .request a.dataSubjectRequestId a.subjectUserId a.requesterUserId ∈ φ t) :
    Reads φ { db with artifacts } := by
  have passes : ∀ id b, db.Has id b → Passes db { db with artifacts } b b := fun id b was =>
    Passes.refl (spares_of_eq rfl (List.Subset.refl _)) (reads.sound id b was)
  have copied := reads.isTrue t _ known
  unfold Table.insert at inserted
  split at inserted <;> cases inserted
  have idle : ∀ token, a.isProcessingWith token = false := fun token => by
    simp [ExportArtifact.isProcessingWith, new.status]
  refine reads.progress ⟨fades_of_eq rfl, List.Subset.refl _, fun id' b has => ?_,
    fun id' b has => ?_⟩
  · exact ⟨b, List.mem_cons_of_mem _ has, passes id' b has⟩
  · rcases List.mem_cons.mp has with is | was
    · cases is
      refine .inr ⟨⟨copied, .inl new.key, fun token processing => ?_⟩, idle⟩
      rw [idle] at processing
      cases processing
    · exact .inl ⟨b, was, passes id' b was⟩

theorem Reads.recoverStale (reads : Reads φ db) (limit : Nat) :
    Reads φ (recoverStaleProcessing limit db) := by
  refine reads.update _ _ fun id a has selected sound => ?_
  have stale := selected_row has (List.contains_iff_mem.mp selected)
  simp only [ExportArtifact.isStale, Bool.and_eq_true, beq_iff_eq] at stale
  refine passes_of_same rfl (List.Subset.refl _) sound rfl rfl rfl rfl (fun final => ?_)
    fun _ processing => ?_
  · rw [stale.1] at final
    cases final
  · cases processing

theorem Reads.claimBatch (reads : Reads φ db) {limit : Nat} {leases : List ProcessingExportLease}
    (claimed : claimQueuedBatch limit db = some (leases, db')) : Reads φ db' := by
  obtain ⟨⟨uuids, mid⟩, drawn, is⟩ := Option.map_eq_some_iff.mp claimed
  obtain ⟨length, fresh, rfl⟩ := draw_some drawn
  simp only [Prod.mk.injEq] at is
  obtain ⟨-, rfl⟩ := is
  refine reads.updateDrawing (List.subset_append_right _ _) _ _ fun id a has selected sound => ?_
  obtain ⟨uuid, found⟩ := Option.isSome_iff_exists.mp selected
  have pair := List.of_mem_zip (mem_of_lookup found)
  have queued := selected_row has pair.1
  rw [beq_iff_eq] at queued
  refine passes_of_same rfl (List.subset_append_right _ _) sound rfl rfl rfl rfl
    (fun final => ?_) fun token processing => .inr ?_
  · rw [queued] at final
    cases final
  · simp only [found, Option.getD_some, ExportArtifact.claimed, ExportArtifact.isProcessingWith,
      Bool.and_eq_true, beq_iff_eq, Option.some.injEq] at processing
    exact processing.2 ▸ ⟨List.mem_append_left _ pair.2, (fresh uuid pair.2).2⟩

theorem Reads.flushLease (reads : Reads φ db) (id : Uuid) (loaded : ExportArtifact)
    (leaseExpiresAt : Time) : Reads φ (flushLease id loaded leaseExpiresAt db) := by
  refine reads.update _ _ fun id a _ _ sound => passes_of_same rfl (List.Subset.refl _) sound
    ?_ ?_ ?_ ?_ ?_ fun token => ?_ <;>
    simp +contextual [ExportArtifact.flush, ExportArtifact.renewed, ExportArtifact.isProcessingWith]

/-- The key goes to an artifact whose request was found with its participants. -/
theorem Reads.ensureIntent (reads : Reads φ db) {token : String}
    {metadata : ExportArtifact.Metadata} {answer : String × Option ExportArtifact}
    (known : .checked id token ∈ φ t)
    (ensured : ensureProcessingUploadIntent id token metadata db = some (answer, db')) :
    Reads φ db' := by
  obtain ⟨⟨uuids, mid⟩, drawn, is⟩ := Option.map_eq_some_iff.mp ensured
  obtain ⟨-, -, rfl⟩ := draw_some drawn
  simp only [Prod.mk.injEq] at is
  obtain ⟨-, rfl⟩ := is
  refine reads.updateDrawing (List.subset_append_right _ _) _ _ fun id' a has meets sound => ?_
  simp only [Bool.and_eq_true, beq_iff_eq] at meets
  obtain ⟨⟨rfl, leased⟩, -⟩ := meets
  exact passes_of (spares_of_eq rfl (List.subset_append_right _ _)) sound rfl rfl rfl
    (.inr (.inr ((reads.isTrue t _ known).2 a has (processing_of_leased leased)))) (fun h => h)
    fun _ => .inl

/-- An artifact that loses its key. -/
theorem passes_withoutStorage (requests : db'.requests = db.requests) (used : db'.used = db.used)
    (sound : Sound db a) : Passes db db' a a.withoutStorage := by
  have more : db.used ⊆ db'.used := by rw [used]; exact List.Subset.refl _
  exact passes_of (spares_of_eq requests more) sound rfl rfl rfl (.inl rfl) (fun h => h)
    fun _ => .inl

theorem Reads.markReady (reads : Reads φ db) (prepared : PreparedExportArchive) (token : String) :
    Reads φ (markGeneratedExportArtifactReady prepared token db).2 := by
  unfold markGeneratedExportArtifactReady
  split
  · exact reads
  · rename_i a is
    split
    · exact reads
    · refine reads.update _ _ fun id b has same sound => ?_
      rw [beq_iff_eq] at same
      subst same
      obtain ⟨hasA, processing⟩ := Table.mem_of_find is
      obtain rfl := has_eq hasA has
      refine passes_of_same rfl (List.Subset.refl _) sound rfl rfl rfl rfl (fun final => ?_)
        fun _ => nofun
      rw [not_final_of_processing processing] at final
      cases final

theorem Reads.markFailed (reads : Reads φ db) (id : Uuid) (token text : String) :
    Reads φ (markExportArtifactFailed id token text db).2 := by
  unfold markExportArtifactFailed
  split
  · exact reads
  · exact reads.update _ _ fun id b has same sound =>
      passes_of_same rfl (List.Subset.refl _) sound rfl rfl rfl rfl (fun _ => rfl) fun _ => nofun

theorem Reads.clearPurges (reads : Reads φ db) (deleted : List ExportArtifactStoragePurge) :
    Reads φ { db with artifacts := (clearPurges deleted db.artifacts).2 } := by
  induction deleted generalizing db with
  | nil => exact reads
  | cons purge rest ih =>
      have one : Reads φ { db with artifacts := (clearPurge purge db.artifacts).2 } := by
        unfold Retention.clearPurge
        split
        · exact reads.update _ _ fun _ _ _ _ sound => passes_withoutStorage rfl rfl sound
        · exact reads
      exact ih one

theorem Reads.flushExpired (reads : Reads φ db) (expired : List (Uuid × ExportArtifact)) :
    Reads φ { db with artifacts := flushExpired expired db.artifacts } := by
  induction expired generalizing db with
  | nil => exact reads
  | cons row rest ih =>
      have one : Reads φ { db with
          artifacts := db.artifacts.update (fun k _ => k == row.1) fun _ current =>
            row.2.flush row.2.markedExpired current } := by
        refine reads.update _ _ fun id a _ _ sound => passes_of_same rfl (List.Subset.refl _)
          sound ?_ ?_ ?_ ?_ ?_ fun token => ?_
        all_goals
          simp only [ExportArtifact.flush, ExportArtifact.markedExpired, written,
            ExportArtifact.isProcessingWith]
          grind [ExportArtifactStatus.isFinal]
      exact ih one

/-! ## Erasure -/

section Erasure

variable {subject : Uuid} {r r' : DataSubjectRequest}

/-- A request has its participants after an erasure if it had, and is not of the subject. -/
theorem erased_links (is : r' = if r.mentions subject then r.minimised subject else r) :
    hasParticipantLinks r' = true ↔ hasParticipantLinks r = true ∧
      r.subjectUserId ≠ some subject ∧ r.requesterUserId ≠ some subject := by
  subst is
  simp only [hasParticipantLinks, DataSubjectRequest.mentions, DataSubjectRequest.minimised,
    DataSubjectRequest.unlink]
  grind

theorem erased_participants (is : r' = if r.mentions subject then r.minimised subject else r)
    (linked : hasParticipantLinks r' = true) :
    r'.subjectUserId = r.subjectUserId ∧ r'.requesterUserId = r.requesterUserId := by
  obtain ⟨-, notSubject, notRequester⟩ := (erased_links is).mp linked
  subst is
  split
  · simp [DataSubjectRequest.minimised, DataSubjectRequest.unlink, notSubject, notRequester]
  · exact ⟨rfl, rfl⟩

/-- An erasure is refused and changes nothing, or none of the artifacts that it changes is in
    processing. -/
theorem executeErasure_cases (subject : Uuid) (db : Db) :
    (∃ e, executeErasure subject db = (.error e, db)) ∨
    (∀ id a, db.Has id a → a.mentions subject = true → a.status ≠ .processing) ∧
      ∃ deletions, executeErasure subject db = (.ok deletions, minimiseDsrWorkflow subject { db with
        artifacts := db.artifacts.update (fun _ a => a.mentions subject)
          fun _ a => a.minimised subject }) := by
  simp only [executeErasure, minimiseExportArtifacts]
  split
  · rename_i refused
    split at refused <;> cases refused
    exact .inl ⟨_, rfl⟩
  · rename_i done
    split at done <;> cases done
    rename_i none
    refine .inr ⟨fun id a has mentions processing => none ?_, _, rfl⟩
    refine List.any_eq_true.mpr ⟨a, List.mem_filter.mpr ⟨?_, mentions⟩, ?_⟩
    · exact List.mem_map.mpr ⟨_, has, rfl⟩
    · rw [processing]
      rfl

theorem requests_minimiseDsrWorkflow (subject : Uuid) {request : Uuid}
    (is : db.requests request = some r) : (minimiseDsrWorkflow subject db).requests request =
      some (if r.mentions subject then r.minimised subject else r) := by
  simp [minimiseDsrWorkflow, is]

theorem fades_minimiseDsrWorkflow (subject : Uuid) (db : Db) :
    Fades db (minimiseDsrWorkflow subject db) := fun _ _ is =>
  ⟨_, requests_minimiseDsrWorkflow subject is, erased_participants rfl⟩

theorem linked_minimiseDsrWorkflow {request : Uuid} :
    (minimiseDsrWorkflow subject db).Linked request ↔ ∃ r, db.requests request = some r ∧
      hasParticipantLinks r = true ∧ r.subjectUserId ≠ some subject ∧
        r.requesterUserId ≠ some subject := by
  simp only [Db.Linked, minimiseDsrWorkflow, Option.map_eq_some_iff]
  constructor
  · rintro ⟨_, ⟨r, is, same⟩, linked⟩
    exact ⟨r, is, (erased_links same.symm).mp linked⟩
  · rintro ⟨r, is, linked⟩
    exact ⟨_, ⟨r, is, rfl⟩, (erased_links rfl).mpr linked⟩

/-- An artifact of a request that loses a participant is that participant's. -/
theorem Sound.linked_or_owned (sound : Sound db a) (linked : db.Linked a.dataSubjectRequestId) :
    (minimiseDsrWorkflow subject db).Linked a.dataSubjectRequestId ∨
      a.isOwnedBy subject = true := by
  obtain ⟨r, is, links⟩ := linked
  obtain ⟨r', is', copied⟩ := sound.copied
  obtain rfl := Option.some.inj (is.symm.trans is')
  obtain ⟨subject', requester'⟩ := copied links
  by_cases owned : a.isOwnedBy subject = true
  · exact .inr owned
  · simp only [ExportArtifact.isOwnedBy, Bool.or_eq_true, beq_iff_eq, not_or] at owned
    refine .inl (linked_minimiseDsrWorkflow.mpr ⟨r, is, links, ?_, ?_⟩)
    · rw [subject']
      exact owned.1
    · rw [requester']
      exact owned.2

theorem Sound.copied_after (sound : Sound db a) (subject' requester' : Option Uuid)
    (same : ¬a.isOwnedBy subject = true →
      subject' = a.subjectUserId ∧ requester' = a.requesterUserId) :
    ∃ r, (minimiseDsrWorkflow subject db).requests a.dataSubjectRequestId = some r ∧
      (hasParticipantLinks r = true →
        r.subjectUserId = subject' ∧ r.requesterUserId = requester') := by
  obtain ⟨r, is, copied⟩ := sound.copied
  refine ⟨_, requests_minimiseDsrWorkflow subject is, fun linked => ?_⟩
  obtain ⟨links, notSubject, notRequester⟩ := (erased_links rfl).mp linked
  obtain ⟨subjects, requesters⟩ := erased_participants rfl linked
  obtain ⟨subjectOf, requesterOf⟩ := copied links
  have others : ¬a.isOwnedBy subject = true := by
    rw [subjectOf] at notSubject
    rw [requesterOf] at notRequester
    simp [ExportArtifact.isOwnedBy, notSubject, notRequester]
  rw [subjects, requesters, subjectOf, requesterOf, (same others).1, (same others).2]
  exact ⟨rfl, rfl⟩

/-- What the erasure makes of an artifact that mentions the subject, and is not in processing. -/
theorem passes_minimised {db' : Db} (sound : Sound db a) (waits : a.status ≠ .processing)
    (requests : db'.requests = (minimiseDsrWorkflow subject db).requests) :
    Passes db db' a (a.minimised subject) := by
  have idle : ∀ token, (a.minimised subject).isProcessingWith token = true → False := by
    intro token processing
    simp only [ExportArtifact.isProcessingWith, ExportArtifact.minimised, Bool.and_eq_true,
      beq_iff_eq] at processing
    grind
  refine ⟨rfl, fun token processing => (idle token processing).elim,
    fun token processing => (idle token processing).elim, ?_, ?_,
    fun token processing => (idle token processing).elim⟩
  · rw [requests]
    refine sound.copied_after _ _ fun other => ?_
    simp only [ExportArtifact.isOwnedBy, Bool.or_eq_true, beq_iff_eq, not_or] at other
    simp [ExportArtifact.minimised, DataSubjectRequest.unlink, other]
  · have request : (a.minimised subject).dataSubjectRequestId = a.dataSubjectRequestId := rfl
    have final : a.status.isFinal = true → (a.minimised subject).status.isFinal = true := by
      intro final
      simp only [ExportArtifact.minimised]
      split
      · rfl
      · exact final
    rcases sound.keyless with none | ended | linked
    · exact .inl none
    · exact .inr (.inl (final ended))
    · rcases (sound.linked_or_owned linked : _ ∨ a.isOwnedBy subject = true) with still | owned
      · refine .inr (.inr ?_)
        simpa only [Db.Linked, requests, request] using still
      · cases keyed : a.storageKey with
        | none => exact .inl keyed
        | some key =>
            refine .inr (.inl ?_)
            rw [minimised_cancelled owned (by simp [keyed])]
            rfl

/-- An artifact that does not mention the subject. -/
theorem passes_spared {db' : Db} (sound : Sound db a) (spared : a.mentions subject = false)
    (used : db'.used = db.used)
    (requests : db'.requests = (minimiseDsrWorkflow subject db).requests) :
    Passes db db' a a := by
  have other : ¬a.isOwnedBy subject = true := by
    simp only [ExportArtifact.mentions, Bool.or_eq_false_iff] at spared
    simp [spared.1.1]
  have linked : db.Linked a.dataSubjectRequestId → db'.Linked a.dataSubjectRequestId := by
    intro linked
    have still := (sound.linked_or_owned linked).resolve_right other
    simpa only [Db.Linked, requests] using still
  refine ⟨rfl, fun _ => .inl, fun _ _ => linked, ?_, sound.keyless.imp_right (Or.imp_right linked),
    fun token processing => used ▸ sound.drawn token processing⟩
  rw [requests]
  exact sound.copied_after _ _ fun _ => ⟨rfl, rfl⟩

theorem Reads.executeErasure (reads : Reads φ db) (subject : Uuid) :
    Reads φ (executeErasure subject db).2 := by
  rcases executeErasure_cases subject db with ⟨e, refused⟩ | ⟨idle, deletions, done⟩
  · rw [refused]
    exact reads
  · rw [done]
    have passes : ∀ id a, db.Has id a → Passes db (minimiseDsrWorkflow subject { db with
        artifacts := db.artifacts.update (fun _ a => a.mentions subject)
          fun _ a => a.minimised subject }) a
        (if a.mentions subject then a.minimised subject else a) := by
      intro id a has
      split
      · rename_i mentions
        exact passes_minimised (reads.sound id a has) (idle id a has mentions) rfl
      · rename_i spared
        exact passes_spared (reads.sound id a has) (by simpa using spared) rfl rfl
    refine reads.progress ⟨fades_minimiseDsrWorkflow subject db, List.Subset.refl _,
      fun id a has => ⟨_, ?_, passes id a has⟩, fun id b has => .inl ?_⟩
    · exact Table.mem_update.mpr ⟨a, has, rfl⟩
    · obtain ⟨a, was, rfl⟩ := Table.mem_update.mp has
      exact ⟨a, was, passes id a was⟩

end Erasure

/-! ## One statement -/

section Statements

variable {sha256 : Bytes → String}

/-- What a client has read of a request that may be exported. -/
theorem Reads.learnRequest (reads : Reads φ db) {request : Uuid} {r : DataSubjectRequest}
    (is : db.requests request = some r) :
    Reads (Function.update φ t (readRequest (φ t) request r)) db := by
  refine reads.learn fun x known => ?_
  rcases List.mem_cons.mp known with rfl | known
  · exact .inr ⟨r, is, fun _ => ⟨rfl, rfl⟩⟩
  · refine (List.mem_append.mp known).symm.imp_right fun new => ?_
    split at new
    · rename_i exportable
      obtain ⟨y, knownY, is'⟩ := List.mem_filterMap.mp new
      cases y with
      | artifact id token asked =>
          simp only [checkedOf, Option.ite_none_right_eq_some, Option.some.injEq] at is'
          obtain ⟨rfl, rfl⟩ := is'
          obtain ⟨used, a, has, of⟩ := reads.isTrue t _ knownY
          refine ⟨used, fun b hasb _ => ?_⟩
          obtain rfl := has_eq has hasb
          simp only [isExportable, Bool.and_eq_true] at exportable
          exact of ▸ ⟨r, is, exportable.2⟩
      | request | checked => cases is'
    · cases new

/-- What a statement leaves, and what its client has read after it. -/
theorem Reads.run {s : Statement} {answer r : Except AppError (Answer s)} (reads : Reads φ db)
    (ran : run sha256 s db = some (answer, db')) (answers : Answered db answer r)
    (next : reading (φ t) s r = some ψ) : Reads (Function.update φ t ψ) db' := by
  cases s with
  | now | countQueuedArtifacts | writeArchive | validateUpload | listCancelled
  | readExpiredReady =>
      cases ran
      cases next
      exact reads.same
  | requestById request =>
      cases ran
      rcases answers with ⟨-, rfl⟩ | ⟨e, rfl⟩
      · cases is : db.requests request <;> rw [is] at next <;> cases next
        · exact reads.same
        · exact reads.learnRequest is
      · cases next
        exact reads.same
  | insertArtifact id a =>
      simp only [reading, Option.ite_none_right_eq_some, Option.some.injEq] at next
      obtain ⟨⟨new, known⟩, rfl⟩ := next
      simp only [Exports.run, Option.some.injEq] at ran
      split at ran <;> cases ran
      · rename_i inserted
        exact (reads.insert inserted new known).same
      · exact reads.same
  | claimQueuedArtifactLeases batchSize =>
      obtain ⟨out, claimed, is⟩ := Option.map_eq_some_iff.mp ran
      cases is
      cases next
      exact ((reads.recoverStale batchSize).claimBatch claimed).same
  | processingArtifact id token =>
      cases ran
      rcases answers with ⟨-, rfl⟩ | ⟨e, rfl⟩
      · cases is : Table.find id (·.isProcessingWith token) db.artifacts <;> rw [is] at next <;>
          cases next
        · exact reads.same
        · rename_i a
          obtain ⟨has, processing⟩ := Table.mem_of_find is
          refine reads.learn fun x known => (List.mem_cons.mp known).symm.imp_right ?_
          rintro rfl
          exact ⟨(reads.sound id a has).drawn token processing, a, has, rfl⟩
      · cases next
        exact reads.same
  | flushLease id loaded leaseExpiresAt =>
      cases ran
      cases next
      exact (reads.flushLease id loaded leaseExpiresAt).same
  | ensureUploadIntent id token metadata =>
      simp only [reading, Option.ite_none_right_eq_some, Option.some.injEq] at next
      obtain ⟨known, rfl⟩ := next
      obtain ⟨out, ensured, is⟩ := Option.map_eq_some_iff.mp ran
      cases is
      exact (reads.ensureIntent known ensured).same
  | resetUploadIntent prepared token =>
      cases ran
      cases next
      exact (reads.update _ _ fun _ _ _ _ sound => passes_withoutStorage rfl rfl sound).same
  | markReady prepared token =>
      cases next
      have kept := reads.markReady prepared token
      rw [Option.some.inj ran] at kept
      exact kept.same
  | markFailed id token text =>
      cases ran
      cases next
      exact (reads.markFailed id token text).same
  | clearFailed cleanup =>
      cases ran
      cases next
      exact (reads.update _ _ fun _ _ _ _ sound => passes_withoutStorage rfl rfl sound).same
  | clearAndListFailed deleted limit =>
      cases ran
      cases next
      exact (reads.clearPurges deleted).same
  | clearExpireAndList deleted expired limit processed =>
      cases ran
      cases next
      exact ((reads.clearPurges deleted).flushExpired expired).same
  | clearPurges deleted =>
      cases ran
      cases next
      exact (reads.clearPurges deleted).same
  | executeErasure subject =>
      cases next
      have kept := reads.executeErasure subject
      rw [Option.some.inj ran] at kept
      exact kept.same
  | storage backend operation =>
      obtain ⟨-, rfl⟩ := run_storage ran
      cases next
      have kept : Reads φ (db.setObject backend operation.key
          (leaves sha256 db backend operation)) := reads.elsewhere rfl rfl rfl
      exact kept.same

theorem Reads.moves (reads : Reads φ db) (moves : Moves db db') : Reads φ db' := by
  obtain ⟨downloadedAt, downloadCount, artifacts⟩ := moves.artifacts
  have spares := spares_of_moves moves
  have passes : ∀ id a, db.Has id a → Passes db db' a
      { a with downloadedAt := downloadedAt id, downloadCount := downloadCount id } :=
    fun id a has => passes_of spares (reads.sound id a has) rfl rfl rfl (.inr (.inl rfl))
      (fun h => h) fun _ => .inl
  refine reads.progress ⟨spares.fades, spares.used, fun id a has => ⟨_, ?_, passes id a has⟩,
    fun id b has => .inl ?_⟩
  · rw [Db.Has, artifacts]
    exact Table.mem_update.mpr ⟨a, has, rfl⟩
  · rw [Db.Has, artifacts] at has
    obtain ⟨a, was, rfl⟩ := Table.mem_update.mp has
    exact ⟨a, was, passes id a was⟩

/-- Nobody learns from a failure. -/
theorem reading_error {s : Statement} {e : AppError} {χ : List Reading}
    (next : reading χ s (.error e) = some ψ) : ψ = χ := by
  cases s <;> simp only [reading] at next <;> grind

end Statements

/-! ## Whole runs -/

section Runs

variable {settings : ExportSettings} {sha256 : Bytes → String}
  {allowed : τ → Statement → Db → Prop} {c d e f : Config τ Statement Answer AppError Db Nat}

theorem joint_participants (γ : List Reading) : Joint (machine sha256 τ) reading fun φ db =>
    Reads (observed γ φ) db where
  exec {φ t s r db db' ψ} reads executed next := by
    obtain ⟨answer, ran, answers⟩ := exec_cases (t := t) executed
    rw [observed_update]
    exact reads.run ran answers next
  fault {φ t s e db ψ} reads _ next := by
    rw [reading_error next, Function.update_eq_self]
    exact reads
  crash reads := reads
  env reads moved := reads.moves moved

theorem PipelineStart.reads (start : PipelineStart settings sha256 c)
    (sound : ∀ id a, c.db.Has id a → Sound c.db a) :
    Jointly reading (fun φ db => Reads (observed [] φ) db) c := by
  refine ⟨fun _ => [], fun t p running => ?_, sound, fun u x known => ?_⟩
  · obtain ⟨op, rfl⟩ := start.programs t p running
    exact cautious_program op []
  · cases u <;> cases known

theorem Sound.keyless_of_unlinked (sound : Sound db a) (lost : ¬db.Linked a.dataSubjectRequestId) :
    a.storageKey = none ∨ a.status.isFinal = true :=
  sound.keyless.imp_right fun h => h.resolve_right lost

/-- If a request that had its participants would have none, then it has lost one. -/
theorem not_linked_of_isTrue {request : Uuid}
    (isTrue : (Reading.request request none none).IsTrue db) : ¬db.Linked request := by
  obtain ⟨r, is, links⟩ := isTrue
  rintro ⟨r', is', linked⟩
  obtain rfl := Option.some.inj (is.symm.trans is')
  have none := links linked
  simp [hasParticipantLinks, none.1] at linked

theorem unlinked_of_erased {subject request : Uuid} {r : DataSubjectRequest}
    {deletions : List DeferredExportObjectDeletion}
    (erases : executeErasure subject db = (.ok deletions, db'))
    (asked : db.requests request = some r)
    (mine : r.subjectUserId = some subject ∨ r.requesterUserId = some subject) :
    (Reading.request request none none).IsTrue db' := by
  rcases executeErasure_cases subject db with ⟨e, refused⟩ | ⟨-, deletions, done⟩
  · rw [refused] at erases
    cases erases
  · rw [done] at erases
    obtain ⟨-, rfl⟩ := Prod.mk.inj erases
    refine ⟨_, requests_minimiseDsrWorkflow subject asked, fun linked => ?_⟩
    obtain ⟨-, notSubject, notRequester⟩ := (erased_links rfl).mp linked
    exact absurd mine (not_or.mpr ⟨notSubject, notRequester⟩)

/-- Once a subject is erased, no artifact of a request that it was a participant of is ever ready,
    and none has a storage key unless it is over: whatever a worker had read, found, written or
    committed before, and whoever inserts an artifact after. -/
theorem erased_subject_gets_no_export (start : PipelineStart settings sha256 c)
    (sound : ∀ id a, c.db.Has id a → Sound c.db a)
    (before : (machine sha256 τ).Reaches allowed c d) {subject : Uuid}
    {deletions : List DeferredExportObjectDeletion}
    (erases : executeErasure subject d.db = (.ok deletions, f.db))
    (step : (machine sha256 τ).Step allowed d f)
    (after : (machine sha256 τ).Reaches allowed f e) {r : DataSubjectRequest} {request : Uuid}
    (asked : d.db.requests request = some r)
    (mine : r.subjectUserId = some subject ∨ r.requesterUserId = some subject) :
    ∀ id a, e.db.Has id a → a.dataSubjectRequestId = request →
      a.status ≠ .ready ∧ (a.storageKey = none ∨ a.status.isFinal = true) := by
  obtain ⟨φ, abides, reads⟩ := (joint_participants []).reaches (start.reads sound)
    (before.tail step)
  have lost := unlinked_of_erased erases asked mine
  have learnt := reads.learn (t := none) (ψ := [.request request none none]) fun x known => by
    rw [List.mem_singleton] at known
    exact .inr (known ▸ lost)
  have told : Function.update (observed [] φ) none [.request request none none] =
      observed [.request request none none] φ := by
    funext u
    cases u <;> simp [observed]
  rw [told] at learnt
  obtain ⟨φ', -, reads'⟩ := (joint_participants _).reaches ⟨φ, abides, learnt⟩ after
  have unlinked := not_linked_of_isTrue (reads'.isTrue none _ List.mem_cons_self)
  intro id a has of
  have keyless := (reads'.sound id a has).keyless_of_unlinked (of ▸ unlinked)
  refine ⟨fun ready => ?_, keyless⟩
  have consistent := start.consistent_of_reaches ((before.tail step).trans after)
  obtain ⟨key, bytes, keyed, -⟩ := consistent.ready id a has ready
  rcases keyless with none | final
  · rw [none] at keyed
    cases keyed
  · rw [ready] at final
    cases final

/-- A worker, the erasure of the subject, and whoever asks for another export. -/
def racingOp : Fin 3 → PipelineOp
  | 0 => .worker (fun _ => "") 1 1 false true false
  | 1 => .erasure 100
  | 2 => .request 11 1 100

def racingStart : Config (Fin 3) Statement Answer AppError Db Nat where
  db := queuedDb
  run t := some ((racingOp t).program exampleSettings exampleSha256)

theorem racingStart_start : PipelineStart exampleSettings exampleSha256 racingStart where
  stores := queuedStart_start.stores
  artifacts := queuedStart_start.artifacts
  consistent := queuedStart_start.consistent
  programs t _ is := ⟨racingOp t, (Option.some.inj is).symm⟩

theorem racingStart_sound (id : Uuid) (a : ExportArtifact) (has : racingStart.db.Has id a) :
    Sound racingStart.db a := by
  obtain ⟨rfl, rfl⟩ := Prod.mk.inj (List.mem_singleton.mp has)
  exact ⟨⟨exampleRequest, rfl, fun _ => ⟨rfl, rfl⟩⟩, .inl rfl, nofun⟩

theorem checked_racing (_ : Fin 3) (_ : Statement) (_ : Db) (_ : true = true) : True := trivial

/-- The request is read before the erasure, and its new artifact is inserted after it: the worker
    finds that it is not for export. -/
theorem erased_subject_gets_no_export_example :
    ∃ e, (machine exampleSha256 (Fin 3)).Reaches (fun _ _ _ => True) racingStart e ∧
      e.db.artifacts.rows.map (fun row => (row.1, row.2.status)) =
        [(11, .failed), (10, .cancelled)] ∧
      ∀ id a, e.db.Has id a → a.dataSubjectRequestId = 1 →
        a.status ≠ .ready ∧ (a.storageKey = none ∨ a.status.isFinal = true) := by
  have played : (((machine exampleSha256 (Fin 3)).play (fun _ _ _ => true) [2, 2] racingStart).bind
      fun d => ((machine exampleSha256 (Fin 3)).next (fun _ _ _ => true) 1 d).bind fun f =>
        ((machine exampleSha256 (Fin 3)).play (fun _ _ _ => true) [2, 0, 0, 0, 0] f).map fun e =>
          (d.db, f.db, e.db.artifacts.rows.map fun row => (row.1, row.2.status))) =
      some (queuedDb, (executeErasure 100 queuedDb).2, [(11, .failed), (10, .cancelled)]) := rfl
  obtain ⟨d, asks, played⟩ := Option.bind_eq_some_iff.mp played
  obtain ⟨f, erases, played⟩ := Option.bind_eq_some_iff.mp played
  obtain ⟨e, generates, is⟩ := Option.map_eq_some_iff.mp played
  simp only [Prod.mk.injEq] at is
  obtain ⟨first, second, rows⟩ := is
  have before := Machine.play_reaches checked_racing asks
  have step := Machine.next_step checked_racing erases
  have after := Machine.play_reaches checked_racing generates
  refine ⟨e, (before.tail step).trans after, rows, ?_⟩
  have answer : executeErasure 100 d.db = (.ok [], f.db) := by
    rw [first, second]
    rfl
  have asked : d.db.requests 1 = some exampleRequest := by
    rw [first]
    rfl
  exact erased_subject_gets_no_export racingStart_start racingStart_sound before answer step after
    asked (.inl rfl)

end Runs

end SaasTemplate.Exports
