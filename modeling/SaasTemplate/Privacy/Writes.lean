import SaasTemplate.Privacy.ArtifactServices

/-! # What the operations write

Apart from the confirmation of a delivery and the end of a transaction, every statement of an
operation is an ordinary one: it leaves artifacts alone, inserts a queued one, or flushes one
as one of the writers changes it. An erasure runs its providers inside a savepoint.
-/

namespace SaasTemplate.Privacy

open SaasTemplate.Isolation SaasTemplate.Isolation.Prog

/-- The assignments that each writer flushes. -/
def Writer.Assigns (loaded assigned : ExportArtifact) : Writer → Prop
  | .claimQueuedBatch => ∃ now token lease, assigned = loaded.claimed now token lease
  | .renewProcessingLease => ∃ lease, assigned = loaded.renewed lease
  | .recoverStaleProcessing => assigned = loaded.recovered
  | .markReady => ∃ metadata now,
      assigned = { (loaded.withMetadata metadata).markedReady now with generatedByUserId := none }
  | .markFailed => ∃ code detail now, assigned = loaded.markedFailed code detail now
  | .markExpired => assigned = loaded.markedExpired
  | .clearStorage => loaded.isPurgeable = true ∧ assigned = loaded.withoutStorage
  | .eraseSubject => ∃ subject, assigned = loaded.minimised subject

/-- An artifact as it is requested. -/
def ExportArtifact.IsNew (a : ExportArtifact) : Prop :=
  ∃ settings requestId requestedBy request queuedAt createdAt,
    a = queuedArtifact settings requestId requestedBy request queuedAt createdAt

/-- A statement of an operation that neither confirms a delivery nor ends a transaction. -/
def Statement.Ordinary : Statement → Prop
  | .insertArtifact _ artifact => artifact.IsNew
  | .flushArtifact writer _ loaded assigned => writer.Assigns loaded assigned
  | .confirmDelivery _ _ | .savepoint | .rollbackTo _ | .commit | .rollback => False
  | _ => True

/-- A program of ordinary statements. -/
abbrev Ordinary {α : Type} (p : Tx α) : Prop := p.Only Statement.Ordinary

theorem ordinary_sql {s : Statement} (h : s.Ordinary) : Ordinary (sql s) := only_stmt.mpr h

/-! ## Requests -/

theorem ordinary_getRequest (id : Uuid) : Ordinary (getRequest id) :=
  only_bind (ordinary_sql trivial) fun _ => only_orRaise

theorem ordinary_transitionLoaded (id : Uuid) (request : DataSubjectRequest)
    (target : DataSubjectRequestStatus) (reviewer : Option Uuid) (reasonCode : Option String)
    (now : Time) (verified : Bool) :
    Ordinary (transitionLoaded id request target reviewer reasonCode now verified) := by
  refine only_bind only_raiseIf fun _ => only_bind only_raiseIf fun _ => ?_
  refine only_bind only_raiseIf fun _ => only_bind only_raiseIf fun _ => ?_
  refine only_bind (ordinary_sql trivial) fun updated => ?_
  cases updated with
  | none => exact only_bind (ordinary_getRequest id) fun _ => only_raise _
  | some updated => exact only_bind (ordinary_sql trivial) fun _ => only_pure _

theorem ordinary_transitionStatus (id : Uuid) (target : DataSubjectRequestStatus)
    (reviewer : Option Uuid) (reasonCode : Option String) :
    Ordinary (transitionStatus id target reviewer reasonCode) := by
  refine only_bind only_raiseIf fun _ => only_bind (ordinary_sql trivial) fun now => ?_
  exact only_bind (ordinary_getRequest id) fun _ => ordinary_transitionLoaded _ _ _ _ _ _ _

theorem ordinary_reviewRepresentative (id : Uuid) (request : DataSubjectRequest)
    (values : DataSubjectRequest.Review) : Ordinary (reviewRepresentative id request values) := by
  refine only_bind only_raiseIf fun _ => only_bind only_raiseIf fun _ => ?_
  refine only_bind (ordinary_sql trivial) fun updated => ?_
  cases updated with
  | none =>
      refine only_bind (ordinary_getRequest id) fun _ => ?_
      exact only_bind only_raiseIf fun _ => only_raise _
  | some updated => exact only_bind (ordinary_sql trivial) fun _ => only_pure _

theorem ordinary_existingSubmission (call : SubmitCall) (now : Time) :
    Ordinary (existingSubmission call now) := by
  unfold existingSubmission
  split
  · exact only_pure _
  · refine only_bind (ordinary_sql trivial) fun _ => only_bind (ordinary_sql trivial) fun row => ?_
    cases row with
    | none => exact only_pure _
    | some row =>
        dsimp only
        split
        · exact only_pure _
        · exact only_raise _

theorem ordinary_submitRequest (call : SubmitCall) : Ordinary (submitRequest call) := by
  refine only_bind (ordinary_sql trivial) fun now => only_bind only_raiseIf fun _ => ?_
  split
  · exact only_raise _
  · split
    · exact only_raise _
    · refine only_bind only_raiseIf fun _ => ?_
      refine only_bind (ordinary_existingSubmission call now) fun existing => ?_
      cases existing with
      | some request => exact only_pure _
      | none =>
          refine only_bind (ordinary_sql trivial) fun _ => ?_
          refine only_bind (ordinary_sql trivial) fun _ => ?_
          refine only_bind (ordinary_sql trivial) fun _ => ?_
          exact only_bind (ordinary_sql trivial) fun _ => only_pure _

theorem ordinary_fulfilRequest (id reviewer : Uuid) : Ordinary (fulfilRequest id reviewer) := by
  refine only_bind (ordinary_getRequest id) fun request => only_bind only_raiseIf fun _ => ?_
  refine only_bind (only_bind only_raiseIf fun _ => ?_) fun _ => ?_
  · split
    · exact only_raiseIf
    · refine only_bind (ordinary_sql trivial) fun _ => only_bind (ordinary_sql trivial) fun _ => ?_
      exact only_bind only_raiseIf fun _ => ordinary_sql trivial
  · refine only_bind (ordinary_sql trivial) fun _ => ?_
    exact only_bind (ordinary_getRequest id) fun _ => ordinary_transitionLoaded _ _ _ _ _ _ _

/-! ## Erasure -/

theorem ordinary_lockAndValidateRequest (id : Uuid) : Ordinary (lockAndValidateRequest id) := by
  refine only_bind (ordinary_sql trivial) fun found => only_bind only_orRaise fun request => ?_
  refine only_bind only_raiseIf fun _ => ?_
  split
  · exact only_pure _
  · refine only_bind only_raiseIf fun _ => only_bind only_raiseIf fun _ => ?_
    exact only_bind only_raiseIf fun _ => only_pure _

/-- The providers with the note that they have run. -/
theorem ordinary_providers (id subject : Uuid) : Ordinary (do
    sql (.coreProviders id)
    minimiseExportArtifacts subject
    minimiseDsrWorkflow subject
    sql (.markErased id)) := by
  refine only_bind (ordinary_sql trivial) fun _ => only_bind ?_ fun _ => only_bind ?_ fun _ =>
    ordinary_sql trivial
  · refine only_bind (ordinary_sql trivial) fun ids => only_bind (only_collect fun id _ => ?_) ?_
    · exact only_bind (ordinary_sql trivial) fun _ => only_pure _
    · refine fun rows => only_bind only_raiseIf fun _ => only_forEach fun row _ => ?_
      exact ordinary_sql ⟨subject, rfl⟩
  · refine only_bind (ordinary_sql trivial) fun ids => only_bind (only_collect fun id _ => ?_) ?_
    · exact only_bind (ordinary_sql trivial) fun _ => only_pure _
    · exact fun rows => only_forEach fun row _ => ordinary_sql trivial

/-! ## Artifacts -/

/-- The statements of `_sync_export_dsr_execution_state`. -/
def Statement.Syncs : Statement → Prop
  | .now | .artifactsOfRequest _ | .requestById _ | .flushRequest _ _ _ => True
  | _ => False

theorem Statement.Syncs.ordinary {s : Statement} (h : s.Syncs) : s.Ordinary := by
  cases s <;> first | exact h.elim | trivial

theorem syncs_artifactsOfRequest (request : Uuid) (held : List (Uuid × ExportArtifact)) :
    (artifactsOfRequest request held).Only Statement.Syncs :=
  only_bind (only_stmt.mpr trivial) fun _ => only_pure _

theorem syncs_syncExecutionState (id : Uuid) (artifact : ExportArtifact)
    (state : ExecutionState) (request : Option DataSubjectRequest)
    (held : List (Uuid × ExportArtifact)) :
    (syncExecutionState id artifact state request held).Only Statement.Syncs := by
  refine only_bind (only_stmt.mpr trivial) fun now => only_bind ?_ fun out => ?_
  · refine only_bind (syncs_artifactsOfRequest _ held) fun rows => ?_
    split
    · exact only_pure _
    · split
      · exact only_pure _
      · exact only_bind (syncs_artifactsOfRequest _ held) fun _ => only_pure _
  · refine only_bind (only_stmt.mpr trivial) fun found => ?_
    cases found with
    | none => exact only_pure _
    | some row =>
        dsimp only
        split
        · exact only_pure _
        · exact only_stmt.mpr trivial

theorem ordinary_syncExecutionState (id : Uuid) (artifact : ExportArtifact)
    (state : ExecutionState) (request : Option DataSubjectRequest)
    (held : List (Uuid × ExportArtifact)) :
    Ordinary (syncExecutionState id artifact state request held) :=
  (syncs_syncExecutionState id artifact state request held).mono fun _ syncs => syncs.ordinary

theorem ordinary_saveArtifact {writer : Writer} {loaded assigned : ExportArtifact} (id : Uuid)
    (assigns : writer.Assigns loaded assigned) :
    Ordinary (saveArtifact writer id loaded assigned) :=
  only_bind (ordinary_sql assigns) fun _ => only_bind (ordinary_sql trivial) fun _ => only_pure _

theorem ordinary_requestExportArtifact (settings : ExportSettings)
    (newId requestId requestedBy : Uuid) :
    Ordinary (requestExportArtifact settings newId requestId requestedBy) := by
  refine only_bind only_raiseIf fun _ => only_bind (ordinary_getRequest _) fun request => ?_
  refine only_bind only_raiseIf fun _ => only_bind (ordinary_sql trivial) fun queuedAt => ?_
  refine only_bind (ordinary_sql trivial) fun createdAt => ?_
  refine only_bind (ordinary_sql ?_) fun _ => ?_
  · exact ⟨settings, requestId, requestedBy, request, queuedAt, createdAt, rfl⟩
  exact only_bind (ordinary_syncExecutionState _ _ _ _ _) fun _ => ordinary_sql trivial

theorem only_collectUpTo {α β : Type} {P : Statement → Prop} (limit : Nat) (xs : List β)
    {f : β → Tx (Option α)} (h : ∀ x, (f x).Only P) : (collectUpTo limit xs f).Only P := by
  induction xs generalizing limit with
  | nil => trivial
  | cons x rest ih =>
      unfold collectUpTo
      split
      · exact only_pure _
      · exact only_bind (h x) fun y => only_bind (ih _) fun _ => only_pure _

theorem ordinary_lockUpTo (limit : Nat) (ids : List Uuid)
    {lock : Uuid → Tx (Option ExportArtifact)} (h : ∀ id, Ordinary (lock id)) :
    Ordinary (lockUpTo limit ids lock) :=
  only_collectUpTo limit ids fun id => only_bind (h id) fun _ => only_pure _

theorem ordinary_syncDerivedState (now : Time) (row : Uuid × ExportArtifact)
    (held : List (Uuid × ExportArtifact)) : Ordinary (syncDerivedState now row held) :=
  only_bind (only_bind ((syncs_artifactsOfRequest _ held).mono fun _ syncs => syncs.ordinary)
    fun _ => only_pure _) fun _ => ordinary_syncExecutionState _ _ _ _ _

theorem ordinary_recoverStaleProcessingArtifacts (limit : Nat) :
    Ordinary (recoverStaleProcessingArtifacts limit) := by
  refine only_bind (ordinary_sql trivial) fun now => only_bind ?_ fun recovered =>
    only_forEach fun row _ => ordinary_syncDerivedState now row []
  refine only_bind (ordinary_sql trivial) fun ids => ?_
  refine only_bind (ordinary_lockUpTo limit ids fun id => ordinary_sql trivial) fun stale => ?_
  exact only_bind (only_forEach fun row _ => ordinary_sql rfl) fun _ => only_pure _

theorem ordinary_claimQueuedArtifactLeases (settings : ExportSettings) (batchSize : Nat)
    (token : Uuid → String) : Ordinary (claimQueuedArtifactLeases settings batchSize token) := by
  unfold claimQueuedArtifactLeases
  split
  · exact only_pure _
  · refine only_bind (ordinary_recoverStaleProcessingArtifacts batchSize) fun _ => ?_
    refine only_bind (only_bind (ordinary_sql trivial) fun ids => ?_) fun rows =>
      only_forEach fun row _ => ordinary_syncExecutionState _ _ _ _ _
    refine only_bind (ordinary_lockUpTo batchSize ids fun id => ordinary_sql trivial) fun rows => ?_
    refine only_bind (ordinary_sql trivial) fun now => ?_
    refine only_bind (only_forEach fun row _ => ordinary_sql ?_) fun _ => only_pure _
    exact ⟨now, token row.1, now + processingLease, rfl⟩

theorem ordinary_renewProcessingLease (id : Uuid) (token : String) :
    Ordinary (renewProcessingLease id token) := by
  refine only_bind (ordinary_sql trivial) fun artifact => ?_
  cases artifact with
  | none => exact only_pure _
  | some artifact =>
      refine only_bind (ordinary_sql trivial) fun now => ?_
      exact only_bind (ordinary_sql ⟨now + processingLease, rfl⟩) fun _ => only_pure _

theorem ordinary_preparedFromIntent (id : Uuid) (a : ExportArtifact) :
    Ordinary (preparedFromIntent id a) := by
  unfold preparedFromIntent
  split
  · exact only_pure _
  · exact only_raise _

theorem ordinary_prepareExportArchive (settings : ExportSettings) (id : Uuid)
    (token candidateKey : String) (archive : Except AppError (Nat × String)) :
    Ordinary (prepareExportArchive settings id token candidateKey archive) := by
  refine only_bind only_raiseIf fun _ => only_bind (ordinary_sql trivial) fun found => ?_
  refine only_bind only_orRaise fun artifact => only_bind (ordinary_sql trivial) fun request => ?_
  refine only_bind only_orRaise fun request => only_bind only_raiseIf fun _ => ?_
  split
  · exact ordinary_preparedFromIntent id artifact
  · split
    · exact only_raise _
    · refine only_bind only_raiseIf fun _ => only_bind (ordinary_sql trivial) fun now => ?_
      refine only_bind (ordinary_sql trivial) fun _ => ?_
      refine only_bind (ordinary_sql trivial) fun intent => ?_
      exact only_bind only_orRaise fun intent => ordinary_preparedFromIntent id intent

theorem ordinary_markGeneratedExportArtifactReady (prepared : PreparedExportArchive)
    (token : String) : Ordinary (markGeneratedExportArtifactReady prepared token) := by
  refine only_bind (ordinary_sql trivial) fun found => only_bind only_orRaise fun artifact => ?_
  refine only_bind only_raiseIf fun _ => only_bind (ordinary_sql trivial) fun now => ?_
  refine only_bind (ordinary_saveArtifact _ ⟨prepared.metadata, now, rfl⟩) fun ready => ?_
  exact only_bind (ordinary_syncExecutionState _ _ _ _ _) fun _ => ordinary_sql trivial

theorem ordinary_markExportArtifactFailed (id : Uuid) (token text : String) :
    Ordinary (markExportArtifactFailed id token text) := by
  refine only_bind (ordinary_sql trivial) fun found => ?_
  cases found with
  | none => exact only_pure _
  | some artifact =>
      refine only_bind (ordinary_sql trivial) fun now => ?_
      refine only_bind (ordinary_saveArtifact id ⟨_, _, now, rfl⟩) fun failed => ?_
      exact only_bind (ordinary_syncExecutionState _ _ _ _ _) fun _ => ordinary_sql trivial

theorem ordinary_clearStoragePurge (purge : ExportArtifactStoragePurge) :
    Ordinary (clearStoragePurge purge) := by
  refine only_bind (ordinary_sql trivial) fun found => ?_
  cases found with
  | none => exact only_pure _
  | some artifact =>
      dsimp only
      split
      · rename_i purgeable
        exact only_bind (ordinary_saveArtifact _ ⟨purgeable, rfl⟩) fun _ => only_pure _
      · exact only_pure _

theorem ordinary_listPurgeRetries (status : ExportArtifactStatus) (limit : Nat) :
    Ordinary (listPurgeRetries status limit) := by
  refine only_bind (ordinary_sql trivial) fun ids => ?_
  exact only_bind (ordinary_lockUpTo limit ids fun id => ordinary_sql trivial) fun _ => only_pure _

theorem ordinary_expireEach (now : Time) (rows : List (Uuid × ExportArtifact)) :
    Ordinary (expireEach now rows) := by
  induction rows with
  | nil => trivial
  | cons row rest ih =>
      refine only_bind (ordinary_saveArtifact row.1 rfl) fun expired => ?_
      refine only_bind (ordinary_syncDerivedState now _ rest) fun _ => ?_
      exact only_bind (ordinary_sql trivial) fun _ => ih

theorem ordinary_retentionStep (purges : List ExportArtifactStoragePurge) (stage : RetentionStage) :
    Ordinary (retentionStep purges stage) := by
  refine only_bind (only_forEach fun purge _ => ordinary_clearStoragePurge purge) fun _ => ?_
  cases stage with
  | listFailed limit => exact ordinary_listPurgeRetries .failed limit
  | expire now limit =>
      refine only_bind (only_bind (ordinary_sql trivial) fun expired => ?_) fun _ =>
        ordinary_listPurgeRetries .expired limit
      exact ordinary_expireEach now _
  | finish => exact only_pure _

/-! ## The operations -/

theorem RequestOp.work_ordinary (op : RequestOp) (other : ∀ call, op ≠ .executeErasure call) :
    Ordinary op.work := by
  have dropped : ∀ {α : Type} {p : Tx α}, Ordinary p → Ordinary (p >>= fun _ => pure ()) :=
    fun h => only_bind h fun _ => only_pure _
  cases op with
  | submit call => exact dropped (ordinary_submitRequest call)
  | markUnderReview id reviewer => exact dropped (ordinary_transitionStatus _ _ _ _)
  | approve id reviewer reasonCode => exact dropped (ordinary_transitionStatus _ _ _ _)
  | reject id reviewer reasonCode => exact dropped (ordinary_transitionStatus _ _ _ _)
  | cancelOwn id requester =>
      refine dropped (only_bind (ordinary_sql trivial) fun found => ?_)
      refine only_bind only_orRaise fun request => only_bind only_raiseIf fun _ => ?_
      refine only_bind (ordinary_sql trivial) fun now => ?_
      refine only_bind (ordinary_getRequest id) fun _ => ?_
      exact ordinary_transitionLoaded _ _ _ _ _ _ _
  | cancelPlatform id reviewer => exact dropped (ordinary_transitionStatus _ _ _ _)
  | verifyRepresentative id reviewer =>
      refine dropped (only_bind (ordinary_sql trivial) fun now => ?_)
      exact only_bind (ordinary_getRequest id) fun _ => ordinary_reviewRepresentative _ _ _
  | rejectRepresentative id reasonCode =>
      refine dropped (only_bind (ordinary_getRequest id) fun _ => ?_)
      exact ordinary_reviewRepresentative _ _ _
  | fulfil id reviewer => exact dropped (ordinary_fulfilRequest id reviewer)
  | executeErasure call => exact absurd rfl (other call)

theorem ArtifactOp.work_ordinary (settings : ExportSettings) (op : ArtifactOp)
    (other : ∀ id, op ≠ .confirmDelivery id) : Ordinary (op.work settings) := by
  have dropped : ∀ {α β : Type} {p : Tx α} {b : β}, Ordinary p →
      Ordinary (p >>= fun _ => pure b) := fun h => only_bind h fun _ => only_pure _
  cases op with
  | request newId requestId requestedBy => exact dropped (ordinary_requestExportArtifact _ _ _ _)
  | confirmDelivery id => exact absurd rfl (other id)
  | claim batchSize token => exact dropped (ordinary_claimQueuedArtifactLeases _ _ _)
  | recover limit => exact dropped (ordinary_recoverStaleProcessingArtifacts limit)
  | renew id token => exact ordinary_renewProcessingLease id token
  | prepare id token key archive => exact dropped (ordinary_prepareExportArchive _ _ _ _ _)
  | resetIntent prepared token =>
      refine dropped (only_bind (ordinary_sql trivial) fun now => ?_)
      exact only_bind (ordinary_sql trivial) fun _ => only_raiseIf
  | markReady prepared token => exact dropped (ordinary_markGeneratedExportArtifactReady _ _)
  | markFailed id token text => exact dropped (ordinary_markExportArtifactFailed _ _ _)
  | retention purges stage => exact dropped (ordinary_retentionStep purges stage)

end SaasTemplate.Privacy
