import SaasTemplate.Privacy.ErasureOperation

/-! # The artifact operations keep the contract

Each change of an artifact starts from a version that the operation has read, and what it
read says which changes are lawful. The operations that report the end of a generation
hold the row meanwhile, so the token they came with is still the committed one.
-/

set_option linter.unusedSectionVars false

namespace SaasTemplate.Privacy

open SaasTemplate.Isolation SaasTemplate.Isolation.Prog

open SaasTemplate.Outbox (written written_same written_of_ne written_self)

variable {τ : Type} [DecidableEq τ] {t : τ} {s : Statement} {db db' : Db τ} {C : Concerns τ}
  {id : Uuid} {A : Db τ → Prop}

/-! ## Changes -/

section Changes

variable {a b : ExportArtifact} {now : Time} {token : String}

theorem final_of_active (h : a.status.isFinal = false) : Final a b := by
  refine ⟨fun final => by simp [h] at final, fun erased => ?_⟩
  simp only [ExportArtifact.isErased, Bool.and_eq_true, beq_iff_eq] at erased
  simp [erased.1, ExportArtifactStatus.isFinal] at h

theorem recovered_change (h : a.isStale now = true) :
    ArtifactChange .recoverStaleProcessing a a.recovered := by
  simp only [ExportArtifact.isStale, Bool.and_eq_true, beq_iff_eq] at h
  exact ⟨rfl, rfl, fun _ some => absurd rfl some, nofun,
    final_of_active (by rw [h.1]; rfl)⟩

theorem claimed_change (h : (a.status == .queued) = true) (leaseExpiresAt : Time) :
    ArtifactChange .claimQueuedBatch a (a.claimed now token leaseExpiresAt) := by
  rw [beq_iff_eq] at h
  exact ⟨rfl, rfl, fun _ _ => ⟨rfl, rfl⟩, nofun, final_of_active (by rw [h]; rfl)⟩

theorem renewed_change (h : a.isProcessingWith token = true) (leaseExpiresAt : Time) :
    ArtifactChange .renewProcessingLease a (a.renewed leaseExpiresAt) := by
  simp only [ExportArtifact.isProcessingWith, Bool.and_eq_true, beq_iff_eq] at h
  exact ⟨rfl, rfl, fun _ _ => ⟨h.1, by simp [ExportArtifact.renewed, h.2]⟩,
    fun _ => ⟨rfl, rfl, h.1, by simp [h.2]⟩, final_of_active (by rw [h.1]; rfl)⟩

theorem ready_change (h : a.isProcessingWith token = true) (m : ExportArtifact.Metadata) :
    ArtifactChange .markReady a
      { (a.withMetadata m).markedReady now with generatedByUserId := none } := by
  simp only [ExportArtifact.isProcessingWith, Bool.and_eq_true, beq_iff_eq] at h
  exact ⟨rfl, rfl, fun _ some => absurd rfl some, nofun, final_of_active (by rw [h.1]; rfl)⟩

theorem failed_change (h : a.isProcessingWith token = true) (code detail : String) :
    ArtifactChange .markFailed a (a.markedFailed code detail now) := by
  simp only [ExportArtifact.isProcessingWith, Bool.and_eq_true, beq_iff_eq] at h
  exact ⟨rfl, rfl, fun _ some => absurd rfl some, nofun, final_of_active (by rw [h.1]; rfl)⟩

theorem expired_change (h : a.isExpiredReady now = true) :
    ArtifactChange .markExpired a a.markedExpired := by
  simp only [ExportArtifact.isExpiredReady, Bool.and_eq_true, beq_iff_eq] at h
  exact ⟨rfl, rfl, fun _ some => absurd rfl some, nofun, final_of_active (by rw [h.1]; rfl)⟩

theorem cleared_change (a : ExportArtifact) : ArtifactChange .clearStorage a a.withoutStorage :=
  ⟨rfl, rfl, id, nofun, .of_same rfl rfl⟩

end Changes

/-! ## Statements about artifacts -/

/-- A flush that does not report the end of a generation. -/
theorem flushArtifact_spec (h : Mild C t A) {writer : Writer} {loaded assigned : ExportArtifact}
    (change : ArtifactChange writer loaded assigned)
    (unreported : assigned.status.isReported = true → assigned.status = loaded.status) :
    Spec C t A (sql (.flushArtifact writer id loaded assigned)) fun _ => A := by
  have flush : Spec C t A (sql (.flushArtifact writer id loaded assigned)) fun _ db => A db ∧ True :=
    spec_mild h trivial
      (fun _ _ _ => ⟨change, fun _ reports differs => absurd (unreported reports) differs⟩)
      fun _ _ _ _ _ _ => trivial
  exact flush.weaken (fun _ held => held) fun _ _ held => held.1

theorem saveArtifact_spec (h : Mild C t A) {writer : Writer} {loaded assigned : ExportArtifact}
    (change : ArtifactChange writer loaded assigned)
    (unreported : assigned.status.isReported = true → assigned.status = loaded.status) :
    Spec C t A (saveArtifact writer id loaded assigned) fun _ => A :=
  (flushArtifact_spec h change unreported).bind fun _ => (spec_plain h rfl).bind fun _ =>
    .pure fun _ held => held

theorem withExecution_kept (state : ExecutionState) (now : Time) (r : DataSubjectRequest) :
    (r.withExecution state now).requestType = r.requestType ∧
      (r.withExecution state now).status = r.status ∧
      (r.withExecution state now).representativeStatus = r.representativeStatus := by
  unfold DataSubjectRequest.withExecution
  cases state.status <;> exact ⟨rfl, rfl, rfl⟩

theorem artifactsOfRequest_spec (h : Mild C t A) (request : Uuid)
    (held : List (Uuid × ExportArtifact)) :
    Spec C t A (artifactsOfRequest request held) fun _ => A :=
  (spec_plain h rfl).bind fun _ => .pure fun _ held => held

theorem redirectedState_spec (h : Mild C t A) (artifact : ExportArtifact) (state : ExecutionState)
    (now : Time) (held : List (Uuid × ExportArtifact)) :
    Spec C t A (redirectedState id artifact state now held) fun _ => A := by
  refine (artifactsOfRequest_spec h _ held).bind fun rows => ?_
  split
  · exact .pure fun _ held => held
  · split
    · exact .pure fun _ held => held
    · exact (artifactsOfRequest_spec h _ held).bind fun _ => .pure fun _ held => held

/-- The request of an export is brought in line; an object that the session has already is of
    the type of its row. -/
theorem syncExecutionState_spec (h : Mild C t A) (artifact : ExportArtifact)
    (state : ExecutionState) {request : Option DataSubjectRequest}
    (known : ∀ r, request = some r → ∀ db, A db →
      HasType t artifact.dataSubjectRequestId r.requestType db)
    (held : List (Uuid × ExportArtifact)) :
    Spec C t A (syncExecutionState id artifact state request held) fun _ => A := by
  refine (spec_plain h rfl).bind fun now => (redirectedState_spec h artifact state _ held).bind
    fun out => ?_
  have read : Spec C t A (sql (.requestById artifact.dataSubjectRequestId)) fun found db =>
      A db ∧ ∀ r, found = some r → HasType t artifact.dataSubjectRequestId r.requestType db := by
    refine spec_mild h trivial (fun _ _ _ => trivial) fun db a db' _ _ executed r is => ?_
    cases executed
    exact ⟨r, is, rfl⟩
  refine read.bind fun found => ?_
  cases found with
  | none => exact .pure fun _ held => held.1
  | some row =>
      dsimp only
      split
      · exact .pure fun _ held => held.1
      · rename_i exports
        have both : Mild C t fun db => A db ∧
            HasType t artifact.dataSubjectRequestId (request.getD row).requestType db :=
          h.and Mild.hasType
        obtain ⟨type, status, representative⟩ :=
          withExecution_kept out.1 out.2 (request.getD row)
        have flush : Spec C t (fun db => A db ∧
            HasType t artifact.dataSubjectRequestId (request.getD row).requestType db)
            (sql (.flushRequest artifact.dataSubjectRequestId (request.getD row)
              ((request.getD row).withExecution out.1 out.2)))
            fun _ db => (A db ∧ HasType t artifact.dataSubjectRequestId
              (request.getD row).requestType db) ∧ True := by
          refine spec_mild both ⟨type, status⟩ (fun db held _ => ⟨type, status, representative, ?_⟩)
            fun _ _ _ _ _ _ => trivial
          intro _ _ r seen erases
          obtain ⟨viewed, again, is⟩ := held.2
          cases seen.symm.trans again
          have exports : (request.getD row).requestType = .export := not_not.mp exports
          simp [is, exports] at erases
        refine flush.weaken (fun db held => ⟨held.1, ?_⟩) fun _ _ held => held.1.1
        cases request with
        | none => exact held.2 row rfl
        | some r => exact known r rfl db held.1

theorem syncDerivedState_spec (h : Mild C t A) (now : Time) (row : Uuid × ExportArtifact)
    (held : List (Uuid × ExportArtifact)) :
    Spec C t A (syncDerivedState now row held) fun _ => A := by
  refine Triple.bind (B := fun _ => A) ?_ fun state => syncExecutionState_spec h _ _ (by simp) held
  exact (artifactsOfRequest_spec h _ held).bind fun _ => .pure fun _ held => held

/-- Locked rows meet what they were locked for. -/
theorem lockUpTo_spec {p : ExportArtifact → Bool} {limit : Nat} {ids : List Uuid}
    {lock : Uuid → Tx (Option ExportArtifact)}
    (locks : ∀ k, Spec C t A (lock k) fun found db => A db ∧ ∀ a, found = some a → p a = true) :
    Spec C t A (lockUpTo limit ids lock) fun rows db => A db ∧ ∀ row ∈ rows, p row.2 = true := by
  have all : Spec C t (fun db => A db ∧ ∀ row ∈ ([] : List (Uuid × ExportArtifact)), p row.2 = true)
      (lockUpTo limit ids lock)
      fun (rows : List (Uuid × ExportArtifact)) db =>
        ∃ _ : List Uuid, A db ∧ ∀ row ∈ [] ++ rows, p row.2 = true := by
    refine Triple.collectUpTo (A := fun (acc : List (Uuid × ExportArtifact)) _ db =>
      A db ∧ ∀ row ∈ acc, p row.2 = true) ?_ []
    intro acc k rest
    refine Triple.assume fun before => (locks k).bind fun found => ?_
    refine .pure fun db held => ⟨held.1, fun row member => ?_⟩
    rcases List.mem_append.mp member with old | new
    · exact before row old
    · cases found with
      | none => simp at new
      | some a =>
          simp only [Option.map_some, Option.toList_some, List.mem_singleton] at new
          exact new ▸ held.2 a rfl
  refine all.weaken (fun _ held => ⟨held, by simp⟩) ?_
  rintro rows db ⟨-, held⟩
  simpa using held

theorem lockQueued_spec (h : Mild C t A) : Spec C t A (sql (.lockQueuedArtifact id)) fun found db =>
    A db ∧ ∀ a, found = some a → (a.status == .queued) = true := by
  refine spec_mild h trivial (fun _ _ _ => trivial) fun db found db' _ _ executed a is => ?_
  rcases lockArtifactOrSkip_cases executed with ⟨-, none⟩ | ⟨row, -, holds, -, some, -⟩
  · cases is.symm.trans (Except.ok.inj none)
  · cases is.symm.trans (Except.ok.inj some)
    exact holds

theorem lockStale_spec (h : Mild C t A) {now : Time} :
    Spec C t A (sql (.lockStaleArtifact id now)) fun found db =>
      A db ∧ ∀ a, found = some a → a.isStale now = true := by
  refine spec_mild h trivial (fun _ _ _ => trivial) fun db found db' _ _ executed a is => ?_
  rcases lockArtifactOrSkip_cases executed with ⟨-, none⟩ | ⟨row, -, holds, -, some, -⟩
  · cases is.symm.trans (Except.ok.inj none)
  · cases is.symm.trans (Except.ok.inj some)
    exact holds

/-! ## Asking and delivering -/

theorem ensureExportsEnabled_spec (settings : ExportSettings) :
    Spec C t A (ensureExportsEnabled settings) fun _ => A :=
  Triple.raiseIf.weaken (fun _ held => held) fun _ _ held => held.1

theorem insertArtifact_spec (h : Mild C t A) {row : ExportArtifact}
    (unleased : row.processingLeaseExpiresAt = none) :
    Spec C t A (sql (.insertArtifact id row)) fun _ => A := by
  have inserts : Spec C t A (sql (.insertArtifact id row)) fun _ db => A db ∧ True :=
    spec_mild h trivial (fun _ _ _ => unleased) fun _ _ _ _ _ _ => trivial
  exact inserts.weaken (fun _ held => held) fun _ _ held => held.1

theorem requestExportArtifact_spec (settings : ExportSettings)
    (newId requestId requestedByUserId : Uuid) :
    Spec C t (Idle t) (requestExportArtifact settings newId requestId requestedByUserId)
      fun _ => Idle t := by
  refine (ensureExportsEnabled_spec settings).bind fun _ =>
    (getRequest_spec Mild.worksOnly).bind fun request => ?_
  have known : Mild C t fun db => Idle t db ∧ Known t requestId request db :=
    Mild.worksOnly.and Mild.known
  refine Triple.raiseIf.bind fun _ => Triple.assume fun _ => ?_
  refine (spec_plain known rfl).bind fun queuedAt => (spec_plain known rfl).bind fun createdAt => ?_
  refine (insertArtifact_spec known rfl).bind fun _ => ?_
  refine (syncExecutionState_spec known _ _ (fun r is db held => ?_) []).bind fun _ => ?_
  · cases is
    exact held.2.type
  · exact (spec_plain known rfl).weaken (fun _ held => held) fun _ _ held => held.1

theorem confirmExportDelivery_spec (settings : ExportSettings) :
    Spec C t (Idle t) (confirmExportDelivery settings id) fun _ => Idle t := by
  have idle : Mild C t (Idle t) := Mild.worksOnly
  refine (spec_plain idle rfl).bind fun found => Triple.orRaise.bind fun artifact =>
    Triple.assume fun _ => (ensureExportsEnabled_spec settings).bind fun _ => ?_
  refine (spec_plain idle rfl).bind fun now => Triple.raiseIf.bind fun _ => Triple.assume fun _ => ?_
  refine Triple.bind (B := fun _ => Idle t) ?_ fun _ => ?_
  · exact (spec_plain idle rfl).bind fun _ => Triple.raiseIf.weaken (fun _ held => held)
      fun _ _ held => held.1
  refine Triple.raiseIf.bind fun _ => Triple.assume fun _ => ?_
  refine Triple.raiseIf.bind fun _ => Triple.assume fun _ => ?_
  refine (spec_plain idle rfl).bind fun confirmed => (spec_plain idle rfl).bind fun refreshed => ?_
  split
  · exact Triple.raiseIf.weaken (fun _ held => held) fun _ _ held => held.1
  · exact (syncExecutionState_spec idle _ _ (by simp) []).bind fun _ => spec_plain idle rfl

/-! ## The worker -/

theorem recoverStaleProcessingArtifacts_spec (limit : Nat) :
    Spec C t (Idle t) (recoverStaleProcessingArtifacts limit) fun _ => Idle t := by
  have idle : Mild C t (Idle t) := Mild.worksOnly
  refine (spec_plain idle rfl).bind fun now => ?_
  refine Triple.bind (B := fun _ => Idle t) ?_ fun recovered =>
    Triple.forEach fun row _ => syncDerivedState_spec idle now row []
  refine (spec_plain idle rfl).bind fun ids =>
    (lockUpTo_spec fun k => lockStale_spec idle).bind fun stale => Triple.assume fun known => ?_
  refine Triple.bind (B := fun _ => Idle t) ?_ fun _ => .pure fun _ held => held
  exact Triple.forEach fun row member =>
    flushArtifact_spec idle (recovered_change (known row member)) nofun

theorem claimQueuedArtifactLeases_spec (settings : ExportSettings) (batchSize : Nat)
    (token : Uuid → String) :
    Spec C t (Idle t) (claimQueuedArtifactLeases settings batchSize token) fun _ => Idle t := by
  have idle : Mild C t (Idle t) := Mild.worksOnly
  unfold claimQueuedArtifactLeases
  split
  · exact .pure fun _ held => held
  · refine (recoverStaleProcessingArtifacts_spec batchSize).bind fun _ => ?_
    refine Triple.bind (B := fun _ => Idle t) ?_ fun rows =>
      Triple.forEach fun row _ => syncExecutionState_spec idle _ _ (by simp) []
    refine (spec_plain idle rfl).bind fun ids =>
      (lockUpTo_spec fun k => lockQueued_spec idle).bind fun rows => Triple.assume fun known => ?_
    refine (spec_plain idle rfl).bind fun now => ?_
    refine Triple.bind (B := fun _ => Idle t) ?_ fun _ => .pure fun _ held => held
    exact Triple.forEach fun row member =>
      flushArtifact_spec idle (claimed_change (known row member) _) fun is => by cases is

theorem prepareExportArchive_spec (settings : ExportSettings) (token candidateKey : String)
    (archive : Except AppError (Nat × String)) :
    Spec C t (Idle t) (prepareExportArchive settings id token candidateKey archive)
      fun _ => Idle t := by
  have idle : Mild C t (Idle t) := Mild.worksOnly
  have prepared : ∀ a, Spec C t (Idle t) (preparedFromIntent id a) fun _ => Idle t := by
    intro a
    unfold preparedFromIntent
    split
    · exact .pure fun _ held => held
    · exact .raise
  refine (ensureExportsEnabled_spec settings).bind fun _ => (spec_plain idle rfl).bind fun found =>
    Triple.orRaise.bind fun artifact => Triple.assume fun _ => ?_
  refine (spec_plain idle rfl).bind fun request => Triple.orRaise.bind fun request =>
    Triple.assume fun _ => Triple.raiseIf.bind fun _ => Triple.assume fun _ => ?_
  split
  · exact prepared artifact
  · split
    · exact .raise
    · refine Triple.raiseIf.bind fun _ => Triple.assume fun _ => ?_
      refine (spec_plain idle rfl).bind fun now => (spec_plain idle rfl).bind fun _ =>
        (spec_plain idle rfl).bind fun intent => Triple.orRaise.bind fun intent =>
          Triple.assume fun _ => prepared intent

theorem resetPreparedExportUploadIntent_spec (prepared : PreparedExportArchive) (token : String) :
    Spec C t (Idle t) (resetPreparedExportUploadIntent prepared token) fun _ => Idle t := by
  have idle : Mild C t (Idle t) := Mild.worksOnly
  exact (spec_plain idle rfl).bind fun now => (spec_plain idle rfl).bind fun reset =>
    Triple.raiseIf.weaken (fun _ held => held) fun _ _ held => held.1

/-- What a renewal has written: the lease of its holder, from the clock value it read. -/
structure Renewed (t : τ) (id : Uuid) (token : String) (now : Time) (db : Db τ) : Prop where
  held : db.artifacts.holder id = some t
  lease : ∃ a, db.artifacts.pending id = some a ∧ a.isProcessingWith token = true ∧
    a.processingLeaseExpiresAt = some (now + processingLease)

/-- What a renewal leaves for its commit. -/
def RenewalReady (C : Concerns τ) (t : τ) (id : Uuid) (token : String) (renewal : Option Renewal)
    (db : Db τ) : Prop :=
  Idle t db ∧ ∀ r, renewal = some r → r.writes = true → C.leases → Renewed t id token r.now db

theorem renewalReady_stable {token : String} {renewal : Option Renewal} :
    (privacyContract C).Stable t (RenewalReady C t id token renewal) := by
  rintro db db' ⟨idle, renewed⟩ moved holds
  refine ⟨(Mild.worksOnly (C := C)).stable db db' idle moved holds, fun r is writes about => ?_⟩
  obtain ⟨held, lease⟩ := renewed r is writes about
  have same := moved.stays.artifacts.keeps.cell held
  refine ⟨?_, ?_⟩
  · rwa [Table.holder_of_cell same]
  · rwa [Table.pending_of_cell same]

/-- A flush that ends well has found its row. -/
theorem flushArtifact_ok {writer : Writer} {loaded assigned : ExportArtifact}
    {a : Answer (.flushArtifact writer id loaded assigned)}
    (h : exec t (.flushArtifact writer id loaded assigned) db = some (.ok a, db'))
    (writes : assigned ≠ loaded) : ∃ row, db.artifacts.view t id = some row ∧
      db' = { db with artifacts := db.artifacts.put t id (some (loaded.flush assigned row)) } := by
  simp only [exec, if_neg writes] at h
  obtain ⟨⟨out, db''⟩, updated, answer⟩ := Option.map_eq_some_iff.mp h
  obtain ⟨⟨out', T⟩, found, is⟩ := Option.map_eq_some_iff.mp updated
  cases is
  rcases Table.update_cases found with ⟨-, rfl | ⟨rfl, -⟩⟩ | ⟨row, next, seen, changed, -, rfl, rfl⟩
  · cases answer
  · cases answer
  · cases changed
    cases answer
    exact ⟨row, seen, rfl⟩

theorem renewProcessingLease_spec (token : String) :
    Spec C t (Idle t) (renewProcessingLease id token) (RenewalReady C t id token) := by
  have idle : Mild C t (Idle t) := Mild.worksOnly
  have read : Spec C t (Idle t) (sql (.processingArtifact id token)) fun found db =>
      Idle t db ∧ ∀ a, found = some a → a.isProcessingWith token = true := by
    refine spec_mild idle trivial (fun _ _ _ => trivial) fun db found db' _ _ executed a is => ?_
    cases executed
    exact (Option.filter_eq_some_iff.mp is).2
  refine read.bind fun found => Triple.assume fun known => ?_
  cases found with
  | none => exact .pure fun _ held => ⟨held, nofun⟩
  | some loaded =>
      have holds := known loaded rfl
      refine (spec_plain idle rfl).bind fun now => ?_
      let renewed := loaded.renewed (now + processingLease)
      have flush : Spec C t (Idle t) (sql (.flushArtifact .renewProcessingLease id loaded renewed))
          fun _ => RenewalReady C t id token (some ⟨now, renewed ≠ loaded⟩) := by
        refine spec_sql idle nofun
          (fun _ _ _ => ⟨renewed_change holds _, fun _ _ differs => absurd rfl differs⟩) ?_
        intro db a db' held inv allowed executed
        refine ⟨idle.keeps (exec_case executed) trivial held, fun r is writes about => ?_⟩
        cases is
        have changes : renewed ≠ loaded := of_decide_eq_true writes
        obtain ⟨row, seen, rfl⟩ := flushArtifact_ok executed changes
        have kept := allowed.leases about
        simp only [keepsLeases, seen, Option.all_some, Bool.and_eq_true, beq_iff_eq] at kept
        simp only [ExportArtifact.isProcessingWith, Bool.and_eq_true, beq_iff_eq] at holds
        have lease : loaded.processingLeaseExpiresAt ≠ some (now + processingLease) := by
          intro same
          exact changes (by simp [renewed, ExportArtifact.renewed, ← same])
        refine ⟨by simp, loaded.flush renewed row, by simp, ?_, ?_⟩
        · simp [ExportArtifact.isProcessingWith, ExportArtifact.flush, renewed,
            ExportArtifact.renewed, kept.1.1, kept.1.2, holds.1, holds.2]
        · simp [ExportArtifact.flush, renewed, ExportArtifact.renewed,
            written_of_ne (Ne.symm lease)]
      exact flush.bind fun _ => .pure fun _ held => held

/-- `t` holds the artifact, whose committed token is `token`. -/
structure HoldsToken (t : τ) (id : Uuid) (token : String) (db : Db τ) : Prop where
  held : db.artifacts.holder id = some t
  token : ∀ a, db.artifacts.committed id = some a → a.processingToken = some token

theorem holdsToken_stable {token : String} :
    (privacyContract C).Stable t (HoldsToken t id token) := by
  intro db db' held moved _
  have same := moved.stays.artifacts.keeps.cell held.held
  refine ⟨?_, ?_⟩
  · rw [Table.holder_of_cell same]
    exact held.held
  · rw [Table.committed_of_cell same]
    exact held.token

/-- What a transaction that reports on an artifact starts with. -/
def Unreported (t : τ) (db : Db τ) : Prop := Idle t db ∧ Table.HoldsNone t db.artifacts

theorem lockProcessingArtifact_spec (token : String) :
    Spec C t (Unreported t) (sql (.lockProcessingArtifact id token)) fun found db =>
      (Idle t db ∧ ∀ a, found = some a → HoldsToken t id token db) ∧
        ∀ a, found = some a → a.isProcessingWith token = true := by
  have stable : (privacyContract C).Stable t (Unreported t) := fun db db' held moved holds =>
    ⟨(Mild.worksOnly (C := C)).stable db db' held.1 moved holds,
      moved.stays.artifacts.keeps.holdsNone held.2⟩
  refine Terms.triple_stmt stable nofun (fun _ _ _ => trivial) ?_
  rintro db found db' ⟨idle, none⟩ _ - executed
  rcases lockArtifact_cases executed with ⟨rfl, is⟩ | ⟨row, seen, holds, -, is, rfl⟩
  · obtain rfl := Except.ok.inj is
    exact ⟨⟨idle, fun a absent => by cases absent⟩, fun a absent => by cases absent⟩
  · obtain rfl := Except.ok.inj is
    refine ⟨⟨idle, fun _ _ => ⟨by simp, fun a here => ?_⟩⟩, fun a same => ?_⟩
    · rw [none.view] at seen
      cases seen.symm.trans (by simpa using here)
      simp only [ExportArtifact.isProcessingWith, Bool.and_eq_true, beq_iff_eq] at holds
      exact holds.2
    · obtain rfl := Option.some.inj same
      exact holds

/-- The flush that reports the end of a generation, under the lock. -/
theorem report_spec {token : String} (mine : C.token t = some token) {writer : Writer}
    {loaded assigned : ExportArtifact} (change : ArtifactChange writer loaded assigned) :
    Spec C t (fun db => Idle t db ∧ HoldsToken t id token db)
      (saveArtifact writer id loaded assigned) fun _ => Idle t := by
  have idle : Mild C t (Idle t) := Mild.worksOnly
  have flush : Spec C t (fun db => Idle t db ∧ HoldsToken t id token db)
      (sql (.flushArtifact writer id loaded assigned)) fun _ => Idle t := by
    refine Terms.triple_stmt (idle.stable.and holdsToken_stable) nofun (fun db held _ => ?_) ?_
    · refine ⟨change, fun _ _ _ a here _ _ => ?_⟩
      have is := held.2.token a here
      exact ⟨by simp [is], is.trans mine.symm⟩
    · intro db _ db' held _ _ executed
      have case := exec_case (s := .flushArtifact writer id loaded assigned) executed
      exact idle.keeps case trivial held.1
  exact flush.bind fun _ => (spec_plain idle rfl).bind fun _ => .pure fun _ held => held

theorem markGeneratedExportArtifactReady_spec (prepared : PreparedExportArchive) {token : String}
    (mine : C.token t = some token) :
    Spec C t (Unreported t) (markGeneratedExportArtifactReady prepared token) fun _ => Idle t := by
  have idle : Mild C t (Idle t) := Mild.worksOnly
  refine (lockProcessingArtifact_spec token).bind fun found => Triple.assume fun known =>
    Triple.orRaise.bind fun artifact => Triple.assume fun is => ?_
  refine Triple.raiseIf.bind fun _ => Triple.assume fun _ => ?_
  have stable : (privacyContract C).Stable t fun db =>
      Idle t db ∧ HoldsToken t prepared.artifactId token db := idle.stable.and holdsToken_stable
  have clock : Spec C t (fun db => Idle t db ∧ HoldsToken t prepared.artifactId token db)
      (sql .now) fun _ db => Idle t db ∧ HoldsToken t prepared.artifactId token db :=
    spec_still stable nofun rfl fun _ _ _ executed => by cases executed; rfl
  refine Triple.bind (clock.weaken (fun db held => ⟨held.1, held.2 artifact is⟩)
    fun _ _ held => held) fun now => ?_
  refine (report_spec mine (ready_change (known artifact is) _)).bind fun ready => ?_
  exact (syncExecutionState_spec idle _ _ (by simp) []).bind fun _ => spec_plain idle rfl

theorem markExportArtifactFailed_spec {token : String} (text : String)
    (mine : C.token t = some token) :
    Spec C t (Unreported t) (markExportArtifactFailed id token text) fun _ => Idle t := by
  have idle : Mild C t (Idle t) := Mild.worksOnly
  refine (lockProcessingArtifact_spec token).bind fun found => Triple.assume fun known => ?_
  cases found with
  | none => exact .pure fun _ held => held.1
  | some artifact =>
      have stable : (privacyContract C).Stable t fun db =>
          Idle t db ∧ HoldsToken t id token db := idle.stable.and holdsToken_stable
      have clock : Spec C t (fun db => Idle t db ∧ HoldsToken t id token db)
          (sql .now) fun _ db => Idle t db ∧ HoldsToken t id token db :=
        spec_still stable nofun rfl fun _ _ _ executed => by cases executed; rfl
      refine Triple.bind (clock.weaken (fun db held => ⟨held.1, held.2 artifact rfl⟩)
        fun _ _ held => held) fun now => ?_
      refine (report_spec mine (failed_change (known artifact rfl) _ _)).bind fun failed => ?_
      exact (syncExecutionState_spec idle _ _ (by simp) []).bind fun _ => spec_plain idle rfl

/-! ## Retention -/

theorem clearStoragePurge_spec (h : Mild C t A) (purge : ExportArtifactStoragePurge) :
    Spec C t A (clearStoragePurge purge) fun _ => A := by
  refine (spec_plain h rfl).bind fun found => ?_
  split
  · exact .pure fun _ held => held
  · rename_i artifact
    split
    · exact (saveArtifact_spec h (cleared_change artifact) fun _ => rfl).bind fun _ =>
        .pure fun _ held => held
    · exact .pure fun _ held => held

theorem listPurgeRetries_spec (h : Mild C t A) (status : ExportArtifactStatus) (limit : Nat) :
    Spec C t A (listPurgeRetries status limit) fun _ => A := by
  refine (spec_plain h rfl).bind fun ids => ?_
  have locks : ∀ k, Spec C t A (sql (.lockPurgeRetry k status)) fun found db =>
      A db ∧ ∀ a, found = some a → true = true :=
    fun k => (spec_plain h rfl).weaken (fun _ held => held) fun _ _ held => ⟨held, fun _ _ => rfl⟩
  exact (lockUpTo_spec (p := fun _ => true) locks).bind fun _ => .pure fun _ held => held.1

theorem expireEach_spec (h : Mild C t A) (now : Time) {rows : List (Uuid × ExportArtifact)}
    (expired : ∀ row ∈ rows, row.2.isExpiredReady now = true) :
    Spec C t A (expireEach now rows) fun _ => A := by
  induction rows with
  | nil => exact .pure fun _ held => held
  | cons row rest ih =>
      refine (saveArtifact_spec h (expired_change (expired row (by simp))) nofun).bind fun saved => ?_
      refine (syncDerivedState_spec h now _ rest).bind fun _ => (spec_plain h rfl).bind fun _ => ?_
      exact ih fun other member => expired other (by simp [member])

theorem expireReadyArtifacts_spec (h : Mild C t A) (now : Time) (limit : Nat) :
    Spec C t A (expireReadyArtifacts now limit) fun _ => A := by
  have read : Spec C t A (sql (.expiredReadyArtifacts now)) fun rows db =>
      A db ∧ ∀ row ∈ rows, row.2.isExpiredReady now = true := by
    refine spec_mild h trivial (fun _ _ _ => trivial) fun db rows db' _ _ executed row member => ?_
    cases executed
    exact (mem_sortedRows.mp member).2
  refine read.bind fun rows => Triple.assume fun expired => ?_
  exact expireEach_spec h now fun row member => expired row (List.mem_of_mem_take member)

theorem retentionStep_spec (purges : List ExportArtifactStoragePurge) (stage : RetentionStage) :
    Spec C t (Idle t) (retentionStep purges stage) fun _ => Idle t := by
  have idle : Mild C t (Idle t) := Mild.worksOnly
  refine Triple.bind (B := fun _ => Idle t)
    (Triple.forEach fun purge _ => clearStoragePurge_spec idle purge) fun _ => ?_
  split
  · exact listPurgeRetries_spec idle _ _
  · exact (expireReadyArtifacts_spec idle _ _).bind fun _ => listPurgeRetries_spec idle _ _
  · exact .pure fun _ held => held

end SaasTemplate.Privacy
