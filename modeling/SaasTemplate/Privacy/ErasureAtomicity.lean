import SaasTemplate.Privacy.DeferredDeletions

/-! # A failing erasure leaves nothing behind

The orchestrator runs its providers in a savepoint. They are arbitrary here: whatever one of
them writes and registers before it raises, the call ends with a failed result, and the
tables are as before but for the note of the failure in the request.
-/

namespace SaasTemplate.Privacy

/-- A row of `data_subject_requests`, with the column that every `UPDATE` sets. -/
structure RequestRow extends DataSubjectRequest where
  updatedAt : Time
  deriving DecidableEq, Repr

/-- The tables as a transaction sees them; only the requests have to be told apart. -/
structure Tables (ρ : Type) where
  requests : Uuid → Option RequestRow
  others : ρ

/-- A transaction of a session. -/
structure OpenSession (ρ : Type) where
  tables : Tables ρ
  session : SyncSession

/-- What a provider raises: one of `_PROVIDER_ERRORS`, or anything else. -/
inductive Raised where
  | providerError (reasonCode : String)
  | other (typeName : String)
  deriving DecidableEq, Repr

/-- `exc.reason_code`, or `_GENERIC_FAILURE_REASON_CODE`. -/
def Raised.reasonCode : Raised → String
  | .providerError reasonCode => reasonCode
  | .other _ => "erasure_orchestration_failed"

/-- A provider: how it ends, what it has written by then, and what it has registered. -/
abbrev Provider (ρ π : Type) : Type :=
  Tables ρ → Except Raised (List π) × Tables ρ × List DeferredExportObjectDeletion

/-- The snapshot and the providers, in the order of `_run_core_providers`. -/
structure CoreProviders (ρ π : Type) where
  buildSnapshot : Provider ρ π
  minimiseAuditEvents : Provider ρ π
  scrubOutbox : Provider ρ π
  anonymiseInvites : Provider ρ π
  applyMembershipErasurePolicy : Provider ρ π
  applyOrganisationErasurePolicy : Provider ρ π
  minimisePlatformStaff : Provider ρ π
  minimiseExportArtifacts : Provider ρ π
  minimisePrivacyGovernance : Provider ρ π
  anonymiseUserProfile : Provider ρ π
  minimiseDsrWorkflow : Provider ρ π

variable {ρ π : Type}

def CoreProviders.inOrder (p : CoreProviders ρ π) : List (Provider ρ π) :=
  [p.buildSnapshot, p.minimiseAuditEvents, p.scrubOutbox, p.anonymiseInvites,
    p.applyMembershipErasurePolicy, p.applyOrganisationErasurePolicy, p.minimisePlatformStaff,
    p.minimiseExportArtifacts, p.minimisePrivacyGovernance, p.anonymiseUserProfile,
    p.minimiseDsrWorkflow]

inductive ErasureOrchestrationStatus where
  | completed | alreadyCompleted | failed
  deriving DecidableEq, Repr

structure ErasureOrchestrationResult (π : Type) where
  requestId : Uuid
  subjectUserId : Option Uuid
  status : ErasureOrchestrationStatus
  providerResults : List π
  completedAt : Time
  failureReasonCode : Option String

/-! ## The orchestrator -/

/-- `session.flush()` of the changed request, at `now`. -/
def OpenSession.flushRequest (id : Uuid) (r : DataSubjectRequest) (now : Time)
    (s : OpenSession ρ) : OpenSession ρ :=
  { s with tables := { s.tables with
      requests := Function.update s.tables.requests id (some ⟨r, now⟩) } }

@[simp] theorem OpenSession.flushRequest_session (id : Uuid) (r : DataSubjectRequest) (now : Time)
    (s : OpenSession ρ) : (s.flushRequest id r now).session = s.session := rfl

/-- Run the providers until one of them raises. -/
def runCoreProviders : List (Provider ρ π) → OpenSession ρ →
    Except Raised (List π) × OpenSession ρ
  | [], s => (.ok [], s)
  | provider :: rest, s =>
      let out := provider s.tables
      let after : OpenSession ρ := ⟨out.2.1, s.session.register out.2.2⟩
      match out.1 with
      | .error e => (.error e, after)
      | .ok results =>
          let further := runCoreProviders rest after
          (further.1.map (results ++ ·), further.2)

/-- `async with session.begin_nested()`: an exception takes the tables back. -/
def inSavepoint {α : Type} (body : OpenSession ρ → Except Raised α × OpenSession ρ)
    (s : OpenSession ρ) : Option (Except Raised α × OpenSession ρ) := do
  let nested ← s.session.step .beginNested
  let out := body ⟨s.tables, nested⟩
  match out.1 with
  | .ok _ => do
      let released ← out.2.session.step .release
      pure (out.1, ⟨out.2.tables, released⟩)
  | .error _ => do
      let back ← out.2.session.step .rollbackNested
      pure (out.1, ⟨s.tables, back⟩)

/-- `_lock_and_validate_request`: the reason code it raises with, if any. -/
def RequestRow.refusal (row : RequestRow) : Option String :=
  if row.requestType ≠ .erase then some "erasure_orchestration_requires_erase_request"
  else if row.executionStatus = .ready then none
  else if row.status ≠ .approved then some "erasure_orchestration_requires_approved_request"
  else if row.executionStatus = .processing then some "erasure_orchestration_already_processing"
  else if row.subjectUserId.isNone then some "erasure_orchestration_requires_subject_user"
  else none

/-- `execute_core_erasure_for_approved_request`; `none` if the session is not in a transaction.
    The two flushes of the request happen at `now` and at `endedAt`. -/
def executeCoreErasureForApprovedRequest (providers : CoreProviders ρ π) (id : Uuid)
    (now endedAt : Time) (s : OpenSession ρ) :
    Option (Except String (ErasureOrchestrationResult π) × OpenSession ρ) :=
  match s.tables.requests id with
  | none => some (.error "erasure_orchestration_request_not_found", s)
  | some row =>
      match row.refusal with
      | some reasonCode => some (.error reasonCode, s)
      | none =>
          if row.executionStatus = .ready then
            some (.ok ⟨id, row.subjectUserId, .alreadyCompleted, [], now, none⟩, s)
          else do
            let processing := row.toDataSubjectRequest.markedProcessing now
            let out ← inSavepoint (runCoreProviders providers.inOrder)
              (s.flushRequest id processing now)
            match out.1 with
            | .error e =>
                let failed := processing.markedFailed e.reasonCode now
                pure (.ok ⟨id, row.subjectUserId, .failed, [], now,
                  some (DataSubjectRequest.shortCode e.reasonCode)⟩,
                  out.2.flushRequest id failed endedAt)
            | .ok results => do
                -- the object of the request, with what the providers changed in it
                let erased ← out.2.tables.requests id
                pure (.ok ⟨id, row.subjectUserId, .completed, results, now, none⟩,
                  out.2.flushRequest id (erased.toDataSubjectRequest.markedReady now) endedAt)

/-! ## A failing execution -/

/-- A request that may be executed, in a transaction of a session whose handlers are in place
    if anything is noted. -/
structure Executable (id : Uuid) (row : RequestRow) (s : OpenSession ρ) : Prop where
  found : s.tables.requests id = some row
  accepted : row.refusal = none
  unfinished : row.executionStatus ≠ .ready
  inTransaction : s.session.savepoints.isSome = true
  hooked : s.session.Hooked

/-- The `execution_*` columns may differ. -/
def SameButExecution (before after : RequestRow) : Prop :=
  after = { before with
    executionStatus := after.executionStatus, executionStartedAt := after.executionStartedAt
    executionCompletedAt := after.executionCompletedAt
    executionFailedAt := after.executionFailedAt
    executionFailureReasonCode := after.executionFailureReasonCode
    executionFailureDetail := after.executionFailureDetail }

/-- The `execution_*` columns and `updated_at` may differ. -/
def SameButExecutionAndUpdate (before after : RequestRow) : Prop :=
  SameButExecution { before with updatedAt := after.updatedAt } after

/-- What is left after an execution in which `e` was raised: a failed result; in the tables
    only the request, changed as `leaves` says and noting the failure; no deletion for the
    transaction to carry out; and a request that may be executed again. -/
structure FailedCleanly (leaves : RequestRow → RequestRow → Prop) (id : Uuid) (row : RequestRow)
    (e : Raised) (s : OpenSession ρ) (result : ErasureOrchestrationResult π)
    (s' : OpenSession ρ) : Prop where
  failed : result.status = .failed ∧
    result.failureReasonCode = some (DataSubjectRequest.shortCode e.reasonCode)
  tables : ∃ after, leaves row after ∧ after.executionStatus = .failed ∧
    after.executionFailureReasonCode = some (DataSubjectRequest.shortCode e.reasonCode) ∧
    s'.tables = { s.tables with requests := Function.update s.tables.requests id (some after) } ∧
    Executable id after s'
  deletions : ∃ committed, s'.session.step .commit = some committed ∧
    committed.deleted = s.session.deleted

/-- Every exception of the snapshot or a provider, at whatever point, leaves that. -/
def FailsCleanly (ρ π : Type) (leaves : RequestRow → RequestRow → Prop) : Prop :=
  ∀ (providers : CoreProviders ρ π) (id : Uuid) (row : RequestRow) (now endedAt : Time)
    (s : OpenSession ρ) (e : Raised), Executable id row s →
    (runCoreProviders providers.inOrder (s.flushRequest id (row.markedProcessing now) now)).1 =
      .error e →
    ∃ result s', executeCoreErasureForApprovedRequest providers id now endedAt s =
      some (.ok result, s') ∧ FailedCleanly leaves id row e s result s'

/-! ## The savepoint -/

variable {s : OpenSession ρ} {id : Uuid} {row : RequestRow}

/-- How the providers end is decided by the tables. -/
theorem runCoreProviders_session (providers : List (Provider ρ π)) (tables : Tables ρ)
    (a b : SyncSession) : (runCoreProviders providers ⟨tables, a⟩).1 =
      (runCoreProviders providers ⟨tables, b⟩).1 := by
  induction providers generalizing tables a b with
  | nil => rfl
  | cons provider rest ih =>
      simp only [runCoreProviders]
      cases (provider tables).1 with
      | error e => rfl
      | ok results => exact congrArg (Except.map (results ++ ·)) (ih _ _ _)

/-- What registrations leave alone. -/
structure Registered (a b : SyncSession) : Prop where
  savepoints : b.savepoints = a.savepoints
  deleted : b.deleted = a.deleted
  hooked : a.Hooked → b.Hooked

theorem runCoreProviders_registered (providers : List (Provider ρ π)) (s : OpenSession ρ) :
    Registered s.session (runCoreProviders providers s).2.session := by
  induction providers generalizing s with
  | nil => exact ⟨rfl, rfl, id⟩
  | cons provider rest ih =>
      have first (deletions : List DeferredExportObjectDeletion) :
          Registered s.session (s.session.register deletions) :=
        ⟨by simp, by simp, fun hooked => hooked.register deletions⟩
      simp only [runCoreProviders]
      split
      · exact first _
      · have further := ih ⟨(provider s.tables).2.1, s.session.register (provider s.tables).2.2⟩
        exact ⟨further.savepoints.trans (by simp), further.deleted.trans (by simp),
          fun hooked => further.hooked (hooked.register _)⟩

/-- Leaving the savepoint with an exception: the tables are back, and nothing is noted. -/
theorem inSavepoint_error {providers : List (Provider ρ π)} {e : Raised}
    (inTransaction : s.session.savepoints.isSome = true) (hooked : s.session.Hooked)
    (raises : (runCoreProviders providers s).1 = .error e) :
    ∃ back, inSavepoint (runCoreProviders providers) s = some (.error e, ⟨s.tables, back⟩) ∧
      back.savepoints = s.session.savepoints ∧ back.pendingDeletions = none ∧
      back.deleted = s.session.deleted := by
  obtain ⟨n, level⟩ := Option.isSome_iff_exists.mp inTransaction
  let nested : SyncSession := { s.session with savepoints := some (n + 1) }
  have begins : s.session.step .beginNested = some nested := by simp [SyncSession.step, level, nested]
  have ended : (runCoreProviders providers ⟨s.tables, nested⟩).1 = .error e :=
    (runCoreProviders_session providers s.tables nested s.session).trans raises
  have registered := runCoreProviders_registered providers ⟨s.tables, nested⟩
  let inner := (runCoreProviders providers ⟨s.tables, nested⟩).2.session
  have level' : inner.savepoints = some (n + 1) := registered.savepoints
  have back : inner.step .rollbackNested = _ := (registered.hooked hooked).step_rollbackNested level'
  refine ⟨{ inner.discard with savepoints := some n }, ?_, level.symm, rfl, registered.deleted⟩
  simp only [inSavepoint, begins, Option.bind_eq_bind, Option.bind_some, ended]
  exact Option.bind_eq_some_iff.mpr ⟨_, back, rfl⟩

/-! ## The execution -/

theorem refusal_eq_none_iff (unfinished : row.executionStatus ≠ .ready) :
    row.refusal = none ↔ row.requestType = .erase ∧ row.status = .approved ∧
      row.executionStatus ≠ .processing ∧ row.subjectUserId.isSome = true := by
  unfold RequestRow.refusal
  cases row.subjectUserId <;> grind

/-- A failing execution changes the `execution_*` columns of the request and its `updated_at`,
    and nothing else. -/
theorem erasure_fails_cleanly (ρ π : Type) : FailsCleanly ρ π SameButExecutionAndUpdate := by
  intro providers id row now endedAt s e executable raises
  let processing := row.toDataSubjectRequest.markedProcessing now
  let failed := processing.markedFailed e.reasonCode now
  obtain ⟨back, leaves, level, forgotten, deleted⟩ := inSavepoint_error
    (s := s.flushRequest id processing now) executable.inTransaction executable.hooked raises
  let left : OpenSession ρ := ⟨(s.flushRequest id processing now).tables, back⟩
  have written : (left.flushRequest id failed endedAt).tables =
      { s.tables with
        requests := Function.update s.tables.requests id (some ⟨failed, endedAt⟩) } := by
    simp [left, OpenSession.flushRequest]
  have hooked : back.Hooked := fun noted => by simp [forgotten] at noted
  have ends : executeCoreErasureForApprovedRequest providers id now endedAt s =
      some (.ok ⟨id, row.subjectUserId, .failed, [], now,
        some (DataSubjectRequest.shortCode e.reasonCode)⟩, left.flushRequest id failed endedAt) := by
    simp only [executeCoreErasureForApprovedRequest, executable.found, executable.accepted,
      executable.unfinished, if_false]
    exact Option.bind_eq_some_iff.mpr ⟨_, leaves, rfl⟩
  have again : Executable id ⟨failed, endedAt⟩ (left.flushRequest id failed endedAt) := by
    have failedIs : failed.executionStatus ≠ .ready ∧ failed.executionStatus ≠ .processing :=
      ⟨ExecutionStatus.noConfusion, ExecutionStatus.noConfusion⟩
    obtain ⟨type, status, -, subject⟩ := (refusal_eq_none_iff executable.unfinished).mp
      executable.accepted
    have accepted : RequestRow.refusal ⟨failed, endedAt⟩ = none :=
      (refusal_eq_none_iff failedIs.1).mpr ⟨type, status, failedIs.2, subject⟩
    exact ⟨by simp [written], accepted, failedIs.1, level ▸ executable.inTransaction, hooked⟩
  obtain ⟨n, transaction⟩ := Option.isSome_iff_exists.mp executable.inTransaction
  refine ⟨_, _, ends, ⟨rfl, rfl⟩, ⟨⟨failed, endedAt⟩, rfl, rfl, rfl, written, again⟩, _,
    hooked.step_commit (level.trans transaction), ?_⟩
  simp [deleted, forgotten]

def exampleRow : RequestRow where
  toDataSubjectRequest := { exampleRequest with requestType := .erase, executionStatus := .notStarted }
  updatedAt := 0

/-- Providers that write nothing; the one for the outbox raises. -/
def refusingProviders : CoreProviders Unit Unit :=
  let quiet : Provider Unit Unit := fun tables => (.ok [], tables, [])
  ⟨quiet, quiet, fun tables => (.error (.providerError "outbox_processing_active"), tables, []),
    quiet, quiet, quiet, quiet, quiet, quiet, quiet, quiet⟩

def exampleSession : OpenSession Unit where
  tables := ⟨fun id => if id = 1 then some exampleRow else none, ()⟩
  session := { LedgeredSession.fresh.session with savepoints := some 0 }

/-- The `UPDATE` that notes the failure sets `updated_at` as well. -/
theorem failure_sets_updatedAt : ¬FailsCleanly Unit Unit SameButExecution := by
  intro claim
  have executable : Executable 1 exampleRow exampleSession :=
    ⟨rfl, by decide, by decide, rfl, nofun⟩
  obtain ⟨result, s', ended, clean⟩ := claim refusingProviders 1 exampleRow 5 6 exampleSession
    (.providerError "outbox_processing_active") executable rfl
  obtain ⟨after, same, -, -, tables, -⟩ := clean.tables
  have updated : (executeCoreErasureForApprovedRequest refusingProviders 1 5 6 exampleSession).map
      (fun out => (out.2.tables.requests 1).map (·.updatedAt)) = some (some 6) := by decide
  rw [ended, Option.map_some, tables] at updated
  have now : after.updatedAt = 6 := by simpa using updated
  have before : after.updatedAt = 0 := congrArg RequestRow.updatedAt same
  cases now.symm.trans before

end SaasTemplate.Privacy
