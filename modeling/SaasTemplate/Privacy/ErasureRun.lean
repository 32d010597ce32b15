import SaasTemplate.Privacy.SubjectErasure

/-! # How an erasure ends

The providers read what the ones before them have written. None of them writes a column that a
later one selects by, so that together they make one change of the database.
-/

namespace SaasTemplate.Privacy.SubjectErasure

open SaasTemplate.Audit (AuditEvent AuditTargetSnapshot)
open SaasTemplate.Outbox (OutboxEvent)

variable {text : ErasureText} {times : ErasureTimes} {id S : Uuid} {db db' : ErasureDb}
variable {request : DataSubjectRequest}

/-! ## The providers -/

theorem bind_ok {ε α β : Type} {x : Except ε α} {f : α → Except ε β} {b : β} :
    (x >>= f) = .ok b ↔ ∃ a, x = .ok a ∧ f a = .ok b := by
  cases x with
  | error e =>
      constructor
      · intro h
        cases h
      · rintro ⟨a, is, -⟩
        cases is
  | ok a =>
      constructor
      · intro h
        exact ⟨a, rfl, h⟩
      · rintro ⟨a', is, h⟩
        cases is
        exact h

theorem raiseIf_ok {condition : Bool} {reasonCode : String} {u : Unit} :
    raiseIf condition reasonCode = .ok u ↔ condition = false := by
  cases condition <;> simp [raiseIf]

theorem validateRequest_ok {provider : String}
    (h : validateRequest provider request = .ok S) : request.subjectUserId = some S := by
  simp only [validateRequest, bind_ok] at h
  obtain ⟨-, -, -, -, h⟩ := h
  cases is : request.subjectUserId with
  | none =>
      rw [is] at h
      cases h
  | some subject =>
      rw [is] at h
      rw [Except.ok.inj h]

theorem findSubject_ok {reasonCode : String} {user : UserRow}
    (h : findSubject reasonCode S db = .ok user) : db.users.lookup S = some user := by
  unfold findSubject at h
  split at h
  · rename_i found
    rw [found, Except.ok.inj h]
  · cases h

theorem effectiveEmail_eq (text : ErasureText) (value : Option String) :
    effectiveEmail text (normaliseOptionalEmail text value) value =
      normaliseOptionalEmail text value := by
  cases value with
  | none => rfl
  | some value =>
      by_cases empty : text.normalised value = "" <;>
        simp [effectiveEmail, normaliseOptionalEmail, empty, text.normalised_idem]

/-- What the providers make of a database. -/
def erased (text : ErasureText) (times : ErasureTimes) (S : Uuid) (email : Option String)
    (db : ErasureDb) : ErasureDb where
  users := updateAt S (anonymiseProfile S) db.users
  invites := updateWhere (inviteSelected text S email) (flushedInvite text S email times) db.invites
  memberships := db.memberships
  outboxEvents :=
    updateWhere (outboxSelected text email (idsWhere (inviteSelected text S email) db.invites))
      (fun _ => flushedEvent times) db.outboxEvents
  auditEvents := updateWhere (AuditEvent.ofSubject (auditSnapshot text S email db))
    (fun _ => AuditEvent.minimised (auditSnapshot text S email db)) db.auditEvents
  platformStaff := updateWhere (staffSelected S) (fun _ => minimiseStaff S) db.platformStaff
  dataSubjectRequests := updateWhere (DataSubjectRequest.mentions S)
    (fun _ => DataSubjectRequest.minimised S) db.dataSubjectRequests
  exportArtifacts := updateWhere (ExportArtifact.mentions S) (fun _ => ExportArtifact.minimised S)
    db.exportArtifacts
  authorizations := updateWhere (fun row => row.subjectUserId == S)
    (fun _ row => { row with source := none }) db.authorizations
  noticeAcceptances := updateWhere (fun row => row.subjectUserId == S)
    (fun _ row => { row with source := none }) db.noticeAcceptances

theorem runCoreProviders_ok (subject : request.subjectUserId = some S)
    (h : runCoreProviders text times request S db = .ok db') :
    ∃ user, db.users.lookup S = some user ∧
      db' = erased text times S (normaliseOptionalEmail text user.email) db ∧
      ∀ row ∈ db.exportArtifacts, row.2.mentions S = true → row.2.status ≠ .processing := by
  simp only [runCoreProviders, bind_ok] at h
  obtain ⟨user, found, a, audited, b, scrubbed, c, invited, d, staffed, e, artifacts, f, governed,
    g, profiled, requests⟩ := h
  simp only [minimiseAuditEvents, bind_ok] at audited
  obtain ⟨S', valid, user', found', -, -, is⟩ := audited
  cases (subject.symm.trans (validateRequest_ok valid))
  cases (findSubject_ok found).symm.trans (findSubject_ok found')
  cases is
  simp only [scrubOutbox, bind_ok] at scrubbed
  obtain ⟨S', valid, user', found', -, -, is⟩ := scrubbed
  cases (subject.symm.trans (validateRequest_ok valid))
  cases (findSubject_ok found).symm.trans (findSubject_ok found')
  cases is
  simp only [anonymiseInvites, bind_ok] at invited
  obtain ⟨S', valid, user', found', is⟩ := invited
  cases (subject.symm.trans (validateRequest_ok valid))
  cases (findSubject_ok found).symm.trans (findSubject_ok found')
  cases is
  simp only [minimisePlatformStaff, bind_ok] at staffed
  obtain ⟨-, -, is⟩ := staffed
  cases is
  simp only [minimiseExportArtifacts, bind_ok, raiseIf_ok] at artifacts
  obtain ⟨-, -, -, idle, is⟩ := artifacts
  cases is
  simp only [minimiseGovernance, bind_ok] at governed
  obtain ⟨-, -, is⟩ := governed
  cases is
  simp only [anonymiseUserProfile, bind_ok] at profiled
  obtain ⟨S', valid, -, -, is⟩ := profiled
  cases (subject.symm.trans (validateRequest_ok valid))
  cases is
  simp only [minimiseDsrWorkflow, bind_ok] at requests
  obtain ⟨-, -, is⟩ := requests
  cases is
  refine ⟨user, findSubject_ok found, ?_, ?_⟩
  · simp only [effectiveEmail_eq]
    rfl
  · intro row member mentioned processing
    rw [List.any_eq_false] at idle
    exact idle row member (by simp [mentioned, processing])

/-! ## The orchestration -/

/-- The outcomes of an erasure, and the database each of them leaves. -/
inductive Ending (text : ErasureText) (times : ErasureTimes) (id : Uuid) (db : ErasureDb) :
    ErasureStatus → ErasureDb → Prop
  | alreadyCompleted : Ending text times id db .alreadyCompleted db
  | failed (reasonCode : String) : Ending text times id db (.failed reasonCode)
      ((db.changeRequest id (DataSubjectRequest.markedProcessing times.now)).changeRequest id
        (DataSubjectRequest.markedFailed reasonCode times.now))
  | completed {S : Uuid} (subject : db.subjectOf id = some S)
      (idle : ∀ row ∈ db.exportArtifacts, row.2.mentions S = true → row.2.status ≠ .processing) :
      Ending text times id db .completed
        ((erased text times S (db.emailOf text S)
          (db.changeRequest id (DataSubjectRequest.markedProcessing times.now))).changeRequest id
            (DataSubjectRequest.markedReady times.now))

theorem lockAndValidateRequest_ok (h : lockAndValidateRequest id db = .ok request) :
    db.dataSubjectRequests.lookup id = some request := by
  unfold lockAndValidateRequest at h
  split at h
  · cases h
  · rename_i row found
    simp only [bind_ok] at h
    obtain ⟨-, -, h⟩ := h
    split at h
    · rw [found, Except.ok.inj h]
    · simp only [bind_ok] at h
      obtain ⟨-, -, -, -, -, -, h⟩ := h
      rw [found, Except.ok.inj h]

theorem executeCoreErasure_ending {outcome : ErasureStatus}
    (h : executeCoreErasure text times id db = .ok (outcome, db')) :
    Ending text times id db outcome db' := by
  simp only [executeCoreErasure, bind_ok] at h
  obtain ⟨request, valid, h⟩ := h
  have found := lockAndValidateRequest_ok valid
  split at h
  · cases h
    exact .alreadyCompleted
  · cases linked : request.subjectUserId with
    | none =>
        rw [linked] at h
        cases h
    | some S =>
        rw [linked] at h
        dsimp only at h
        split at h
        · cases h
          exact .failed _
        · rename_i result runs
          cases h
          obtain ⟨user, known, rfl, idle⟩ := runCoreProviders_ok
            (show (request.markedProcessing times.now).subjectUserId = some S from linked) runs
          have subject : db.subjectOf id = some S := by
            simp [ErasureDb.subjectOf, found, linked]
          have known : db.users.lookup S = some user := known
          have address : normaliseOptionalEmail text user.email = db.emailOf text S := by
            simp [ErasureDb.emailOf, known]
          rw [address]
          exact .completed subject idle

end SaasTemplate.Privacy.SubjectErasure
