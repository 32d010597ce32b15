import SaasTemplate.Privacy.ErasureCompleteness

/-! # What an erasure leaves of other people

Rows of other people lose their links to the subject and nothing else, unless a provider takes
them for rows of the subject: the event of an invite that the subject has revoked is scrubbed,
and an audit event that the subject has caused or that is about a row with a link to it is
minimised.
-/

namespace SaasTemplate.Privacy.SubjectErasure

open SaasTemplate.Audit (AuditEvent AuditTargetSnapshot)
open SaasTemplate.Outbox (OutboxEvent)
open SaasTemplate.Outbox.Scrubbers (payloadEmail)
open SaasTemplate.Platform (PlatformStaff)

variable {text : ErasureText} {times : ErasureTimes} {id S : Uuid} {db db' : ErasureDb}
variable {email : Option String}

/-- Rows of other people keep all but their links to the subject `S`. The exceptions are the rows
    that the providers take for rows of the subject, and the reason in the staff records that the
    subject created. -/
structure OthersKept (text : ErasureText) (times : ErasureTimes) (S id : Uuid)
    (email : Option String) (db db' : ErasureDb) : Prop where
  users : Becomes (fun row before after => row ≠ S → after = before) db.users db'.users
  memberships : db'.memberships = db.memberships
  invites : Becomes (fun _ before after => inviteEmailMatches text email before = false →
    after = before ∨ before.revokedByUserId = some S ∧
      after = { before with revokedByUserId := none, updatedAt := times.invitesFlushedAt })
    db.invites db'.invites
  outboxEvents : Becomes (fun _ before after => after = before ∨
    outboxSelected text email (idsWhere (inviteSelected text S email) db.invites) before = true ∧
      after = flushedEvent times before) db.outboxEvents db'.outboxEvents
  auditEvents : Becomes (fun _ before after => after = before ∨
    before.ofSubject (auditSnapshot text S email db) = true ∧
      after = before.minimised (auditSnapshot text S email db)) db.auditEvents db'.auditEvents
  platformStaff : Becomes (fun _ before after => before.userId ≠ S → after = before ∨
    before.createdByUserId = some S ∧
      after = { before with createdByUserId := none, suspendedReason := none })
    db.platformStaff db'.platformStaff
  dataSubjectRequests : Becomes (fun row before after => row ≠ id →
    before.requesterUserId ≠ some S → before.subjectUserId ≠ some S → after = before ∨ after =
      { before with
        reviewerUserId := DataSubjectRequest.unlink S before.reviewerUserId
        representativeVerifiedByUserId :=
          DataSubjectRequest.unlink S before.representativeVerifiedByUserId })
    db.dataSubjectRequests db'.dataSubjectRequests
  exportArtifacts : Becomes (fun _ before after => before.isOwnedBy S = false →
    after = before ∨ after =
      { before with
        requestedByUserId := DataSubjectRequest.unlink S before.requestedByUserId
        generatedByUserId := DataSubjectRequest.unlink S before.generatedByUserId })
    db.exportArtifacts db'.exportArtifacts
  authorizations : Becomes (fun _ before after => before.subjectUserId ≠ S → after = before)
    db.authorizations db'.authorizations
  noticeAcceptances : Becomes (fun _ before after => before.subjectUserId ≠ S → after = before)
    db.noticeAcceptances db'.noticeAcceptances

theorem OthersKept.refl (text : ErasureText) (times : ErasureTimes) (S id : Uuid)
    (email : Option String) (db : ErasureDb) : OthersKept text times S id email db db where
  users := .refl (fun _ _ _ => rfl) _
  memberships := rfl
  invites := .refl (fun _ _ _ => .inl rfl) _
  outboxEvents := .refl (fun _ _ => .inl rfl) _
  auditEvents := .refl (fun _ _ => .inl rfl) _
  platformStaff := .refl (fun _ _ _ => .inl rfl) _
  dataSubjectRequests := .refl (fun _ _ _ _ _ => .inl rfl) _
  exportArtifacts := .refl (fun _ _ _ => .inl rfl) _
  authorizations := .refl (fun _ _ _ => rfl) _
  noticeAcceptances := .refl (fun _ _ _ => rfl) _

theorem minimised_of_other {request : DataSubjectRequest}
    (requester : request.requesterUserId ≠ some S) (subject : request.subjectUserId ≠ some S) :
    request.minimised S =
      { request with
        reviewerUserId := DataSubjectRequest.unlink S request.reviewerUserId
        representativeVerifiedByUserId :=
          DataSubjectRequest.unlink S request.representativeVerifiedByUserId } := by
  simp [DataSubjectRequest.minimised, requester, subject, unlink_of_ne]

theorem artifact_minimised_of_other {artifact : ExportArtifact}
    (other : artifact.isOwnedBy S = false) :
    artifact.minimised S =
      { artifact with
        requestedByUserId := DataSubjectRequest.unlink S artifact.requestedByUserId
        generatedByUserId := DataSubjectRequest.unlink S artifact.generatedByUserId } := by
  have links := other
  simp only [ExportArtifact.isOwnedBy, Bool.or_eq_false_iff, beq_eq_false_iff_ne] at links
  simp [ExportArtifact.minimised, other, unlink_of_ne links.1, unlink_of_ne links.2]

theorem minimiseStaff_of_other {staff : PlatformStaff} (selected : staffSelected S staff = true)
    (other : staff.userId ≠ S) :
    staff.createdByUserId = some S ∧
      minimiseStaff S staff = { staff with createdByUserId := none, suspendedReason := none } := by
  have created : staff.createdByUserId = some S := by
    simpa [staffSelected, other] using selected
  exact ⟨created, by simp [minimiseStaff, created]⟩

theorem withoutSource_others (rows : List (Uuid × SourcedRow)) :
    Becomes (fun _ before after => before.subjectUserId ≠ S → after = before) rows
      (updateWhere (fun row => row.subjectUserId == S) (fun _ row => { row with source := none })
        rows) := by
  apply becomes_updateWhere
  · intro _ _ selected other
    exact absurd (beq_iff_eq.mp selected) other
  · intro _ _ _ _
    rfl

theorem erased_othersKept (text : ErasureText) (times : ErasureTimes) (S id : Uuid)
    (email : Option String) (db : ErasureDb) :
    OthersKept text times S id email db (erased text times S email db) where
  users := becomes_updateAt (fun _ other => absurd rfl other) fun _ _ _ _ => rfl
  memberships := rfl
  invites := by
    apply becomes_updateWhere
    · intro row _ _ other
      exact flushedInvite_of_other row.1 other
    · intro _ _ _ _
      exact .inl rfl
  outboxEvents := by
    dsimp only [erased]
    apply becomes_updateWhere
    · intro _ _ selected
      exact .inr ⟨selected, rfl⟩
    · intro _ _ _
      exact .inl rfl
  auditEvents := by
    dsimp only [erased]
    apply becomes_updateWhere
    · intro _ _ selected
      exact .inr ⟨selected, rfl⟩
    · intro _ _ _
      exact .inl rfl
  platformStaff := by
    dsimp only [erased]
    apply becomes_updateWhere
    · intro _ _ selected other
      exact .inr (minimiseStaff_of_other selected other)
    · intro _ _ _ _
      exact .inl rfl
  dataSubjectRequests := by
    dsimp only [erased]
    apply becomes_updateWhere
    · intro _ _ _ _ requester subject
      exact .inr (minimised_of_other requester subject)
    · intro _ _ _ _ _ _
      exact .inl rfl
  exportArtifacts := by
    dsimp only [erased]
    apply becomes_updateWhere
    · intro _ _ _ other
      exact .inr (artifact_minimised_of_other other)
    · intro _ _ _ _
      exact .inl rfl
  authorizations := withoutSource_others _
  noticeAcceptances := withoutSource_others _

theorem changeRequest_others (id : Uuid) (change : DataSubjectRequest → DataSubjectRequest)
    (db : ErasureDb) :
    Becomes (fun row before after => row ≠ id → after = before) db.dataSubjectRequests
      (db.changeRequest id change).dataSubjectRequests :=
  becomes_updateAt (fun _ other => absurd rfl other) fun _ _ _ _ => rfl

/-- A change of the executed request concerns nobody else. -/
theorem OthersKept.changeRequest (kept : OthersKept text times S id email db db')
    (change : DataSubjectRequest → DataSubjectRequest) :
    OthersKept text times S id email db (db'.changeRequest id change) := by
  have changed := changeRequest_others id change db'
  refine { kept with dataSubjectRequests := kept.dataSubjectRequests.trans changed ?_ }
  intro row before during after related same other
  rw [same other]
  exact related other

theorem OthersKept.of_processing
    (kept : OthersKept text times S id email
      (db.changeRequest id (DataSubjectRequest.markedProcessing times.now)) db') :
    OthersKept text times S id email db db' := by
  have started := changeRequest_others id (DataSubjectRequest.markedProcessing times.now) db
  have events := kept.auditEvents
  rw [auditSnapshot_processing] at events
  refine ⟨kept.users, kept.memberships, kept.invites, kept.outboxEvents, events,
    kept.platformStaff, ?_, kept.exportArtifacts, kept.authorizations, kept.noticeAcceptances⟩
  refine started.trans kept.dataSubjectRequests ?_
  intro row before during after same related other
  rw [same other] at related
  exact related other

end SaasTemplate.Privacy.SubjectErasure
