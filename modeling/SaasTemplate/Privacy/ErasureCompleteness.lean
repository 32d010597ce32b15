import Mathlib.Data.List.Forall2
import SaasTemplate.Outbox.PayloadSecrets
import SaasTemplate.Outbox.StateMachine
import SaasTemplate.Privacy.ErasureRun
import SaasTemplate.Privacy.Lifecycle

/-! # What an erasure leaves of its subject

After an erasure that completes, the rows of the subject have neither its identifiers nor its
secrets, and no row has a link to it that the providers clear. Its address may still be in the
profile of another user, and in free text of rows that are not linked to the subject.
-/

namespace SaasTemplate.Privacy.SubjectErasure

open SaasTemplate.Audit (AuditEvent AuditTargetSnapshot)
open SaasTemplate.Outbox (OutboxEvent)
open SaasTemplate.Outbox.Scrubbers (payloadEmail scrubOutboxEvent)
open SaasTemplate.Platform (PlatformStaff)
open SaasTemplate.Tenancy (Invite scrubbedInviteEmail scrubbedInviteTokenHash isScrubbedInvite)

variable {text : ErasureText} {times : ErasureTimes} {id S : Uuid} {db db' : ErasureDb}
variable {email : Option String}

/-! ## Updates -/

/-- The rows stay in place, and each is related to the one it becomes. -/
def Becomes {ρ : Type} (R : Uuid → ρ → ρ → Prop) (rows rows' : List (Uuid × ρ)) : Prop :=
  List.Forall₂ (fun before after => after.1 = before.1 ∧ R before.1 before.2 after.2) rows rows'

section
variable {ρ : Type} {R Q P : Uuid → ρ → ρ → Prop} {rows rows' rows'' : List (Uuid × ρ)}

theorem Becomes.refl (same : ∀ row value, R row value value) (rows : List (Uuid × ρ)) :
    Becomes R rows rows :=
  List.forall₂_same.mpr fun row _ => ⟨rfl, same row.1 row.2⟩

theorem Becomes.trans (first : Becomes R rows rows') (second : Becomes Q rows' rows'')
    (both : ∀ row x y z, R row x y → Q row y z → P row x z) : Becomes P rows rows'' := by
  induction first generalizing rows'' with
  | nil =>
      cases second
      exact .nil
  | cons head _ ih =>
      cases second with
      | cons next rest =>
          obtain ⟨here, related⟩ := head
          obtain ⟨there, changed⟩ := next
          rw [here] at there changed
          exact .cons ⟨there, both _ _ _ _ related changed⟩ (ih rest)

theorem becomes_updateWhere {selected : ρ → Bool} {change : Uuid → ρ → ρ}
    (chosen : ∀ row ∈ rows, selected row.2 = true → R row.1 row.2 (change row.1 row.2))
    (spared : ∀ row value, selected value = false → R row value value) :
    Becomes R rows (updateWhere selected change rows) := by
  apply List.forall₂_map_right_iff.mpr
  apply List.forall₂_same.mpr
  intro row member
  cases is : selected row.2 with
  | true => simpa using chosen row member is
  | false => simpa using spared row.1 row.2 is

theorem becomes_updateAt {id : Uuid} {change : ρ → ρ} (here : ∀ value, R id value (change value))
    (elsewhere : ∀ row value, row ≠ id → R row value value) :
    Becomes R rows (updateAt id change rows) := by
  apply List.forall₂_map_right_iff.mpr
  apply List.forall₂_same.mpr
  intro row _
  by_cases is : row.1 = id
  · simpa [is] using here row.2
  · simpa [is] using elsewhere row.1 row.2 is

theorem idsWhere_updateAt {selected : ρ → Bool} {change : ρ → ρ} (id : Uuid)
    (same : ∀ value, selected (change value) = selected value) :
    idsWhere selected (updateAt id change rows) = idsWhere selected rows := by
  induction rows with
  | nil => rfl
  | cons row rows ih =>
      simp only [idsWhere, updateAt, List.map_cons, List.filter_cons] at ih ⊢
      by_cases here : row.1 = id
      · simp only [here, if_true, same]
        split <;> simp [ih, here]
      · simp only [here, if_false]
        split <;> simp [ih]

end

theorem auditSnapshot_processing (id : Uuid) (times : ErasureTimes) (db : ErasureDb) :
    auditSnapshot text S email
        (db.changeRequest id (DataSubjectRequest.markedProcessing times.now)) =
      auditSnapshot text S email db := by
  have requests : idsWhere (DataSubjectRequest.mentions S)
      (updateAt id (DataSubjectRequest.markedProcessing times.now) db.dataSubjectRequests) =
        idsWhere (DataSubjectRequest.mentions S) db.dataSubjectRequests :=
    idsWhere_updateAt id fun _ => rfl
  simp only [auditSnapshot, ErasureDb.changeRequest, requests]

/-! ## Rows -/

theorem unlink_ne (link : Option Uuid) : DataSubjectRequest.unlink S link ≠ some S := by
  unfold DataSubjectRequest.unlink
  split
  · simp
  · assumption

theorem unlink_of_ne {link : Option Uuid} (other : link ≠ some S) :
    DataSubjectRequest.unlink S link = link := if_neg other

theorem payloadEmail_of_has {payload : Outbox.Payload} (missing : payload.has "email" = false) :
    payloadEmail payload = none := by
  cases payload with
  | other json => rfl
  | dict items =>
      simp only [Outbox.Payload.has, List.any_eq_false] at missing
      simp only [payloadEmail, Option.map_eq_none_iff, List.lookup_eq_none_iff]
      intro item member
      have other := missing item member
      simp only [beq_iff_eq] at other
      simpa using Ne.symm other

theorem scrubOutboxEvent_payload (event : OutboxEvent) :
    (scrubOutboxEvent event).payload =
      Outbox.Scrubbers.scrubbedPayload Outbox.Scrubbers.privacyErasureMarker event.payload := by
  unfold scrubOutboxEvent
  dsimp only
  split
  · rfl
  · split <;> rfl

theorem flushed_cases {ρ : Type} [DecidableEq ρ] (touch : ρ → ρ) (before after : ρ) :
    after = before ∧ flushed touch before after = before ∨
      flushed touch before after = touch after := by
  unfold flushed
  split
  · rename_i same
    exact .inl ⟨same, rfl⟩
  · exact .inr rfl

theorem has_flushedEvent {key : String} (sensitive : key ∈ Outbox.sensitiveInvitePayloadKeys)
    (event : OutboxEvent) : (flushedEvent times event).payload.has key = false := by
  have scrubbed : (scrubOutboxEvent event).payload.has key = false := by
    rw [scrubOutboxEvent_payload]
    exact Outbox.Scrubbers.has_scrubbedPayload sensitive
      (Outbox.Scrubbers.marker_ne sensitive).2.1 _
  unfold flushedEvent
  rcases flushed_cases _ event (scrubOutboxEvent event) with ⟨same, is⟩ | is
  · rw [same] at scrubbed
    rw [is]
    exact scrubbed
  · rw [is]
    exact scrubbed

theorem minimised_mentions (r : DataSubjectRequest) : (r.minimised S).mentions S = false := by
  simp [DataSubjectRequest.mentions, DataSubjectRequest.minimised, unlink_ne]

theorem artifact_minimised_mentions (a : ExportArtifact) : (a.minimised S).mentions S = false := by
  simp [ExportArtifact.mentions, ExportArtifact.isOwnedBy, ExportArtifact.minimised, unlink_ne]

theorem isSubjectTarget_congr {event event' : AuditEvent} (snapshot : AuditTargetSnapshot)
    (type : event'.targetType = event.targetType) (target : event'.targetId = event.targetId) :
    event'.isSubjectTarget snapshot = event.isSubjectTarget snapshot := by
  simp only [AuditEvent.isSubjectTarget, type, target]

theorem ofSubject_minimised (snapshot : AuditTargetSnapshot) (event : AuditEvent) :
    (event.minimised snapshot).ofSubject snapshot = false := by
  have actor : (event.minimised snapshot).actorUserId ≠ some snapshot.subjectUserId := by
    simp only [AuditEvent.minimised]
    split
    · simp
    · assumption
  have target : (event.minimised snapshot).isSubjectTarget snapshot = false := by
    cases linked : event.isSubjectTarget snapshot with
    | true =>
        have cleared : (event.minimised snapshot).targetId = none := if_pos linked
        simp only [AuditEvent.isSubjectTarget, cleared]
    | false =>
        have type : (event.minimised snapshot).targetType = event.targetType := rfl
        have kept : (event.minimised snapshot).targetId = event.targetId := by
          simp [AuditEvent.minimised, linked]
        exact (isSubjectTarget_congr snapshot type kept).trans linked
  simp [AuditEvent.ofSubject, actor, target]

theorem clearMetadata_loaded (column : Audit.JsonColumn) :
    (AuditEvent.clearMetadata column).loaded = none := by
  unfold AuditEvent.clearMetadata
  split
  · assumption
  · rfl

/-! ## What is left of the subject -/

/-- A request that does not mention the subject, nor has its notes if it was one of the subject. -/
def RequestForgotten (S : Uuid) (before after : DataSubjectRequest) : Prop :=
  after.mentions S = false ∧
    (before.requesterUserId = some S ∨ before.subjectUserId = some S → after.requesterNote = none ∧
      after.representativeRelationship = none ∧ after.representativeAuthorityNote = none ∧
      after.internalNote = none ∧ after.executionFailureDetail = none ∧
      after.idempotencyKeyHash = none ∧ after.idempotencyFingerprint = none)

theorem RequestForgotten.markedReady {before after : DataSubjectRequest}
    (h : RequestForgotten S before after) (now : Time) :
    RequestForgotten S before (after.markedReady now) := by
  obtain ⟨gone, notes⟩ := h
  refine ⟨gone, fun owned => ?_⟩
  obtain ⟨note, relationship, authority, internal, -, key, fingerprint⟩ := notes owned
  exact ⟨note, relationship, authority, internal, rfl, key, fingerprint⟩

/-- No row of the subject has its identifiers, and no other row has a link to it that the
    providers clear. -/
structure Forgotten (text : ErasureText) (S : Uuid) (email : Option String) (db db' : ErasureDb) :
    Prop where
  users : Becomes (fun row _ user => row = S → user.email = none ∧ user.firstName = none ∧
    user.lastName = none ∧ user.suspendedReason = none) db.users db'.users
  /-- An invite to the address is scrubbed. -/
  invites : Becomes (fun _ before after => after.revokedByUserId ≠ some S ∧
    ∀ invite, invite = before ∨ invite = after → sqlMatches text email invite = true →
      inviteEmailMatches text email invite = true → isScrubbedInvite after = true)
    db.invites db'.invites
  outboxEvents : Becomes (fun _ before after =>
    (outboxSelected text email (idsWhere (inviteSelected text S email) db.invites) before = true →
      ∀ key ∈ Outbox.sensitiveInvitePayloadKeys, after.payload.has key = false) ∧
    ∀ address, email = some address → ∀ value, payloadEmail after.payload = some value →
      text.sqlNormalised value ≠ address) db.outboxEvents db'.outboxEvents
  auditEvents : Becomes (fun _ before after =>
    after.ofSubject (auditSnapshot text S email db) = false ∧
    (before.ofSubject (auditSnapshot text S email db) = true → after.reason = none ∧
      after.metadataJson.loaded = none ∧ after.ipAddress = none ∧ after.userAgent = none))
    db.auditEvents db'.auditEvents
  platformStaff : Becomes (fun _ before after => after.createdByUserId ≠ some S ∧
    (staffSelected S before = true → after.suspendedReason = none))
    db.platformStaff db'.platformStaff
  dataSubjectRequests : Becomes (fun _ => RequestForgotten S) db.dataSubjectRequests
    db'.dataSubjectRequests
  /-- An artifact of the subject is in a status without download. -/
  exportArtifacts : Becomes (fun _ before after => after.mentions S = false ∧
    (before.isOwnedBy S = true →
      (after.status = .expired ∨ after.status = .failed ∨ after.status = .cancelled) ∧
        after.filename = none ∧ after.checksumSha256 = none))
    db.exportArtifacts db'.exportArtifacts
  authorizations : Becomes (fun _ _ after => after.subjectUserId = S → after.source = none)
    db.authorizations db'.authorizations
  noticeAcceptances : Becomes (fun _ _ after => after.subjectUserId = S → after.source = none)
    db.noticeAcceptances db'.noticeAcceptances

theorem anonymiseInvite_of_other {invite : Invite} (now : Time) (id : Uuid)
    (other : inviteEmailMatches text email invite = false) :
    anonymiseInvite text S email now id invite =
      { invite with revokedByUserId := DataSubjectRequest.unlink S invite.revokedByUserId } := by
  simp only [anonymiseInvite, other, Bool.false_and, Bool.false_eq_true, if_false]
  rfl

theorem isScrubbedInvite_anonymiseInvite {invite : Invite} (now : Time) (id : Uuid)
    (invitee : inviteEmailMatches text email invite = true) :
    isScrubbedInvite (anonymiseInvite text S email now id invite) = true := by
  dsimp only [anonymiseInvite]
  split
  · exact Tenancy.isScrubbedInvite_of_tombstones rfl rfl
  · rename_i kept
    simpa [invitee, isScrubbedInvite] using kept

/-- What the flush leaves is the anonymised invite, but for `updated_at`. -/
theorem flushedInvite_cases (text : ErasureText) (S : Uuid) (email : Option String)
    (times : ErasureTimes) (id : Uuid) (invite : Invite) :
    ∃ updatedAt, flushedInvite text S email times id invite =
      { anonymiseInvite text S email times.now id invite with updatedAt := updatedAt } := by
  unfold flushedInvite
  rcases flushed_cases _ invite (anonymiseInvite text S email times.now id invite)
    with ⟨same, is⟩ | is
  · exact ⟨invite.updatedAt, by rw [is, same]⟩
  · exact ⟨times.invitesFlushedAt, is⟩

/-- An invite to someone else loses the link to its revoker, or is not written at all. -/
theorem flushedInvite_of_other {invite : Invite} (id : Uuid)
    (other : inviteEmailMatches text email invite = false) :
    flushedInvite text S email times id invite = invite ∨ invite.revokedByUserId = some S ∧
      flushedInvite text S email times id invite =
        { invite with revokedByUserId := none, updatedAt := times.invitesFlushedAt } := by
  have is : anonymiseInvite text S email times.now id invite =
      { invite with revokedByUserId := DataSubjectRequest.unlink S invite.revokedByUserId } :=
    anonymiseInvite_of_other times.now id other
  by_cases revoked : invite.revokedByUserId = some S
  · right
    have cleared : DataSubjectRequest.unlink S invite.revokedByUserId = none := if_pos revoked
    have changed : { invite with revokedByUserId := none } ≠ invite := by
      intro same
      have link := congrArg Invite.revokedByUserId same
      rw [revoked] at link
      cases link
    rw [flushedInvite, is, cleared, flushed, if_neg changed]
    exact ⟨revoked, rfl⟩
  · left
    rw [flushedInvite, is, unlink_of_ne revoked, flushed, if_pos rfl]

theorem revoker_flushedInvite (id : Uuid) (invite : Invite) :
    (flushedInvite text S email times id invite).revokedByUserId ≠ some S := by
  obtain ⟨updatedAt, is⟩ := flushedInvite_cases text S email times id invite
  rw [is]
  dsimp only [anonymiseInvite]
  exact unlink_ne _

/-- A selected invite that is one to the address before or after is scrubbed. -/
theorem invitee_flushedInvite {before invite : Invite} (id : Uuid)
    (is : invite = before ∨ invite = flushedInvite text S email times id before)
    (invitee : inviteEmailMatches text email invite = true) :
    isScrubbedInvite (flushedInvite text S email times id before) = true := by
  obtain ⟨updatedAt, flush⟩ := flushedInvite_cases text S email times id before
  rw [flush] at is ⊢
  cases earlier : inviteEmailMatches text email before with
  | true =>
      have scrubbed : isScrubbedInvite (anonymiseInvite text S email times.now id before) = true :=
        isScrubbedInvite_anonymiseInvite times.now id earlier
      exact scrubbed
  | false =>
      rw [anonymiseInvite_of_other times.now id earlier] at is
      have same : inviteEmailMatches text email invite = false := by
        rcases is with rfl | rfl
        · exact earlier
        · exact earlier
      rw [same] at invitee
      cases invitee

theorem status_minimised {artifact : ExportArtifact} (owned : artifact.isOwnedBy S = true)
    (idle : artifact.status ≠ .processing) :
    (artifact.minimised S).status = .expired ∨ (artifact.minimised S).status = .failed ∨
      (artifact.minimised S).status = .cancelled := by
  simp only [ExportArtifact.minimised, owned, Bool.true_and]
  split
  · exact .inr (.inr rfl)
  · rename_i kept
    cases is : artifact.status <;> simp_all

theorem withoutSource_forgotten (rows : List (Uuid × SourcedRow)) :
    Becomes (fun _ _ after => after.subjectUserId = S → after.source = none) rows
      (updateWhere (fun row => row.subjectUserId == S) (fun _ row => { row with source := none })
        rows) := by
  apply becomes_updateWhere
  · intro _ _ _ _
    rfl
  · intro _ row spared here
    simp [here] at spared

theorem erased_forgotten (idle : ∀ row ∈ db.exportArtifacts, row.2.mentions S = true →
    row.2.status ≠ .processing) : Forgotten text S email db (erased text times S email db) where
  users := becomes_updateAt (fun _ _ => ⟨rfl, rfl, rfl, rfl⟩)
    fun _ _ other here => absurd here other
  invites := by
    dsimp only [erased]
    apply becomes_updateWhere
    · intro row _ _
      exact ⟨revoker_flushedInvite _ _, fun invite is _ => invitee_flushedInvite row.1 is⟩
    · intro _ invite spared
      simp only [inviteSelected, Bool.or_eq_false_iff, beq_eq_false_iff_ne] at spared
      refine ⟨spared.1, ?_⟩
      rintro _ (rfl | rfl) addressed
      all_goals
        rw [spared.2] at addressed
        cases addressed
  outboxEvents := by
    dsimp only [erased]
    apply becomes_updateWhere
    · intro row _ _
      refine ⟨fun _ key sensitive => has_flushedEvent sensitive row.2, ?_⟩
      intro address _ value found
      have missing : (flushedEvent times row.2).payload.has "email" = false :=
        has_flushedEvent (by decide) row.2
      rw [payloadEmail_of_has missing] at found
      cases found
    · intro _ event spared
      refine ⟨fun chosen => absurd (chosen.symm.trans spared) (by decide), ?_⟩
      rintro address rfl value found same
      simp [outboxSelected, found, same] at spared
  auditEvents := by
    dsimp only [erased]
    apply becomes_updateWhere
    · intro row _ _
      exact ⟨ofSubject_minimised _ _, fun _ => ⟨rfl, clearMetadata_loaded _, rfl, rfl⟩⟩
    · intro _ event spared
      exact ⟨spared, fun chosen => absurd (chosen.symm.trans spared) (by decide)⟩
  platformStaff := by
    dsimp only [erased]
    apply becomes_updateWhere
    · intro row _ _
      exact ⟨unlink_ne _, fun _ => rfl⟩
    · intro _ staff spared
      refine ⟨?_, fun chosen => absurd (chosen.symm.trans spared) (by decide)⟩
      simp only [staffSelected, Bool.or_eq_false_iff, beq_eq_false_iff_ne] at spared
      exact spared.2
  dataSubjectRequests := by
    dsimp only [erased]
    apply becomes_updateWhere
    · intro row _ _
      refine ⟨minimised_mentions row.2, fun owned => ?_⟩
      simp [DataSubjectRequest.minimised, owned]
    · intro _ request spared
      refine ⟨spared, fun owned => ?_⟩
      rcases owned with owned | owned
      all_goals simp [DataSubjectRequest.mentions, owned] at spared
  exportArtifacts := by
    dsimp only [erased]
    apply becomes_updateWhere
    · intro row member mentioned
      refine ⟨artifact_minimised_mentions row.2, fun owned => ?_⟩
      refine ⟨status_minimised owned (idle row member mentioned), ?_⟩
      simp [ExportArtifact.minimised, owned]
    · intro _ artifact spared
      refine ⟨spared, fun owned => ?_⟩
      simp [ExportArtifact.mentions, owned] at spared
  authorizations := withoutSource_forgotten _
  noticeAcceptances := withoutSource_forgotten _

/-- The addresses below are in lower case and without blanks. -/
def exampleErasureText : ErasureText := ⟨fun value => value, fun _ => rfl, fun value => value⟩

def exampleTimes : ErasureTimes := ⟨10, 11, 12⟩

def exampleUserRow (email : String) : UserRow :=
  { Tenancy.exampleUser email with email := some email, suspendedReason := none }

def exampleInviteRow (email : String) (revokedBy : Option Uuid) : Invite where
  email := email
  organisationId := 3
  role := .member
  status := if revokedBy.isSome then .revoked else .pending
  tokenHash := "digest"
  expiresAt := none
  revokedAt := none
  revokedByUserId := revokedBy
  updatedAt := 0

def exampleAuditRow (targetType : Audit.AuditTargetType) (reason : String) : AuditEvent where
  actorUserId := some 7
  category := .compliance
  action := "reviewed"
  targetType := targetType
  targetId := some 6
  reason := some reason
  metadataJson := .sqlNull
  ipAddress := none
  userAgent := none
  legalHoldUntil := none
  createdAt := 0

/-- Request 1 is for the erasure of user 100, who has revoked an invite to user 7 and reviewed
    request 6 of user 7. User 8 has the address of user 100. -/
def exampleErasureDb : ErasureDb where
  users := [(100, exampleUserRow "ann@example.com"), (7, exampleUserRow "bob@example.com"),
    (8, exampleUserRow "ann@example.com")]
  invites := [(2, exampleInviteRow "bob@example.com" (some 100)),
    (4, exampleInviteRow "ann@example.com" none)]
  memberships := []
  outboxEvents := [(3, { Outbox.exampleEvent with
    eventType := "invite.created"
    aggregateId := some 2
    payload := .dict [("email", .text "bob@example.com"),
      ("encrypted_raw_token", .text "token")] })]
  auditEvents := [(5, exampleAuditRow .dataSubjectRequest "identity checked"),
    (9, exampleAuditRow .organisation "asked for by ann@example.com")]
  platformStaff := []
  dataSubjectRequests := [
    (1, { exampleRequest with requestType := .erase, executionStatus := .notStarted }),
    (6, { exampleRequest with
      requesterUserId := some 7, subjectUserId := some 7, reviewerUserId := some 100 })]
  exportArtifacts := [(10, exampleArtifact .ready)]
  authorizations := []
  noticeAcceptances := []

/-- The changes of the executed request around the providers do not matter. -/
theorem Forgotten.of_processing
    (forgotten : Forgotten text S email
      (db.changeRequest id (DataSubjectRequest.markedProcessing times.now)) db') :
    Forgotten text S email db
      (db'.changeRequest id (DataSubjectRequest.markedReady times.now)) := by
  have started : Becomes (fun _ before after => after.requesterUserId = before.requesterUserId ∧
      after.subjectUserId = before.subjectUserId) db.dataSubjectRequests
      (updateAt id (DataSubjectRequest.markedProcessing times.now) db.dataSubjectRequests) :=
    becomes_updateAt (fun _ => ⟨rfl, rfl⟩) fun _ _ _ => ⟨rfl, rfl⟩
  have ended : Becomes (fun _ before after => after = before ∨ after = before.markedReady times.now)
      db'.dataSubjectRequests
      (updateAt id (DataSubjectRequest.markedReady times.now) db'.dataSubjectRequests) :=
    becomes_updateAt (fun _ => .inr rfl) fun _ _ _ => .inl rfl
  have requests : Becomes (fun _ => RequestForgotten S) db.dataSubjectRequests
      db'.dataSubjectRequests := by
    refine started.trans forgotten.dataSubjectRequests fun _ before _ after same gone => ?_
    refine ⟨gone.1, fun owned => gone.2 ?_⟩
    rw [same.1, same.2]
    exact owned
  have events := forgotten.auditEvents
  rw [auditSnapshot_processing] at events
  refine ⟨forgotten.users, forgotten.invites, forgotten.outboxEvents, events,
    forgotten.platformStaff, ?_, forgotten.exportArtifacts, forgotten.authorizations,
    forgotten.noticeAcceptances⟩
  refine requests.trans ended fun _ before _ after gone is => ?_
  rcases is with rfl | rfl
  · exact gone
  · exact gone.markedReady times.now

/-- After an erasure that completes, nothing of its subject is left. -/
theorem erasure_complete (done : executeCoreErasure text times id db = .ok (.completed, db'))
    (subject : db.subjectOf id = some S) : Forgotten text S (db.emailOf text S) db db' := by
  cases executeCoreErasure_ending done with
  | completed linked idle =>
      cases subject.symm.trans linked
      apply Forgotten.of_processing
      apply erased_forgotten
      exact idle

theorem exampleErasure_completes :
    ∃ db', executeCoreErasure exampleErasureText exampleTimes 1 exampleErasureDb =
      .ok (.completed, db') :=
  ⟨_, rfl⟩

theorem erasure_complete_example :
    ∃ db', executeCoreErasure exampleErasureText exampleTimes 1 exampleErasureDb =
        .ok (.completed, db') ∧
      Forgotten exampleErasureText 100 (exampleErasureDb.emailOf exampleErasureText 100)
        exampleErasureDb db' := by
  obtain ⟨db', done⟩ := exampleErasure_completes
  exact ⟨db', done, erasure_complete done rfl⟩

/-- The address stays in the row of another user, and in the reason of an audit event that has no
    link to the subject. -/
theorem address_stays_elsewhere :
    exampleErasureDb.emailOf exampleErasureText 100 = some "ann@example.com" ∧
      ∃ db', executeCoreErasure exampleErasureText exampleTimes 1 exampleErasureDb =
          .ok (.completed, db') ∧
        (db'.users.lookup 8).bind (fun user => user.email) = some "ann@example.com" ∧
        (db'.auditEvents.lookup 9).bind AuditEvent.reason = some "asked for by ann@example.com" :=
  ⟨rfl, _, rfl, rfl, rfl⟩

end SaasTemplate.Privacy.SubjectErasure
