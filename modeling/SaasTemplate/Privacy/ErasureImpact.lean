import Mathlib.Algebra.GroupWithZero.Nat
import Mathlib.Data.Finset.Card
import SaasTemplate.Privacy.ErasureRepeats

/-! # The impact preview of an erasure

`build_erasure_impact_preview` counts with its own queries what each provider would select. The
counts are those of the providers: for every provider the number of rows that it selects on the
same database, of which it reports no more as affected.
-/

namespace SaasTemplate.Privacy.SubjectErasure

open SaasTemplate.Audit (AuditEvent AuditTargetType)
open SaasTemplate.Outbox (OutboxEvent)
open SaasTemplate.Outbox.Scrubbers (payloadEmail scrubOutboxEvent)
open SaasTemplate.Platform (PlatformStaff)
open SaasTemplate.Tenancy (Invite Membership)

/-! ## The database -/

/-- The database with the tables from which an erasure only reads, and with its primary keys. Of
a consent record only the subject is looked at, of an organisation only its id. -/
structure ImpactDb extends ErasureDb where
  organisations : List Uuid
  consentRecords : List (Uuid × Uuid)
  invites_nodup : (invites.map Prod.fst).Nodup
  memberships_nodup : (memberships.map Prod.fst).Nodup
  outboxEvents_nodup : (outboxEvents.map Prod.fst).Nodup
  auditEvents_nodup : (auditEvents.map Prod.fst).Nodup
  platformStaff_nodup : (platformStaff.map Prod.fst).Nodup
  dataSubjectRequests_nodup : (dataSubjectRequests.map Prod.fst).Nodup
  exportArtifacts_nodup : (exportArtifacts.map Prod.fst).Nodup
  authorizations_nodup : (authorizations.map Prod.fst).Nodup
  noticeAcceptances_nodup : (noticeAcceptances.map Prod.fst).Nodup
  consentRecords_nodup : (consentRecords.map Prod.fst).Nodup

inductive ErasureProviderKey where
  | users | memberships | organisations | invites | outbox | audit | platformStaff | dsr
  | exportArtifacts | authorizations | consents | notices
  deriving DecidableEq

def ErasureProviderKey.value : ErasureProviderKey → String
  | .users => "users.anonymise_profile"
  | .memberships => "memberships.minimise_subject_link"
  | .organisations => "organisations.review_subject_references"
  | .invites => "invites.anonymise_or_purge_subject_references"
  | .outbox => "outbox.purge_or_scrub_payload"
  | .audit => "audit.minimise_subject_actor_or_target_identifiers"
  | .platformStaff => "platform_staff.minimise_subject_or_creator_links"
  | .dsr => "dsr.minimise_workflow_identifiers"
  | .exportArtifacts => "export_artifacts.delete_object_minimise_subject_or_actor_metadata"
  | .authorizations => "privacy_governance.minimise_authorizations"
  | .consents => "privacy_governance.minimise_consent_records"
  | .notices => "privacy_governance.minimise_notice_acceptances"

/-- The keys of `PRIVACY_DATA_INVENTORY`, in its order. -/
def inventoryErasureProviderKeys : List ErasureProviderKey :=
  [.users, .memberships, .organisations, .invites, .outbox, .audit, .platformStaff, .dsr,
    .exportArtifacts, .authorizations, .consents, .notices]

/-- `build_erasure_provider_plan`, of the keys. -/
def buildErasureProviderPlan : List ErasureProviderKey → List ErasureProviderKey →
    Except String (List ErasureProviderKey)
  | _, [] => .ok []
  | seen, key :: rest => do
      raiseIf (seen.contains key) s!"Duplicate erasure provider key: {key.value}"
      let entries ← buildErasureProviderPlan (key :: seen) rest
      .ok (key :: entries)

/-! ## Queries -/

section Queries

variable {ρ : Type}

/-- `or_(*conditions)`. -/
def anyOf (conditions : List (ρ → Bool)) (row : ρ) : Bool := conditions.any fun p => p row

/-- `select(func.count()).where(p)`. -/
def countWhere (p : ρ → Bool) (rows : List (Uuid × ρ)) : Nat := (idsWhere p rows).length

/-- `func.count(distinct(id))`. -/
def countDistinct (ids : List Uuid) : Nat := ids.dedup.length

/-- `organisations JOIN memberships ON organisation_id = organisations.id`. -/
def joinMemberships (db : ImpactDb) : List (Uuid × Membership) :=
  db.organisations.flatMap fun organisation =>
    (db.memberships.filter fun row => row.2.organisationId == organisation).map fun row =>
      (organisation, row.2)

end Queries

/-! ## The preview -/

inductive ErasureImpactScope where
  | scoped
  | notScopedYet
  deriving DecidableEq

/-- An entry with its count; what comes from the inventory alone is left out. -/
structure ErasureImpactEntry where
  providerKey : ErasureProviderKey
  impactScope : ErasureImpactScope
  estimatedRows : Option Nat
  deriving DecidableEq

structure ErasureImpactPreview where
  subjectUserId : Uuid
  entries : List ErasureImpactEntry

/-- `total_scoped_rows`. -/
def ErasureImpactPreview.totalScopedRows (preview : ErasureImpactPreview) : Nat :=
  (preview.entries.map fun entry => entry.estimatedRows.getD 0).sum

namespace ImpactPreview

variable (text : ErasureText) (S : Uuid) (email : Option String) (db : ImpactDb)

def subjectInviteConditions : List (Invite → Bool) :=
  (fun invite => invite.revokedByUserId == some S) ::
    email.toList.map fun email invite => text.sqlNormalised invite.email == email

def subjectInviteIds : List Uuid :=
  idsWhere (anyOf (subjectInviteConditions text S email)) db.invites

def countSubjectOutboxEvents (inviteIds : List Uuid) : Nat :=
  let conditions : List (OutboxEvent → Bool) :=
    (if inviteIds.isEmpty then [] else [fun event => event.aggregateId.any inviteIds.contains]) ++
      email.toList.map fun email event =>
        (payloadEmail event.payload).any fun value => text.sqlNormalised value == email
  if conditions.isEmpty then 0
  else countDistinct (idsWhere (anyOf conditions) db.outboxEvents)

def subjectDsrConditions : List (DataSubjectRequest → Bool) :=
  [fun r => r.subjectUserId == some S, fun r => r.requesterUserId == some S,
    fun r => r.reviewerUserId == some S, fun r => r.representativeVerifiedByUserId == some S]

def subjectExportArtifactConditions : List (ExportArtifact → Bool) :=
  [fun a => a.subjectUserId == some S, fun a => a.requesterUserId == some S,
    fun a => a.requestedByUserId == some S, fun a => a.generatedByUserId == some S]

def subjectPlatformStaffConditions : List (PlatformStaff → Bool) :=
  [fun staff => staff.userId == S, fun staff => staff.createdByUserId == some S]

/-- `_append_audit_target_condition`: what it appends. -/
def auditTargetCondition (targetType : AuditTargetType) (targetIds : List Uuid) :
    List (AuditEvent → Bool) :=
  if targetIds.isEmpty then []
  else [fun e => e.targetType == targetType && e.targetId.any targetIds.contains]

def countSubjectAuditEvents (inviteIds : List Uuid) : Nat :=
  let membershipIds := idsWhere (fun m => m.userId == S) db.memberships
  let dsrIds := idsWhere (anyOf (subjectDsrConditions S)) db.dataSubjectRequests
  let exportArtifactIds := idsWhere (anyOf (subjectExportArtifactConditions S)) db.exportArtifacts
  let platformStaffIds := idsWhere (anyOf (subjectPlatformStaffConditions S)) db.platformStaff
  let conditions : List (AuditEvent → Bool) :=
    [fun e => e.actorUserId == some S,
      fun e => [AuditTargetType.user, .privacyConsent, .privacyNotice].contains e.targetType &&
        e.targetId == some S] ++
    auditTargetCondition .invite inviteIds ++
    auditTargetCondition .membership membershipIds ++
    auditTargetCondition .dataSubjectRequest dsrIds ++
    auditTargetCondition .exportArtifact exportArtifactIds ++
    auditTargetCondition .platformStaff platformStaffIds
  countDistinct (idsWhere (anyOf conditions) db.auditEvents)

/-- `_count_scoped_rows`, by the key. -/
def countScopedRows : ErasureProviderKey → Nat
  | .users => 1
  | .invites => (subjectInviteIds text S email db).length
  | .outbox => countSubjectOutboxEvents text email db (subjectInviteIds text S email db)
  | .audit => countSubjectAuditEvents S db (subjectInviteIds text S email db)
  | .memberships => countWhere (fun m => m.userId == S) db.memberships
  | .organisations =>
      countDistinct (((joinMemberships db).filter fun row => row.2.userId == S).map Prod.fst)
  | .platformStaff => countWhere (anyOf (subjectPlatformStaffConditions S)) db.platformStaff
  | .dsr => countWhere (anyOf (subjectDsrConditions S)) db.dataSubjectRequests
  | .exportArtifacts => countWhere (anyOf (subjectExportArtifactConditions S)) db.exportArtifacts
  | .authorizations => countWhere (fun row => row.subjectUserId == S) db.authorizations
  | .consents => countWhere (fun subject => subject == S) db.consentRecords
  | .notices => countWhere (fun row => row.subjectUserId == S) db.noticeAcceptances

/-- `_normalised_subject_email`. -/
def normalisedSubjectEmail (subject : UserRow) : Option String :=
  match subject.email with
  | none => none
  | some email => if text.normalised email = "" then none else some (text.normalised email)

/-- `_validate_request_and_get_subject`. -/
def validateRequestAndGetSubject (request : DataSubjectRequest) :
    Except String (Uuid × UserRow) := do
  raiseIf (request.requestType ≠ .erase) "erasure_preview_requires_erase_request"
  raiseIf (request.status ≠ .approved) "erasure_preview_requires_approved_request"
  match request.subjectUserId with
  | none => .error "erasure_preview_requires_subject_user"
  | some S => do
      let subject ← findSubject "erasure_preview_subject_not_found" S db.toErasureDb
      .ok (S, subject)

/-- `_impact_entry`; the scoped keys are those of the inventory. -/
def impactEntry (rowCounts : ErasureProviderKey → Nat) (key : ErasureProviderKey) :
    ErasureImpactEntry :=
  if inventoryErasureProviderKeys.contains key then ⟨key, .scoped, some (rowCounts key)⟩
  else ⟨key, .notScopedYet, none⟩

end ImpactPreview

open ImpactPreview in
/-- `build_erasure_impact_preview`. -/
def buildErasureImpactPreview (text : ErasureText) (request : DataSubjectRequest) (db : ImpactDb) :
    Except String ErasureImpactPreview := do
  let (S, subject) ← validateRequestAndGetSubject db request
  let plan ← buildErasureProviderPlan [] inventoryErasureProviderKeys
  let rowCounts := countScopedRows text S (normalisedSubjectEmail text subject) db
  .ok ⟨S, plan.map (impactEntry rowCounts)⟩

/-! ## What the providers select -/

/-- The provider that reports under a key, and the place of its report. -/
def ErasureProviderKey.provider : ErasureProviderKey → ErasureProvider × Nat
  | .users => (.userProfile, 0)
  | .memberships => (.memberships, 0)
  | .organisations => (.organisations, 0)
  | .invites => (.invites, 0)
  | .outbox => (.outboxEvents, 0)
  | .audit => (.auditEvents, 0)
  | .platformStaff => (.platformStaff, 0)
  | .dsr => (.dsrWorkflow, 0)
  | .exportArtifacts => (.exportArtifacts, 0)
  | .authorizations => (.privacyGovernance, 0)
  | .consents => (.privacyGovernance, 1)
  | .notices => (.privacyGovernance, 2)

section Selected

variable (text : ErasureText) (args : ProviderArguments) (db : ImpactDb)

/-- The rows that the query of a provider returns, by their ids; the join of the organisations
returns one id for each membership. -/
def ErasureProviderKey.selected (key : ErasureProviderKey) : List Uuid :=
  let S := args.subjectUserId
  let current := (db.users.lookup S).bind fun user => user.email
  let email := effectiveEmail text args.subjectEmail current
  match key with
  | .users => (db.users.filter fun row => row.1 == S).map Prod.fst
  | .memberships => idsWhere (fun m => m.userId == S) db.memberships
  | .organisations => ((joinMemberships db).filter fun row => row.2.userId == S).map Prod.fst
  | .invites => idsWhere (inviteSelected text S email) db.invites
  | .outbox => idsWhere (outboxSelected text email args.inviteIds) db.outboxEvents
  | .audit =>
      idsWhere (AuditEvent.ofSubject (auditSnapshot text S (normaliseOptionalEmail text current)
        db.toErasureDb)) db.auditEvents
  | .platformStaff => idsWhere (staffSelected S) db.platformStaff
  | .dsr => idsWhere (DataSubjectRequest.mentions S) db.dataSubjectRequests
  | .exportArtifacts => idsWhere (ExportArtifact.mentions S) db.exportArtifacts
  | .authorizations => idsWhere (fun row => row.subjectUserId == S) db.authorizations
  | .consents => idsWhere (fun subject => subject == S) db.consentRecords
  | .notices => idsWhere (fun row => row.subjectUserId == S) db.noticeAcceptances

/-- The arguments with which the orchestration runs the providers on a request of subject `S`. -/
def snapshotArguments (id S : Uuid) : ProviderArguments where
  requestId := id
  subjectUserId := S
  subjectEmail := db.emailOf text S
  inviteIds := idsWhere (inviteSelected text S (db.emailOf text S)) db.invites

end Selected

/-! ## Conditions -/

section Conditions

open ImpactPreview

variable {text : ErasureText} {S : Uuid} {email : Option String} {db : ImpactDb}

theorem normalisedSubjectEmail_eq (subject : UserRow) :
    normalisedSubjectEmail text subject = normaliseOptionalEmail text subject.email := by
  cases email : subject.email <;> simp [normalisedSubjectEmail, normaliseOptionalEmail, email]

theorem anyOf_invites :
    anyOf (subjectInviteConditions text S email) = inviteSelected text S email := by
  funext invite
  cases email with
  | none => simp [anyOf, subjectInviteConditions, inviteSelected, sqlMatches]
  | some email => simp [anyOf, subjectInviteConditions, inviteSelected, sqlMatches]

theorem anyOf_staff : anyOf (subjectPlatformStaffConditions S) = staffSelected S := by
  funext staff
  simp [anyOf, subjectPlatformStaffConditions, staffSelected]

theorem anyOf_dsr : anyOf (subjectDsrConditions S) = DataSubjectRequest.mentions S := by
  funext request
  simp [anyOf, subjectDsrConditions, DataSubjectRequest.mentions, Bool.or_assoc]

theorem anyOf_exportArtifacts :
    anyOf (subjectExportArtifactConditions S) = ExportArtifact.mentions S := by
  funext artifact
  simp [anyOf, subjectExportArtifactConditions, ExportArtifact.mentions, ExportArtifact.isOwnedBy,
    Bool.or_assoc]

/-- An empty list of ids adds no condition, and would match nothing. -/
theorem any_auditTargetCondition (targetType : AuditTargetType) (ids : List Uuid) (e : AuditEvent) :
    ((auditTargetCondition targetType ids).any fun p => p e) =
      (e.targetType == targetType && e.targetId.any ids.contains) := by
  cases ids with
  | nil => cases e.targetId <;> simp [auditTargetCondition]
  | cons id ids => simp [auditTargetCondition]

theorem countSubjectAuditEvents_eq (inviteIds : List Uuid)
    (same : inviteIds = idsWhere (inviteSelected text S email) db.invites) :
    countSubjectAuditEvents S db inviteIds =
      (idsWhere (AuditEvent.ofSubject (auditSnapshot text S email db.toErasureDb))
        db.auditEvents).dedup.length := by
  subst same
  simp only [countSubjectAuditEvents, countDistinct, anyOf_dsr, anyOf_exportArtifacts, anyOf_staff]
  congr 3
  funext e
  simp only [anyOf, List.any_append, List.any_cons, List.any_nil, Bool.or_false,
    any_auditTargetCondition, AuditEvent.ofSubject, AuditEvent.isSubjectTarget, auditSnapshot]
  rw [Bool.or_assoc, Bool.or_assoc, Bool.or_assoc, Bool.or_assoc, Bool.or_assoc]
  congr 1
  cases target : e.targetId with
  | none => simp
  | some id => cases kind : e.targetType <;>
      simp [AuditTargetType.direct, Audit.AuditTargetSnapshot.targetIds, beq_eq_decide]

theorem any_contains_nil (id : Option Uuid) : id.any ([] : List Uuid).contains = false := by
  cases id <;> rfl

/-- Without any condition the preview does not ask, and the provider would select nothing. -/
theorem countSubjectOutboxEvents_eq (inviteIds : List Uuid) :
    countSubjectOutboxEvents text email db inviteIds =
      (idsWhere (outboxSelected text email inviteIds) db.outboxEvents).dedup.length := by
  cases inviteIds with
  | nil =>
      cases email with
      | none =>
          have nothing : outboxSelected text none [] = fun _ => false := by
            funext event
            simp [outboxSelected, any_contains_nil]
          simp [countSubjectOutboxEvents, nothing, idsWhere]
      | some email =>
          have same : anyOf [fun event : OutboxEvent =>
              (payloadEmail event.payload).any fun value => text.sqlNormalised value == email] =
                outboxSelected text (some email) [] := by
            funext event
            simp [anyOf, outboxSelected, any_contains_nil]
          simp [countSubjectOutboxEvents, countDistinct, same]
  | cons id ids =>
      have same : anyOf ([fun event : OutboxEvent => event.aggregateId.any (id :: ids).contains] ++
          email.toList.map fun email event => (payloadEmail event.payload).any fun value =>
            text.sqlNormalised value == email) = outboxSelected text email (id :: ids) := by
        funext event
        cases email <;> simp [anyOf, outboxSelected]
      simp only [countSubjectOutboxEvents, countDistinct, ← same]
      rfl

end Conditions

/-! ## Sizes -/

section Sizes

variable {ρ : Type} {selected : ρ → Bool} {rows : List (Uuid × ρ)}

theorem nodup_idsWhere (nodup : (rows.map Prod.fst).Nodup) : (idsWhere selected rows).Nodup :=
  nodup.sublist (List.filter_sublist.map _)

theorem length_idsWhere (nodup : (rows.map Prod.fst).Nodup) :
    (idsWhere selected rows).length = (idsWhere selected rows).toFinset.card :=
  (List.toFinset_card_of_nodup (nodup_idsWhere nodup)).symm

/-- A provider reports rows that its query has returned. -/
theorem affectedRows_le [DecidableEq ρ] (change : Uuid → ρ → ρ)
    (nodup : (rows.map Prod.fst).Nodup) :
    affectedRows selected change rows ≤ (idsWhere selected rows).toFinset.card := by
  rw [← length_idsWhere nodup, affectedRows, idsWhere, List.length_map, ← List.filter_filter,
    List.filter_comm]
  exact List.length_filter_le _ _

theorem selected_user {users : List (Uuid × ρ)} {S : Uuid}
    (present : (users.lookup S).isSome = true) :
    ((users.filter fun row => row.1 == S).map Prod.fst).toFinset = {S} := by
  obtain ⟨user, found⟩ := Option.isSome_iff_exists.mp present
  ext id
  simp only [List.mem_toFinset, List.mem_map, List.mem_filter, beq_iff_eq, Finset.mem_singleton]
  constructor
  · rintro ⟨row, ⟨_, here⟩, rfl⟩
    exact here
  · rintro rfl
    obtain ⟨before, after, split, -⟩ := List.lookup_eq_some_iff.mp found
    exact ⟨(id, user), ⟨split ▸ List.mem_append_right before List.mem_cons_self, rfl⟩, rfl⟩

end Sizes

/-! ## The preview and the providers -/

section Truthful

variable {text : ErasureText} {times : ErasureTimes} {request : DataSubjectRequest} {id S : Uuid}
  {db : ImpactDb}

theorem countScopedRows_eq (id : Uuid) (present : (db.users.lookup S).isSome = true)
    (key : ErasureProviderKey) :
    ImpactPreview.countScopedRows text S (db.emailOf text S) db key =
      (key.selected text (snapshotArguments text db id S) db).toFinset.card := by
  have email : effectiveEmail text (db.emailOf text S)
      ((db.users.lookup S).bind fun user => user.email) = db.emailOf text S :=
    effectiveEmail_eq text _
  simp only [ErasureProviderKey.selected, snapshotArguments, email, ImpactPreview.countScopedRows,
    ImpactPreview.subjectInviteIds, anyOf_invites, anyOf_staff, anyOf_dsr, anyOf_exportArtifacts,
    countWhere, countDistinct, countSubjectOutboxEvents_eq]
  cases key with
  | users => rw [selected_user present, Finset.card_singleton]
  | memberships => exact length_idsWhere db.memberships_nodup
  | organisations => exact (List.card_toFinset _).symm
  | invites => exact length_idsWhere db.invites_nodup
  | outbox => exact (List.card_toFinset _).symm
  | audit =>
      have counted : ImpactPreview.countSubjectAuditEvents S db
          (idsWhere (inviteSelected text S (db.emailOf text S)) db.invites) = _ :=
        countSubjectAuditEvents_eq _ rfl
      exact counted.trans (List.card_toFinset _).symm
  | platformStaff => exact length_idsWhere db.platformStaff_nodup
  | dsr => exact length_idsWhere db.dataSubjectRequests_nodup
  | exportArtifacts => exact length_idsWhere db.exportArtifacts_nodup
  | authorizations => exact length_idsWhere db.authorizations_nodup
  | consents => exact length_idsWhere db.consentRecords_nodup
  | notices => exact length_idsWhere db.noticeAcceptances_nodup

/-- `raiseIf` before a result: where there is a result, nothing was raised. -/
theorem ok_of_raiseIf {α : Type} {condition : Bool} {reasonCode : String}
    {x : Except String α} {a : α}
    (ran : (raiseIf condition reasonCode >>= fun _ => x) = .ok a) : x = .ok a := by
  cases condition with
  | true => exact nomatch ran
  | false => exact ran

/-- What a provider reports under a key, of the rows that it selects. -/
theorem report_le (approved : IsApprovedErasure request) (subject : request.subjectUserId = some S)
    (present : (db.users.lookup S).isSome = true) (key : ErasureProviderKey) {counts : List Nat}
    {after : ErasureDb}
    (ran : key.provider.1.process text times request (snapshotArguments text db id S)
      db.toErasureDb = .ok (counts, after)) :
    ∃ n, counts[key.provider.2]? = some n ∧
      n ≤ (key.selected text (snapshotArguments text db id S) db).toFinset.card := by
  obtain ⟨user, found⟩ := Option.isSome_iff_exists.mp present
  have valid : ∀ provider, validateRequest provider request = .ok S :=
    fun provider => validateRequest_of provider approved subject
  have remaining : validateRemaining request = .ok () := validateRemaining_of approved
  have there : ∀ reasonCode, findSubject reasonCode S db.toErasureDb = .ok user := by
    intro reasonCode
    simp only [findSubject, found]
  have current : (db.users.lookup (snapshotArguments text db id S).subjectUserId).bind
      (fun user => user.email) = user.email :=
    congrArg (fun row : Option UserRow => row.bind fun user => user.email) found
  cases key with
  | users =>
      simp only [ErasureProviderKey.provider, ErasureProvider.process, valid, there, ok_then,
        anonymiseUserProfileForApprovedEraseRequest, Except.ok.injEq, Prod.mk.injEq] at ran
      obtain ⟨rfl, -⟩ := ran
      refine ⟨_, rfl, ?_⟩
      have size : (ErasureProviderKey.users.selected text (snapshotArguments text db id S)
          db).toFinset = {S} := selected_user present
      rw [size, Finset.card_singleton]
      split <;> omega
  | memberships | organisations =>
      simp only [ErasureProviderKey.provider, ErasureProvider.process, remaining, ok_then,
        applyMembershipErasurePolicy, applyOrganisationErasurePolicy, Except.ok.injEq,
        Prod.mk.injEq] at ran
      obtain ⟨rfl, -⟩ := ran
      exact ⟨0, rfl, Nat.zero_le _⟩
  | invites =>
      simp only [ErasureProviderKey.provider, ErasureProvider.process, valid, there, ok_then,
        anonymiseInvitesForApprovedEraseRequest, Except.ok.injEq, Prod.mk.injEq] at ran
      obtain ⟨rfl, -⟩ := ran
      refine ⟨_, rfl, ?_⟩
      simp only [ErasureProviderKey.selected, current]
      exact affectedRows_le _ db.invites_nodup
  | outbox =>
      simp only [ErasureProviderKey.provider, ErasureProvider.process, valid, there, ok_then,
        scrubOutboxForApprovedEraseRequest] at ran
      obtain ⟨rfl, -⟩ := Prod.mk.inj (Except.ok.inj (ok_of_raiseIf ran))
      refine ⟨_, rfl, ?_⟩
      simp only [ErasureProviderKey.selected, current]
      exact affectedRows_le _ db.outboxEvents_nodup
  | audit =>
      simp only [ErasureProviderKey.provider, ErasureProvider.process, valid, there, ok_then,
        minimiseAuditEventsForApprovedEraseRequest] at ran
      obtain ⟨rfl, -⟩ := Prod.mk.inj (Except.ok.inj (ok_of_raiseIf ran))
      refine ⟨_, rfl, ?_⟩
      simp only [ErasureProviderKey.selected, current]
      exact affectedRows_le _ db.auditEvents_nodup
  | platformStaff =>
      simp only [ErasureProviderKey.provider, ErasureProvider.process, remaining, ok_then,
        minimisePlatformStaffForApprovedEraseRequest, Except.ok.injEq, Prod.mk.injEq] at ran
      obtain ⟨rfl, -⟩ := ran
      exact ⟨_, rfl, affectedRows_le _ db.platformStaff_nodup⟩
  | dsr =>
      simp only [ErasureProviderKey.provider, ErasureProvider.process, remaining, ok_then,
        minimiseDsrWorkflowForApprovedEraseRequest, Except.ok.injEq, Prod.mk.injEq] at ran
      obtain ⟨rfl, -⟩ := ran
      exact ⟨_, rfl, affectedRows_le _ db.dataSubjectRequests_nodup⟩
  | exportArtifacts =>
      simp only [ErasureProviderKey.provider, ErasureProvider.process, remaining, ok_then,
        minimiseExportArtifactsForApprovedEraseRequest] at ran
      obtain ⟨rfl, -⟩ := Prod.mk.inj (Except.ok.inj (ok_of_raiseIf ran))
      exact ⟨_, rfl, affectedRows_le _ db.exportArtifacts_nodup⟩
  | authorizations =>
      simp only [ErasureProviderKey.provider, ErasureProvider.process, remaining, ok_then,
        minimisePrivacyGovernanceForApprovedEraseRequest, Except.ok.injEq, Prod.mk.injEq] at ran
      obtain ⟨rfl, -⟩ := ran
      exact ⟨_, rfl, affectedRows_le _ db.authorizations_nodup⟩
  | consents =>
      simp only [ErasureProviderKey.provider, ErasureProvider.process, remaining, ok_then,
        minimisePrivacyGovernanceForApprovedEraseRequest, Except.ok.injEq, Prod.mk.injEq] at ran
      obtain ⟨rfl, -⟩ := ran
      exact ⟨0, rfl, Nat.zero_le _⟩
  | notices =>
      simp only [ErasureProviderKey.provider, ErasureProvider.process, remaining, ok_then,
        minimisePrivacyGovernanceForApprovedEraseRequest, Except.ok.injEq, Prod.mk.injEq] at ran
      obtain ⟨rfl, -⟩ := ran
      exact ⟨_, rfl, affectedRows_le _ db.noticeAcceptances_nodup⟩

theorem buildErasureImpactPreview_eq (approved : IsApprovedErasure request)
    (subject : request.subjectUserId = some S) (present : (db.users.lookup S).isSome = true) :
    buildErasureImpactPreview text request db =
      .ok ⟨S, inventoryErasureProviderKeys.map (ImpactPreview.impactEntry
        (ImpactPreview.countScopedRows text S (db.emailOf text S) db))⟩ := by
  obtain ⟨user, found⟩ := Option.isSome_iff_exists.mp present
  have email : ImpactPreview.normalisedSubjectEmail text user = db.emailOf text S := by
    rw [normalisedSubjectEmail_eq, ErasureDb.emailOf, found]
    rfl
  have plan : buildErasureProviderPlan [] inventoryErasureProviderKeys =
      .ok inventoryErasureProviderKeys := by rfl
  have validated : ImpactPreview.validateRequestAndGetSubject db request = .ok (S, user) := by
    simp only [ImpactPreview.validateRequestAndGetSubject, raiseIf, approved.1, approved.2, subject,
      findSubject, found]
    rfl
  simp only [buildErasureImpactPreview, validated, plan, ok_then, email]

/-- The impact preview tells for each provider how many rows it selects on the same database, and
the provider affects no more. -/
theorem impact_preview_truthful (text : ErasureText) (times : ErasureTimes)
    (request : DataSubjectRequest) (db : ImpactDb) (id S : Uuid)
    (approved : IsApprovedErasure request) (subject : request.subjectUserId = some S)
    (present : (db.users.lookup S).isSome = true) : ∃ preview,
      buildErasureImpactPreview text request db = .ok preview ∧
        preview.entries.map (·.providerKey) = inventoryErasureProviderKeys ∧
        ∀ entry ∈ preview.entries, ∃ rows, entry.estimatedRows = some rows ∧
          rows = (entry.providerKey.selected text (snapshotArguments text db id S)
            db).toFinset.card ∧
          ∀ counts after, entry.providerKey.provider.1.process text times request
              (snapshotArguments text db id S) db.toErasureDb = .ok (counts, after) →
            ∃ n, counts[entry.providerKey.provider.2]? = some n ∧ n ≤ rows := by
  refine ⟨_, buildErasureImpactPreview_eq approved subject present, rfl, fun entry member => ?_⟩
  obtain ⟨key, inside, rfl⟩ := List.mem_map.mp member
  have counted : ImpactPreview.impactEntry
      (ImpactPreview.countScopedRows text S (db.emailOf text S) db) key =
        ⟨key, .scoped, some (ImpactPreview.countScopedRows text S (db.emailOf text S) db key)⟩ :=
    if_pos (List.contains_iff_mem.mpr inside)
  rw [counted]
  refine ⟨_, rfl, countScopedRows_eq id present key, fun counts after ran => ?_⟩
  rw [countScopedRows_eq id present key]
  exact report_le approved subject present key ran

/-- The approved request of the erasure example. -/
def exampleErasureRequest : DataSubjectRequest :=
  { exampleRequest with requestType := .erase, executionStatus := .notStarted }

/-- The database of the erasure example, with two memberships of the subject in one organisation. -/
def exampleImpactDb : ImpactDb where
  toErasureDb := { exampleErasureDb with
    memberships := [(1, ⟨100, 3, .member, false⟩), (2, ⟨100, 3, .member, true⟩)] }
  organisations := [3, 4]
  consentRecords := [(1, 100), (2, 7)]
  invites_nodup := by decide
  memberships_nodup := by decide
  outboxEvents_nodup := by decide
  auditEvents_nodup := by decide
  platformStaff_nodup := by decide
  dataSubjectRequests_nodup := by decide
  exportArtifacts_nodup := by decide
  authorizations_nodup := by decide
  noticeAcceptances_nodup := by decide
  consentRecords_nodup := by decide

theorem impact_preview_truthful_example :
    let args := snapshotArguments exampleErasureText exampleImpactDb 1 100
    ∃ preview,
      buildErasureImpactPreview exampleErasureText exampleErasureRequest exampleImpactDb =
          .ok preview ∧
        preview.entries.map (·.providerKey) = inventoryErasureProviderKeys ∧
        ∀ entry ∈ preview.entries, ∃ rows, entry.estimatedRows = some rows ∧
          rows = (entry.providerKey.selected exampleErasureText args
            exampleImpactDb).toFinset.card ∧
          ∀ counts after, entry.providerKey.provider.1.process exampleErasureText exampleTimes
              exampleErasureRequest args exampleImpactDb.toErasureDb = .ok (counts, after) →
            ∃ n, counts[entry.providerKey.provider.2]? = some n ∧ n ≤ rows :=
  impact_preview_truthful exampleErasureText exampleTimes exampleErasureRequest exampleImpactDb
    1 100 ⟨rfl, rfl⟩ rfl rfl

example : ErasureImpactPreview.totalScopedRows <$>
    (buildErasureImpactPreview exampleErasureText exampleErasureRequest exampleImpactDb).toOption =
      some 12 := by decide

end Truthful

end SaasTemplate.Privacy.SubjectErasure
